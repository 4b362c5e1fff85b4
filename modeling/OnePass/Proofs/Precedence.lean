-- However a term is written down, with more parentheses than it needs or
-- without, a pass gives it the type that it has from below. Tokens write one
-- term only, so the operators of a chain are never grouped in another way.
-- In front of a token with a fault there is no type, but there is still only
-- one thing that can be said.
import OnePass.Analysis
import OnePass.Pass.Budget
import OnePass.Proofs.Grammar.Spelling
import OnePass.Proofs.Grammar.Terms

namespace OnePass

open Grammar

/-! ## What comes of a term -/

/-- The pass has come to a value of the type, with `more` left over and the
scopes as they were, or it has stopped at the node that has no type. -/
def Outcome.Values (o : Outcome Reel ValueType) (v : Except (Violation × Token) ValueType)
    (scopes : Scopes) (more : List Token) : Prop :=
  match v with
  | .ok a => ∃ s, o = .done a s ∧ s.Holds more ∧ s.scopes = scopes
  | .error (w, t) => ∃ s, o = .rejected ⟨.meaning w, t⟩ s

/-- Why the pass was turned down, if it was. -/
def Outcome.rejection? {φ α : Type} : Outcome φ α → Option Rejection
  | .rejected r _ => some r
  | _ => none

/-- A pass that breaks off is turned down, if only it can get to an end. -/
theorem Outcome.Breaks.rejection? {α : Type} {o : Outcome Reel α} {r : Rejection}
    (h : o.Breaks r) (hne : ∀ s, o ≠ .exhausted s) : o.rejection? = some r := by
  cases o with
  | done a s => exact absurd h id
  | rejected r' s => exact congrArg some h
  | exhausted s => exact absurd rfl (hne s)

namespace Grammar.Term

variable {x : Term} {ts more : List Token} {u : Token} {s : Stand Reel} {n : Nat}

/-- In front of a valid token that is no operator, an expression has the type
of its term. -/
theorem Writing.values (w : x.Writing 0 ts) (hs : s.Holds (ts ++ u :: more))
    (hu : ∀ o, u.kind ≠ .operator o) (hvalid : u.kind.fault? = none) (hn : s.left < n) :
    ((Pass.expression n).run s).Values (x.type s.scopes) s.scopes (u :: more) := by
  obtain ⟨e, rfl, rfl, -⟩ := w.exists_expression
  have hhand : s.hand.kind.fault? = none := by
    rw [hs.hand_eq_head]
    exact e.valid_head
  have ho := conforms_expression n e (u :: more) (.of_kind hu) s hs hhand e.valid
  have hne := Pass.suffices_expression n Reel s hn
  generalize (Pass.expression n).run s = o at ho hne
  cases o with
  | done a t =>
    obtain ⟨hok, ht, -⟩ := ho
    obtain ⟨htype, hscopes⟩ := (e.finds_check s.scopes).of_ok hok
    rw [htype]
    exact ⟨t, rfl, ht, hscopes⟩
  | rejected r t =>
    rcases ho with ⟨w, v, herror, rfl⟩ | hr
    · rw [(e.finds_check s.scopes).of_error herror]
      exact ⟨t, rfl⟩
    · exact absurd hr (not_stumbles hvalid more r)
  | exhausted t => exact absurd rfl (hne t)

/-- In front of a fault, what was found early counts, and then the fault. -/
theorem Writing.rejection (w : x.Writing 0 ts) (hs : s.Holds (ts ++ u :: more)) {f : Fault}
    (hu : u.kind.fault? = some f) (hn : s.left < n) :
    ((Pass.expression n).run s).rejection? =
      some (.unless (w.early s.scopes) ⟨.spelling f, u⟩) := by
  obtain ⟨e, rfl, -, hearly⟩ := w.exists_expression
  have hhand : s.hand.kind.fault? = none := by
    rw [hs.hand_eq_head]
    exact e.valid_head
  have ho := (breaks_expression n e hu more).2 s hs hhand e.valid
  rw [hearly s.scopes, Rejection.unless_map] at ho
  exact ho.rejection? (Pass.suffices_expression n Reel s hn)

end Grammar.Term

/-! ## The law -/

/-- Tokens that write a term down write no other one, and the type of the term
does not depend on where they stand. With a valid token behind them that is no
operator, a pass stops in front of that token and has the type of the term, or
it has stopped at the first node that has none. If the token has a fault, that
node is reported when it is found early, and otherwise the fault is. -/
theorem operators_are_grouped_by_rank {x : Term} {ts : List Token} (w : x.Writing 0 ts) :
    (∀ (y : Term) (_ : y.Writing 0 ts), y = x) ∧
    (∀ (y : Term) (scopes : Scopes), x.Alike y →
      (y.type scopes).mapError Prod.fst = (x.type scopes).mapError Prod.fst) ∧
    (∀ (scopes : Scopes) (e : Violation × Token),
      w.early scopes = .error e → x.type scopes = .error e) ∧
    ∀ (s : Stand Reel) (u : Token) (more : List Token) (n : Nat), s.Holds (ts ++ u :: more) →
      (∀ o, u.kind ≠ .operator o) → s.left < n →
      match u.kind.fault? with
      | none => ((Pass.expression n).run s).Values (x.type s.scopes) s.scopes (u :: more)
      | some f => ((Pass.expression n).run s).rejection? =
          some (.unless (w.early s.scopes) ⟨.spelling f, u⟩) := by
  refine ⟨fun y v => v.unique w, fun y scopes h => h.type_eq scopes,
    fun scopes e h => w.type_of_early h, ?_⟩
  intro s u more n hs hu hn
  cases hf : u.kind.fault? with
  | none => exact w.values hs hu hf hn
  | some f => exact w.rejection hs hf hn

/-- The sum is the right operand of the shift, and cannot be shifted by. -/
theorem a_sum_is_taken_before_a_shift :
    ∃ t, (Pass.expression 9).run (Pass.ready (reel "1 << 2 + 3.0;") #[]).pull =
      .rejected ⟨.meaning (.unfitOperands "<<" .int .double),
        ⟨.operator .shiftLeft, "<<", 1, ⟨2, 4⟩⟩⟩ t := by
  let one : Token := ⟨.decimal, "1", 1, ⟨0, 1⟩⟩
  let shift : Token := ⟨.operator .shiftLeft, "<<", 1, ⟨2, 4⟩⟩
  let two : Token := ⟨.decimal, "2", 1, ⟨5, 6⟩⟩
  let plus : Token := ⟨.operator .plus, "+", 1, ⟨7, 8⟩⟩
  let three : Token := ⟨.floating, "3.0", 1, ⟨9, 12⟩⟩
  let stop : Token := ⟨.semicolon, ";", 1, ⟨12, 13⟩⟩
  have htokens : tokenize "1 << 2 + 3.0;" = [one, shift, two, plus, three, stop, .finish 1 13] := by
    decide +kernel
  have hs := Stand.holds_pull (Pass.ready (reel "1 << 2 + 3.0;") #[])
  rw [show (Pass.ready (reel "1 << 2 + 3.0;") #[]).feed.tokens = _ from tokens_reel _, htokens]
    at hs
  have hleft := hs.left
  let sum := Term.Writing.joined (Nat.le_refl 6) (o := .plus) ⟨plus, rfl⟩
    (.constant 6 ⟨two, rfl⟩) (.constant 7 ⟨three, rfl⟩)
  let shifted := Term.Writing.joined (Nat.zero_le 5) (o := .shiftLeft) ⟨shift, rfl⟩
    (.constant 5 ⟨one, rfl⟩) sum
  exact (operators_are_grouped_by_rank shifted).2.2.2 _ stop [.finish 1 13] 9 hs nofun
    (by simp at hleft; omega)

/-- A token with a fault is no operator, but what stands in front of it is not
looked at to the end: it comes into hand before the operator is judged. -/
theorem a_fault_comes_before_the_operator :
    ∃ (x : Term) (ts more : List Token) (u : Token) (s : Stand Reel) (_ : x.Writing 0 ts),
      s.Holds (ts ++ u :: more) ∧ (∀ o, u.kind ≠ .operator o) ∧ s.left < 9 ∧
      ¬((Pass.expression 9).run s).Values (x.type s.scopes) s.scopes (u :: more) ∧
      (analyze "int x = 1 % 2.0 @;").verdict = .error ⟨.spelling .strayCharacter, u⟩ := by
  let one : Token := ⟨.decimal, "1", 1, ⟨8, 9⟩⟩
  let percent : Token := ⟨.operator .remainder, "%", 1, ⟨10, 11⟩⟩
  let two : Token := ⟨.floating, "2.0", 1, ⟨12, 15⟩⟩
  let stray : Token := .invalid .strayCharacter "@" 1 ⟨16, 17⟩
  let stop : Token := ⟨.semicolon, ";", 1, ⟨17, 18⟩⟩
  let s : Stand Reel :=
    ⟨⟨[percent, two, stray, stop], .finish 1 18, by decide, rfl⟩, one, .empty, #[]⟩
  have hrun : ((Pass.expression 9).run s).rejection? = some ⟨.spelling .strayCharacter, stray⟩ := by
    decide +kernel
  let quotient := Term.Writing.joined (Nat.zero_le 7) (o := .remainder) ⟨percent, rfl⟩
    (.constant 7 ⟨one, rfl⟩) (.constant 8 ⟨two, rfl⟩)
  have hs : s.Holds ([one] ++ percent :: [two] ++ stray :: [stop, .finish 1 18]) := rfl
  have hu : ∀ o, stray.kind ≠ .operator o := nofun
  have hl : s.left < 9 := by decide
  have hv : (analyze "int x = 1 % 2.0 @;").verdict = .error ⟨.spelling .strayCharacter, stray⟩ := by
    decide +kernel
  refine ⟨_, [one] ++ percent :: [two], [stop, .finish 1 18], stray, s, quotient, hs, hu, hl, ?_,
    hv⟩
  rintro ⟨t, ht⟩
  rw [ht] at hrun
  cases hrun

end OnePass
