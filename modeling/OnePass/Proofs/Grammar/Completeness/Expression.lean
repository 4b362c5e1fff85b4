-- What the grammar derives, the pass takes, and it finds what the check of
-- the tree finds. The induction is on the tree, and the budget is whatever
-- is left of it at each node.
import Mathlib.Data.List.Basic
import OnePass.Pass.Program
import OnePass.Proofs.Grammar.Conformity

namespace OnePass

open Grammar

/-! ## Where an expression ends -/

/-- No operator of these tiers comes next. -/
def Stops (tiers : List (List Operator)) (more : List Token) : Prop :=
  ∃ t ts, more = t :: ts ∧ ∀ tier ∈ tiers, t.kind.isOperatorOf tier = false

theorem Stops.of_cons {tier : List Operator} {tiers : List (List Operator)} {more : List Token}
    (h : Stops (tier :: tiers) more) : Stops tiers more := by
  obtain ⟨t, ts, hm, ht⟩ := h
  exact ⟨t, ts, hm, fun x hx => ht x (List.mem_cons_of_mem _ hx)⟩

/-- An operator of one tier ends an expression of tiers that do not share
any operator with it. -/
theorem Stops.operator {tier : List Operator} {tiers : List (List Operator)}
    (h : (tier :: tiers).Pairwise List.Disjoint) (op : OperatorOf tier) (ts : List Token) :
    Stops tiers (op.1 :: ts) := by
  refine ⟨op.1, ts, rfl, ?_⟩
  intro other hother
  have hd := (List.pairwise_cons.1 h).1 other hother
  have hop := op.2
  generalize op.1.kind = k at hop ⊢
  cases k with
  | operator o =>
    have ho : o ∉ other := fun hmem => hd (by simpa [Kind.isOperatorOf] using hop) hmem
    simpa [Kind.isOperatorOf] using ho
  | _ => rfl

theorem Stops.of_kind {tiers : List (List Operator)} {t : Token} {ts : List Token}
    (h : ∀ o, t.kind ≠ .operator o) : Stops tiers (t :: ts) := by
  refine ⟨t, ts, rfl, ?_⟩
  intro tier _
  revert h
  cases t.kind with
  | operator o => exact fun h => absurd rfl (h o)
  | _ => exact fun _ => rfl

theorem pairwise_tiers : Operator.tiers.Pairwise List.Disjoint := by
  unfold Operator.tiers
  simp [List.disjoint_left]

/-! ## Expressions -/

/-- In front of an expression the head is in hand. -/
theorem Stand.Holds.hand_eq_head {s : Stand Reel} {tiers : List (List Operator)}
    {x : Tiered tiers} {more : List Token} (h : s.Holds (x.spelling ++ more)) :
    s.hand = x.head := by
  obtain ⟨ts, hts⟩ := x.spelling_eq
  rw [hts, List.cons_append] at h
  exact h.hand

theorem Grammar.Primary.isSign_head (x : Primary) : x.head.kind.isSign = false := by
  cases x with
  | name t =>
    have ht := t.2
    rw [Primary.head]
    generalize t.1.kind = k at ht ⊢
    cases k <;> simp_all [Kind.isName, Kind.isSign]
  | constant t =>
    have ht := t.2
    rw [Primary.head]
    generalize t.1.kind = k at ht ⊢
    cases k <;> simp_all [Kind.constantType?, Kind.isSign]
  | group l x r =>
    rw [Primary.head, l.2]
    rfl

/-- No expression starts with a closing parenthesis. -/
theorem Grammar.Tiered.head_ne_rightParen :
    ∀ {tiers : List (List Operator)} (x : Tiered tiers), x.head.kind ≠ .rightParen
  | _, .plain (.name t), h => by
    have ht := t.2
    rw [show t.1.kind = _ from h] at ht
    cases ht
  | _, .plain (.constant t), h => by
    have ht := t.2
    rw [show t.1.kind = _ from h] at ht
    cases ht
  | _, .plain (.group l _ _), h => by
    have hl := l.2
    rw [show l.1.kind = _ from h] at hl
    cases hl
  | _, .signed s _, h => by
    have hs := s.2
    rw [show s.1.kind = _ from h] at hs
    cases hs
  | _, .lift x, h => x.head_ne_rightParen h
  | _, .join l _ _, h => l.head_ne_rightParen h

/-- An operand: a primary with at most one sign before it. -/
def operand (n : Nat) : Pass ValueType := Parse.signed fun _ => Pass.expression n

/-- A judgement of what stands in front of `more` that is kept when steps
which conform are put before it. -/
structure Carries (more : List Token)
    (J : Pass ValueType → List Token → Check ValueType → Prop) : Prop where
  exhausted (t : Token) (ts : List Token) (c : Check ValueType) : J Pass.exhausted (t :: ts) c
  bind {p : Pass ValueType} {f : ValueType → Pass ValueType} {c : Check ValueType}
    {d : ValueType → Check ValueType} {l m : List Token} (hp : Conforms p l (m ++ more) c)
    (hf : ∀ a, J (f a) m (d a)) : J (p >>= f) (l ++ m) (c >>= d)
  bind_pure {p : Pass Token} {f : Token → Pass ValueType} {t : Token} {d : Check ValueType}
    {l m : List Token} (hp : Conforms p l (m ++ more) (pure t)) (hf : J (f t) m d) :
    J (p >>= f) (l ++ m) d

theorem Conforms.carries (more : List Token) : Carries more fun p ts c => Conforms p ts more c where
  exhausted t ts c := .exhausted (t :: ts) c
  bind hp hf := hp.bind hf
  bind_pure hp hf := hp.bind_pure hf

/-- What conformity is for a tree of some tiers. With operators to come, the
tree is only the left end of a longer one, so that what is said must leave
room for a chain that goes on, in whatever way that is judged. -/
def ConformsTree (n : Nat) : {tiers : List (List Operator)} → Tiered tiers → Prop
  | [], x => ∀ more, more ≠ [] → Conforms (operand n) x.spelling more x.check
  | tier :: tiers, x =>
    ∀ (J : Pass ValueType → List Token → Check ValueType → Prop) (k : Nat) (us more : List Token)
      (d : ValueType → Check ValueType), Carries more J → Stops tiers (us ++ more) →
      (∀ i, ∀ j ≤ k, ∀ left,
        J (Parse.chain tier (Parse.tiered (operand n) n tiers) i j left) us (d left)) →
      ∀ i, J (Parse.tiered (operand n) n tiers >>=
        Parse.chain tier (Parse.tiered (operand n) n tiers) i k)
        (x.spelling ++ us) (x.check >>= d)

theorem conforms_chain_stop {tier : List Operator} {p : Pass ValueType} {more : List Token}
    {t : Token} {ts : List Token} (hm : more = t :: ts) (ht : t.kind.isOperatorOf tier = false)
    (i n : Nat) (left : ValueType) :
    Conforms (Parse.chain tier p i n left) [] more (pure left) := by
  cases n with
  | zero => exact .exhausted _ _
  | succ n =>
    apply Conforms.hand_bind (l := []) hm
    rw [ht]
    exact .pure left

/-- When the tiers stop, so does the chain. -/
theorem ConformsTree.tiered {n : Nat} {tiers : List (List Operator)} {x : Tiered tiers}
    (h : ConformsTree n x) {more : List Token} (hm : Stops tiers more) :
    Conforms (Parse.tiered (operand n) n tiers) x.spelling more x.check := by
  cases tiers with
  | nil =>
    obtain ⟨t, ts, rfl, -⟩ := hm
    rw [Pass.tiered_nil]
    exact h _ (List.cons_ne_nil _ _)
  | cons tier tiers =>
    obtain ⟨t, ts, hmore, ht⟩ := hm
    have hc := h _ n [] more pure (Conforms.carries more) (Stops.of_cons ⟨t, ts, hmore, ht⟩)
      (fun i j _ left => conforms_chain_stop hmore (ht tier List.mem_cons_self) i j left) 1
    rw [Pass.tiered_cons]
    rwa [List.append_nil, bind_pure] at hc

mutual

theorem conforms_primary (n : Nat) : ∀ (x : Primary) (more : List Token), more ≠ [] →
    Conforms (Parse.primary fun _ => Pass.expression n) x.spelling more x.check
  | .name t, more, _ => by
    rw [Primary.spelling, Primary.check]
    apply Conforms.hand_bind List.singleton_append
    rw [if_pos t.2]
    apply (Conforms.lookup t.1.text).bind_nil
    intro x
    cases x with
    | none => exact .refuse _ _ _
    | some x =>
      dsimp only
      by_cases hf : x.role.isFunction = true
      · rw [if_pos hf, if_pos hf]
        exact .refuse _ _ _
      · rw [if_neg hf, if_neg hf]
        exact (Conforms.advance (Kind.ne_finish_of_isName t.2)).bind_pure (m := []) (.pure _)
  | .constant t, more, _ => by
    rw [Primary.spelling, Primary.check]
    apply Conforms.hand_bind List.singleton_append
    obtain ⟨type, htype⟩ := Option.isSome_iff_exists.1 t.2
    have hn : ¬t.1.kind.isName = true := by
      intro hn
      revert hn htype
      cases t.1.kind <;> simp [Kind.isName, Kind.constantType?]
    rw [if_neg hn, htype]
    exact (Conforms.advance (Kind.ne_finish_of_constantType? htype)).bind_pure (m := []) (.pure _)
  | .group l x r, more, _ => by
    rw [Primary.spelling, Primary.check]
    apply Conforms.hand_bind (t := l.1) rfl
    rw [l.2]
    have hstop : Stops Operator.tiers (r.1 :: more) :=
      Stops.of_kind (by rw [r.2]; simp)
    refine Conforms.bind_pure (l := [l.1]) (.advance (by rw [l.2]; simp)) ?_
    rw [← bind_pure x.check]
    apply Conforms.bind (conforms_expression n x (r.1 :: more) hstop)
    intro type
    exact (Conforms.expect _ r (by simp)).bind_pure (m := []) (.pure type)

theorem conforms_tree (n : Nat) : ∀ {tiers : List (List Operator)} (x : Tiered tiers),
    tiers.Pairwise List.Disjoint → ConformsTree n x
  | _, .plain x, _ => by
    intro more hmore
    rw [Tiered.spelling, Tiered.check]
    obtain ⟨ts, hts⟩ := x.spelling_eq
    apply Conforms.hand_bind (t := x.head) (m := ts ++ more)
    · rw [hts]
      rfl
    · rw [x.isSign_head]
      exact conforms_primary n x more hmore
  | _, .signed s x, _ => by
    intro more hmore
    rw [Tiered.spelling, Tiered.check]
    apply Conforms.hand_bind (t := s.1) rfl
    rw [if_pos s.2]
    refine Conforms.bind_pure (l := [s.1]) (.advance (Kind.ne_finish_of_isSign s.2)) ?_
    apply (conforms_primary n x more hmore).bind_last
    intro type
    exact .demand _ _
  | _, .lift x, hap => by
    intro J k us more d hJ hstop hd i
    rw [Tiered.spelling, Tiered.check]
    apply hJ.bind ((conforms_tree n x (List.pairwise_cons.1 hap).2).tiered hstop)
    intro left
    exact hd i k (Nat.le_refl k) left
  | tier :: tiers, .join l op r, hap => by
    intro J k us more d hJ hstop hd
    rw [Tiered.spelling, Tiered.check, List.append_assoc, bind_assoc]
    apply conforms_tree n l hap J k _ _ _ hJ
    · exact Stops.operator hap op _
    · intro i j hj left
      cases j with
      | zero => exact hJ.exhausted op.1 _ _
      | succ j =>
        -- The round takes the operator and its right operand.
        have hround : Conforms (Pass.advance >>= fun _ => Parse.tiered (operand n) n tiers >>=
            fun right => Pass.demand (checkOperands left op.1 right) op.1)
            ([op.1] ++ r.spelling) (us ++ more) (r.check >>= fun right =>
              Check.demand (checkOperands left op.1 right) op.1) := by
          apply Conforms.bind_pure (.advance (Kind.ne_finish_of_isOperatorOf op.2))
          apply ((conforms_tree n r (List.pairwise_cons.1 hap).2).tiered hstop).bind_last
          intro right
          exact .demand _ _
        apply hJ.bind_pure (l := []) (.hand op.1 _)
        rw [if_pos op.2, ← bind_assoc]
        apply hJ.bind hround
        intro type
        exact hd (i + 1) j (by omega) type

theorem conforms_expression : ∀ (n : Nat) (x : Expression) (more : List Token),
    Stops Operator.tiers more → Conforms (Pass.expression n) x.spelling more x.check
  | 0, x, more, _ => .exhausted _ _
  | n + 1, x, more, h => (conforms_tree n x pairwise_tiers).tiered h

end

end OnePass
