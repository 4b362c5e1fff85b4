-- A call compares two lists: the types of its values, and the types that the
-- function takes. It goes well when they are equal. Otherwise the first place
-- where they differ is at fault, or the first value that is one too many, or
-- their number.
import OnePass.Pass.Budget
import OnePass.Proofs.Blame
import OnePass.Proofs.Grammar.Counts
import OnePass.Proofs.Grammar.Terms

namespace OnePass

open Grammar

variable {α β : Type}

/-! ## Outcomes -/

/-- The pass was turned down for this, unless its budget ran out. -/
def Outcome.Refuses (o : Outcome Reel α) (v : Violation) (t : Token) : Prop :=
  (∃ s, o = .rejected ⟨.meaning v, t⟩ s) ∨ ∃ s, o = .exhausted s

namespace Outcome

variable {o : Outcome Reel α} {g : α → Stand Reel → Outcome Reel β} {v : Violation} {t u : Token}
  {more : List Token}

theorem Refuses.andThen (h : o.Refuses v t) : (o.andThen g).Refuses v t := by
  rcases h with ⟨s, rfl⟩ | ⟨s, rfl⟩
  · exact Or.inl ⟨s, rfl⟩
  · exact Or.inr ⟨s, rfl⟩

/-- What a check turns down is turned down by the pass. -/
theorem Meets.refuses (h : o.Meets (.error (v, t)) (u :: more)) (hu : u.kind.fault? = none) :
    o.Refuses v t := by
  cases o with
  | done a s => cases h.1
  | rejected r s =>
    rcases h with ⟨w, t', hw, rfl⟩ | hr
    · cases hw
      exact Or.inl ⟨s, rfl⟩
    · exact absurd hr (not_stumbles hu more r)
  | exhausted s => exact Or.inr ⟨s, rfl⟩

/-- Where the check goes on, the pass does. -/
theorem Meets.andThen_refuses {a : α} {scopes : Scopes}
    (h : o.Meets (.ok (a, scopes)) (u :: more)) (hu : u.kind.fault? = none)
    (hg : ∀ s, s.Holds (u :: more) → s.scopes = scopes → (g a s).Refuses v t) :
    (o.andThen g).Refuses v t := by
  cases o with
  | done b s =>
    obtain ⟨hok, hs, -⟩ := h
    cases hok
    exact hg s hs rfl
  | rejected r s =>
    rcases h with ⟨w, t', hw, -⟩ | hr
    · cases hw
    · exact absurd hr (not_stumbles hu more r)
  | exhausted s => exact Or.inr ⟨s, rfl⟩

end Outcome

/-! ## Arguments -/

/-- The expressions have these types. -/
def HaveTypes (scopes : Scopes) (es : List Expression) (as : List ValueType) : Prop :=
  List.Forall₂ (fun e a => e.term.type scopes = .ok a) es as

/-- The types from the position `i` on are those that the function takes. -/
def Symbol.Fits (f : Symbol) (i : Nat) (as : List ValueType) : Prop :=
  ∀ k a, as[k]? = some a → f.takes[i + k]? = some a

theorem Symbol.Fits.tail {f : Symbol} {i : Nat} {a : ValueType} {as : List ValueType}
    (h : f.Fits i (a :: as)) : f.Fits (i + 1) as := by
  intro k b hk
  rw [Nat.add_assoc, Nat.add_comm 1 k]
  exact h (k + 1) b hk

theorem Symbol.Fits.of_take {f : Symbol} {as : List ValueType} {i : Nat}
    (h : as = f.takes.take i) : f.Fits 0 as := by
  intro k a hk
  rw [h, List.getElem?_take] at hk
  rw [Nat.zero_add]
  split at hk
  · exact hk
  · cases hk

section

variable {f : Symbol} {scopes : Scopes} {n : Nat}

/-- An argument is checked with the type of its term. -/
theorem run_checkArgumentOf {e : Expression} {a : ValueType} (h : e.term.type scopes = .ok a)
    (f : Symbol) (i : Nat) :
    (checkArgumentOf f i e).run scopes =
      (Check.demand (checkArgument f i a) e.head).run scopes := by
  have hc := e.finds_check scopes
  rw [h] at hc
  exact Check.run_bind_of_ok hc

/-- Arguments of the right types are taken. -/
theorem run_checkArguments {es : List Expression} {as : List ValueType}
    (h : HaveTypes scopes es as) {i : Nat} (hfits : f.Fits i as) :
    (forM (es.zipIdx (i + 1)) fun x => checkArgumentOf f x.2 x.1).run scopes =
      .ok ((), scopes) := by
  induction h generalizing i with
  | nil => rfl
  | @cons e a es as ha _ ih =>
    have hc : (checkArgumentOf f (i + 1) e).run scopes = .ok ((), scopes) := by
      rw [run_checkArgumentOf ha, checkArgument_of_eq (hfits 0 a rfl)]
      rfl
    rw [List.zipIdx_cons, List.forM_cons, Check.run_bind_of_ok hc]
    exact ih hfits.tail

/-- Behind arguments of the right types only the count is left to look at. -/
theorem run_checkArguments_count {es : List Expression} {as : List ValueType}
    (h : HaveTypes scopes es as) (hfits : f.Fits 0 as) (name : Token) :
    (do
      checkArguments f es
      Check.demand (checkCount f es.length) name).run scopes =
      (Check.demand (checkCount f as.length) name).run scopes := by
  have hargs : (checkArguments f es).run scopes = .ok ((), scopes) := run_checkArguments h hfits
  rw [Check.run_bind_of_ok hargs, h.length_eq]

/-- An argument is read up to a token that is no operator. -/
theorem meets_argument {e : Expression} {a : ValueType} {u : Token} {more : List Token}
    {s : Stand Reel} (hs : s.Holds (e.spelling ++ u :: more)) (hu : ∀ o, u.kind ≠ .operator o)
    (ha : e.term.type s.scopes = .ok a) (i : Nat) :
    ((Pass.argument n f i).run s).Meets
      ((Check.demand (checkArgument f i a) e.head).run s.scopes) (u :: more) := by
  have hhand : s.hand.kind.fault? = none := by
    rw [hs.hand_eq_head]
    exact e.valid_head
  rw [← run_checkArgumentOf ha]
  exact conforms_argument n f i e (u :: more) (.of_kind hu) s hs hhand e.valid

theorem comma_not_operator (c : Of .comma) : ∀ o, c.1.kind ≠ .operator o := by
  rw [c.2]
  intro o h
  cases h

/-- What comes behind an argument is a comma or what comes behind all of
them. -/
theorem exists_behind {u : Token} (hu : ∀ o, u.kind ≠ .operator o) (hv : u.kind.fault? = none)
    (more : List Token) (others : List (Of .comma × Expression)) :
    ∃ w ws, (others.flatMap fun x => x.1.1 :: x.2.spelling) ++ u :: more = w :: ws ∧
      (∀ o, w.kind ≠ .operator o) ∧ w.kind.fault? = none := by
  cases others with
  | nil => exact ⟨u, more, rfl, hu, hv⟩
  | cons x others =>
    refine ⟨x.1.1, _, rfl, comma_not_operator x.1, ?_⟩
    rw [x.1.2]
    rfl

/-- Behind a comma there is another list of arguments. -/
theorem comma_refuses {c : Of .comma} {xs : Commas Expression} {us : List Token} {s : Stand Reel}
    {g : Bool → Stand Reel → Outcome Reel β} {v : Violation} {w : Token}
    (hs : s.Holds (c.1 :: (xs.spelling Tiered.spelling ++ us)))
    (hg : ∀ s', s'.Holds (xs.spelling Tiered.spelling ++ us) → s'.scopes = s.scopes →
      (g true s').Refuses v w) :
    (((Pass.accept .comma).run s).andThen g).Refuses v w := by
  obtain ⟨ts, hts⟩ := xs.spelling_eq
  rw [hts] at hs hg
  have ho := (Conforms.accept c (by simp)).meets hs (by simp [c.2, Kind.fault?])
  exact ho.andThen_refuses xs.first.valid_head hg

/-- Arguments are taken one by one, up to the first that is turned down. What
comes behind that one plays no part. -/
theorem refuses_separated {u : Token} {more : List Token} (hu : ∀ o, u.kind ≠ .operator o)
    (hv : u.kind.fault? = none) {v : Violation} {e : Expression} {a : ValueType} :
    ∀ (others : List (Of .comma × Expression)) (first : Expression) (as : List ValueType)
      (i j m : Nat) (s : Stand Reel),
      s.Holds ((Commas.mk first others).spelling Tiered.spelling ++ u :: more) →
      HaveTypes s.scopes (Commas.mk first others).toList as → f.Fits i (as.take j) →
      (Commas.mk first others).toList[j]? = some e → as[j]? = some a →
      checkArgument f (i + j + 1) a = .error v →
      ((Parse.separated .arguments (Pass.argument n f) (i + 1) m).run s).Refuses v e.head
  | _, _, _, _, _, 0, s, _, _, _, _, _, _ => Or.inr ⟨s, rfl⟩
  | others, first, as, i, 0, m + 1, s, hs, has, _, he, ha, hbad => by
    obtain ⟨w, ws, hw, hwo, hwv⟩ := exists_behind hu hv more others
    cases has with
    | cons hfirst _ =>
      cases he
      cases ha
      rw [Commas.spelling, List.append_assoc, hw] at hs
      have ho := meets_argument (f := f) (n := n) hs hwo hfirst (i + 1)
      rw [hbad] at ho
      rw [Pass.separated_succ, Pass.run_bind]
      exact (ho.refuses hwv).andThen
  | [], first, as, i, j + 1, m + 1, s, hs, has, hfits, he, ha, hbad => by cases he
  | (c, y) :: others, first, as, i, j + 1, m + 1, s, hs, has, hfits, he, ha, hbad => by
    cases has with
    | @cons _ b _ as hfirst hothers =>
      have hs : s.Holds (first.spelling ++
          c.1 :: ((Commas.mk y others).spelling Tiered.spelling ++ u :: more)) := by
        simpa [Commas.spelling] using hs
      have ho := meets_argument (f := f) (n := n) hs (comma_not_operator c) hfirst (i + 1)
      rw [checkArgument_of_eq (hfits 0 b rfl)] at ho
      rw [Pass.separated_succ, Pass.run_bind]
      refine ho.andThen_refuses (by rw [c.2]; rfl) fun t ht hscopes => ?_
      -- The comma is put away, and the next argument is the first one then.
      rw [Pass.run_bind]
      refine comma_refuses ht fun t' ht' hscopes' => ?_
      rw [if_pos rfl, Pass.run_bind]
      refine (refuses_separated hu hv others y as (i + 1) j m t' ht' ?_ hfits.tail he ha ?_).andThen
      · rw [hscopes', hscopes]
        exact hothers
      · rw [← hbad]
        congr 1
        omega

end

/-! ## Two lists -/

/-- Lists are equal, or there is a first place where they differ, or one of
them starts with the other and is longer. -/
theorem compare_lists (as ps : List α) :
    as = ps ∨
    (∃ (i : Nat) (p a : α), ps[i]? = some p ∧ as[i]? = some a ∧ p ≠ a ∧
      as.take i = ps.take i) ∨
    (ps.length < as.length ∧ as.take ps.length = ps) ∨
    (as.length < ps.length ∧ ps.take as.length = as) := by
  induction as generalizing ps with
  | nil =>
    cases ps with
    | nil => exact Or.inl rfl
    | cons p ps => exact Or.inr (Or.inr (Or.inr ⟨by simp, rfl⟩))
  | cons a as ih =>
    cases ps with
    | nil => exact Or.inr (Or.inr (Or.inl ⟨by simp, rfl⟩))
    | cons p ps =>
      by_cases hpa : p = a
      · subst hpa
        rcases ih ps with rfl | ⟨i, q, b, hq, hb, hne, ht⟩ | ⟨hl, ht⟩ | ⟨hl, ht⟩
        · exact Or.inl rfl
        · exact Or.inr (Or.inl ⟨i + 1, q, b, hq, hb, hne, by simp [ht]⟩)
        · exact Or.inr (Or.inr (Or.inl ⟨by simpa using hl, by simp [ht]⟩))
        · exact Or.inr (Or.inr (Or.inr ⟨by simpa using hl, by simp [ht]⟩))
      · exact Or.inr (Or.inl ⟨0, p, a, rfl, rfl, hpa, rfl⟩)

/-! ## Calls -/

/-- A call that comes next: the name is that of a function, the arguments have
types, and behind them comes a token that is no operator. -/
structure CallAt (s : Stand Reel) where
  name : Name
  left : Of .leftParen
  arguments : Option (Commas Expression)
  behind : Token
  more : List Token
  function : Symbol
  types : List ValueType
  holds : s.Holds (name.1 :: left.1 :: (spellArguments arguments ++ behind :: more))
  valid : behind.kind.fault? = none
  ends : ∀ o, behind.kind ≠ .operator o
  known : s.scopes.lookup name.1.text = some function
  isFunction : function.role.isFunction = true
  typed : HaveTypes s.scopes (argumentList arguments) types

namespace CallAt

variable {s : Stand Reel} (c : CallAt s) {n : Nat} {v : Violation} {t : Token}

theorem front : ∃ w ws, spellArguments c.arguments ++ c.behind :: c.more = w :: ws ∧
    w.kind.fault? = none := by
  cases c.arguments with
  | none => exact ⟨_, _, rfl, c.valid⟩
  | some xs =>
    obtain ⟨ts, hts⟩ := xs.spelling_eq
    exact ⟨xs.first.head, _, by rw [spellArguments, hts]; rfl, xs.first.valid_head⟩

/-- The name and the parenthesis are taken, and the arguments come next. -/
theorem refuses_call
    (h : ∀ s', s'.Holds (spellArguments c.arguments ++ c.behind :: c.more) →
      s'.scopes = s.scopes → (Pass.run (Parse.arguments n c.function c.name.1) s').Refuses v t) :
    ((Pass.call n).run s).Refuses v t := by
  obtain ⟨w, ws, hw, hwv⟩ := c.front
  have hname : c.name.1.kind.fault? = none := Kind.fault?_of_isInner (Kind.isInner_of_isName c.name.2)
  have hleft : c.left.1.kind.fault? = none := by
    rw [c.left.2]
    rfl
  have ho := (Conforms.expectName .callee c.name).meets c.holds (by simpa using hname)
  rw [Pass.call, Parse.call, Pass.within_eq, Pass.run_bind]
  refine ho.andThen_refuses hleft fun s1 hs1 hscopes1 => ?_
  simp only [monadLift_eq_step, Pass.step_eq]
  rw [Pass.run_bind, Pass.run_lookup, hscopes1, c.known, Outcome.andThen_done]
  dsimp only
  rw [if_pos c.isFunction, Pass.run_bind]
  rw [hw] at hs1
  have ho' := (Conforms.expect .argumentsOpen c.left (by simp)).meets hs1 (by simpa using hleft)
  refine ho'.andThen_refuses hwv fun s2 hs2 hscopes2 => ?_
  rw [Pass.run_bind]
  rw [← hw] at hs2
  exact (h s2 hs2 (hscopes2.trans hscopes1)).andThen

/-- The first argument that is turned down ends the call, whatever comes
behind it. -/
theorem refuses_argument {j : Nat} {e : Expression} {a : ValueType}
    (hfits : c.function.Fits 0 (c.types.take j)) (he : (argumentList c.arguments)[j]? = some e)
    (ha : c.types[j]? = some a) (hbad : checkArgument c.function (j + 1) a = .error v) :
    ((Pass.call n).run s).Refuses v e.head := by
  apply c.refuses_call
  intro s' hs' hscopes
  have htyped := c.typed
  rw [← hscopes] at htyped
  match hargs : c.arguments with
  | none =>
    rw [hargs] at he
    cases he
  | some ⟨first, others⟩ =>
    rw [hargs] at hs' he htyped
    have hhand : s'.hand.kind ≠ .rightParen := by
      rw [spellArguments, Commas.spelling, List.append_assoc] at hs'
      rw [hs'.hand_eq_head]
      exact first.head_ne_rightParen
    simp only [Parse.arguments, Pass.within_eq, monadLift_eq_step, Pass.step_eq, Pass.run_bind,
      Pass.run_hand, Outcome.andThen_done]
    rw [if_neg hhand, Pass.run_bind]
    apply Outcome.Refuses.andThen
    exact refuses_separated c.ends c.valid others first c.types 0 j n s' hs' htyped hfits he ha
      (by rw [Nat.zero_add, hbad])

/-- With the closing parenthesis behind them, the arguments are counted. -/
theorem refuses_count (hclosed : c.behind.kind = .rightParen) (hfits : c.function.Fits 0 c.types)
    (hbad : checkCount c.function c.types.length = .error v) :
    ((Pass.call n).run s).Refuses v c.name.1 := by
  apply c.refuses_call
  intro s' hs' hscopes
  obtain ⟨w, ws, hw, hwv⟩ := c.front
  have hhand : s'.hand.kind.fault? = none := by
    rw [hw] at hs'
    rw [hs'.hand, hwv]
  have ho := conforms_arguments n c.function c.name.1 c.arguments ⟨c.behind, hclosed⟩ c.more s' hs'
    hhand fun t ht => Kind.fault?_of_isInner (inner_spellArguments c.arguments t ht)
  rw [hscopes, run_checkArguments_count c.typed hfits, hbad] at ho
  exact ho.refuses c.valid

/-- The check of a call with the right types finds nothing. -/
theorem run_checkCall (htypes : c.types = c.function.takes) :
    (checkCall c.name.1 (argumentList c.arguments)).run s.scopes = .ok ((), s.scopes) := by
  have hlookup : (Check.lookup c.name.1.text).run s.scopes = .ok (some c.function, s.scopes) := by
    rw [← c.known]
    rfl
  have hfits : c.function.Fits 0 c.types := by
    intro k a hk
    rwa [Nat.zero_add, ← htypes]
  have hcount : checkCount c.function c.types.length = .ok () := by
    rw [checkCount, if_pos (by rw [htypes, Symbol.length_takes])]
  rw [checkCall, Check.run_bind_of_ok hlookup]
  dsimp only
  rw [if_pos c.isFunction, run_checkArguments_count c.typed hfits, hcount]
  rfl

/-- With the closing parenthesis behind them, arguments of the right types are
taken. -/
theorem done_call (hclosed : c.behind.kind = .rightParen) {u : Token} {us : List Token}
    (hmore : c.more = u :: us) (hu : u.kind.fault? = none) (htypes : c.types = c.function.takes)
    (hn : s.left < n + 1) :
    ∃ t, (Pass.call n).run s = .done () t ∧ t.Holds c.more ∧ t.scopes = s.scopes := by
  have hinner : Inner (c.name.1 :: c.left.1 :: (spellArguments c.arguments ++ [c.behind])) := by
    rw [inner_cons, inner_cons, inner_append, inner_cons, hclosed]
    exact ⟨Kind.isInner_of_isName c.name.2, c.left.isInner rfl, inner_spellArguments _, rfl,
      inner_nil⟩
  have hs : s.Holds (c.name.1 :: (c.left.1 :: (spellArguments c.arguments ++ [c.behind]) ++
      c.more)) := by
    simpa using c.holds
  have ho := (conforms_call n c.name c.left c.arguments ⟨c.behind, hclosed⟩ c.more).meets hs
    fun t ht => Kind.fault?_of_isInner (hinner t ht)
  rw [c.run_checkCall htypes] at ho
  have hne := Pass.suffices_call n Reel s hn
  generalize (Pass.call n).run s = o at ho hne
  cases o with
  | done a t =>
    obtain ⟨hok, ht, -⟩ := ho
    exact ⟨t, rfl, ht, (Prod.mk.inj (Except.ok.inj hok)).2.symm⟩
  | rejected r t =>
    rcases ho with ⟨w, t', hw, -⟩ | hr
    · cases hw
    · rw [hmore] at hr
      exact absurd hr (not_stumbles hu us r)
  | exhausted t => exact absurd rfl (hne t)

/-- A budget that is large enough plays no part. -/
theorem rejected_of_refuses (hn : s.left < n + 1) (h : ((Pass.call n).run s).Refuses v t) :
    ∃ u, (Pass.call n).run s = .rejected ⟨.meaning v, t⟩ u := by
  rcases h with h | ⟨u, hu⟩
  · exact h
  · exact absurd hu (Pass.suffices_call n Reel s hn u)

/-- An argument for every type. -/
theorem exists_argument {i : Nat} {a : ValueType} (h : c.types[i]? = some a) :
    ∃ e, (argumentList c.arguments)[i]? = some e := by
  obtain ⟨hi, -⟩ := List.getElem?_eq_some_iff.1 h
  rw [← c.typed.length_eq] at hi
  exact ⟨_, List.getElem?_eq_getElem hi⟩

/-- A type for every argument. -/
theorem exists_type {i : Nat} {e : Expression} (h : (argumentList c.arguments)[i]? = some e) :
    ∃ a, c.types[i]? = some a := by
  obtain ⟨hi, -⟩ := List.getElem?_eq_some_iff.1 h
  rw [c.typed.length_eq] at hi
  exact ⟨_, List.getElem?_eq_getElem hi⟩

section

variable (hn : s.left < n + 1)
include hn

theorem unfit {i : Nat} {p a : ValueType} {e : Expression} (hp : c.function.takes[i]? = some p)
    (ha : c.types[i]? = some a) (he : (argumentList c.arguments)[i]? = some e) (hne : p ≠ a)
    (htake : c.types.take i = c.function.takes.take i) :
    ∃ t, (Pass.call n).run s =
      .rejected ⟨.meaning (.unfitArgument (i + 1) c.function.name p a), e.head⟩ t :=
  rejected_of_refuses hn (c.refuses_argument (.of_take htake) he ha (checkArgument_of_ne hp hne))

theorem tooMany {e : Expression}
    (htake : c.types.take c.function.takes.length = c.function.takes)
    (he : (argumentList c.arguments)[c.function.takes.length]? = some e) :
    ∃ t, (Pass.call n).run s =
      .rejected ⟨.meaning (.tooManyArguments c.function.name), e.head⟩ t := by
  obtain ⟨a, ha⟩ := c.exists_type he
  have hnone : c.function.takes[c.function.takes.length]? = none :=
    List.getElem?_eq_none (Nat.le_refl _)
  have hfits : c.function.Fits 0 (c.types.take c.function.takes.length) :=
    .of_take (htake.trans List.take_length.symm)
  exact rejected_of_refuses hn (c.refuses_argument hfits he ha (checkArgument_of_none hnone a))

theorem tooFew (hclosed : c.behind.kind = .rightParen)
    (hlt : c.types.length < c.function.takes.length)
    (htake : c.types = c.function.takes.take c.types.length) :
    ∃ t, (Pass.call n).run s =
      .rejected ⟨.meaning (.wrongCount c.function.name c.function.takes.length c.types.length),
        c.name.1⟩ t := by
  have hbad : checkCount c.function c.types.length =
      .error (.wrongCount c.function.name c.function.takes.length c.types.length) := by
    rw [Symbol.length_takes] at hlt ⊢
    rw [checkCount, if_neg (Nat.ne_of_lt hlt)]
  exact rejected_of_refuses hn (c.refuses_count hclosed (.of_take htake) hbad)

/-- Lists that differ leave no way for the call to go well. -/
theorem equal_of_done (hclosed : c.behind.kind = .rightParen) {t : Stand Reel}
    (h : (Pass.call n).run s = .done () t) : c.types = c.function.takes := by
  have hne : ∀ r u, (Pass.call n).run s ≠ .rejected r u := by
    intro r u hu
    rw [h] at hu
    cases hu
  rcases compare_lists c.types c.function.takes with
    heq | ⟨i, p, a, hp, ha, hpa, htake⟩ | ⟨hlt, htake⟩ | ⟨hlt, htake⟩
  · exact heq
  · obtain ⟨e, he⟩ := c.exists_argument ha
    obtain ⟨u, hu⟩ := c.unfit hn hp ha he hpa htake
    exact absurd hu (hne _ u)
  · obtain ⟨e, he⟩ := c.exists_argument (List.getElem?_eq_getElem hlt)
    obtain ⟨u, hu⟩ := c.tooMany hn htake he
    exact absurd hu (hne _ u)
  · obtain ⟨u, hu⟩ := c.tooFew hn hclosed hlt htake.symm
    exact absurd hu (hne _ u)

end

/-- The outcome of a call is what a comparison of the two lists of types says.
The first argument that is turned down ends the call, whatever comes behind
it. -/
structure Compared (o : Outcome Reel Unit) : Prop where
  /-- The first place where the lists differ is at fault. -/
  unfit : ∀ (i : Nat) (p a : ValueType) (e : Expression), c.function.takes[i]? = some p →
    c.types[i]? = some a → (argumentList c.arguments)[i]? = some e → p ≠ a →
    c.types.take i = c.function.takes.take i →
    ∃ t, o = .rejected ⟨.meaning (.unfitArgument (i + 1) c.function.name p a), e.head⟩ t
  /-- Where nothing differs, a value that is one too many is. -/
  tooMany : ∀ e : Expression, c.types.take c.function.takes.length = c.function.takes →
    (argumentList c.arguments)[c.function.takes.length]? = some e →
    ∃ t, o = .rejected ⟨.meaning (.tooManyArguments c.function.name), e.head⟩ t
  /-- Where there are too few values, their number is. -/
  tooFew : c.behind.kind = .rightParen → c.types.length < c.function.takes.length →
    c.types = c.function.takes.take c.types.length →
    ∃ t, o = .rejected ⟨.meaning (.wrongCount c.function.name c.function.takes.length
      c.types.length), c.name.1⟩ t
  /-- Equal lists make the call go well. -/
  equal : c.behind.kind = .rightParen → (∃ u us, c.more = u :: us ∧ u.kind.fault? = none) →
    c.types = c.function.takes → ∃ t, o = .done () t ∧ t.Holds c.more ∧ t.scopes = s.scopes
  /-- Nothing else does. -/
  equal_of_done : c.behind.kind = .rightParen → ∀ t, o = .done () t → c.types = c.function.takes

end CallAt

/-! ## The law -/

/-- A call that is reached compares the types of its values with those that
the function takes, and a text that is turned down for the number of values
in a call gives too few. -/
theorem a_call_compares_two_lists :
    (∀ (s : Stand Reel) (c : CallAt s) (n : Nat), s.left ≤ n → c.Compared ((Pass.call n).run s)) ∧
    ∀ (source f : String) (expected found : Nat) (t : Token),
      (analyze source).verdict = .error ⟨.meaning (.wrongCount f expected found), t⟩ →
      found < expected := by
  constructor
  · intro s c n hn
    have hn : s.left < n + 1 := Nat.lt_succ_of_le hn
    exact {
      unfit := fun i p a e hp ha he hne htake => c.unfit hn hp ha he hne htake
      tooMany := fun e htake he => c.tooMany hn htake he
      tooFew := fun hclosed hlt htake => c.tooFew hn hclosed hlt htake
      equal := fun hclosed ⟨u, us, hmore, hu⟩ htypes => c.done_call hclosed hmore hu htypes hn
      equal_of_done := fun hclosed t h => c.equal_of_done hn hclosed h }
  · intro source f expected found t h
    obtain ⟨k, x, u, -, -, ⟨-, hx⟩ | ⟨-, hblames⟩⟩ := exists_settled h
    · exact x.countsFew_meaning hx
    · cases hblames

/-- A whole number is no argument for a parameter of type `double`, and a call
without arguments gives too few. -/
theorem a_number_and_a_count_are_wrong :
    (∃ t, (Pass.call 9).run
        { (Pass.ready (reel "f(1, 2);") #[]).pull with
          scopes := (Scopes.empty.declare?
            ⟨"f", .function .void [⟨"a", .int⟩, ⟨"b", .double⟩]⟩).getD .empty } =
      .rejected ⟨.meaning (.unfitArgument 2 "f" .double .int), ⟨.decimal, "2", 1, ⟨5, 6⟩⟩⟩ t) ∧
    (analyze "void f(int a) {} void main() { f(); }").verdict =
      .error ⟨.meaning (.wrongCount "f" 1 0), ⟨.name, "f", 1, ⟨31, 32⟩⟩⟩ ∧ 0 < 1 := by
  let f : Symbol := ⟨"f", .function .void [⟨"a", .int⟩, ⟨"b", .double⟩]⟩
  let s : Stand Reel := { (Pass.ready (reel "f(1, 2);") #[]).pull with
    scopes := (Scopes.empty.declare? f).getD .empty }
  let name : Token := ⟨.name, "f", 1, ⟨0, 1⟩⟩
  let left : Token := ⟨.leftParen, "(", 1, ⟨1, 2⟩⟩
  let one : Token := ⟨.decimal, "1", 1, ⟨2, 3⟩⟩
  let comma : Token := ⟨.comma, ",", 1, ⟨3, 4⟩⟩
  let two : Token := ⟨.decimal, "2", 1, ⟨5, 6⟩⟩
  let right : Token := ⟨.rightParen, ")", 1, ⟨6, 7⟩⟩
  let stop : Token := ⟨.semicolon, ";", 1, ⟨7, 8⟩⟩
  let value (t : Constant) : Expression :=
    .lift (.lift (.lift (.lift (.lift (.lift (.lift (.lift (.plain (.constant t)))))))))
  have htokens : tokenize "f(1, 2);" =
      [name, left, one, comma, two, right, stop, .finish 1 8] := by
    decide +kernel
  have hs : s.Holds [name, left, one, comma, two, right, stop, .finish 1 8] := by
    rw [← htokens, ← tokens_reel]
    exact (Stand.holds_pull (Pass.ready (reel "f(1, 2);") #[])).of_eq rfl rfl
  have hleft := hs.left
  let c : CallAt s :=
    { name := ⟨name, rfl⟩
      left := ⟨left, rfl⟩
      arguments := some ⟨value ⟨one, rfl⟩, [(⟨comma, rfl⟩, value ⟨two, rfl⟩)]⟩
      behind := right
      more := [stop, .finish 1 8]
      function := f
      types := [.int, .int]
      holds := hs
      valid := rfl
      ends := by nofun
      known := by decide +kernel
      isFunction := rfl
      typed := .cons rfl (.cons rfl .nil) }
  have hverdict : (analyze "void f(int a) {} void main() { f(); }").verdict =
      .error ⟨.meaning (.wrongCount "f" 1 0), ⟨.name, "f", 1, ⟨31, 32⟩⟩⟩ := by
    decide +kernel
  refine ⟨?_, hverdict, a_call_compares_two_lists.2 _ _ _ _ _ hverdict⟩
  exact (a_call_compares_two_lists.1 s c 9 (by simp at hleft; omega)).unfit 1 .double .int
    (value ⟨two, rfl⟩) rfl rfl rfl nofun rfl

end OnePass
