-- The steps of a pass, and its repetitions, side by side with themselves.
import OnePass.Proofs.Lockstep.Basic

namespace OnePass

variable {φ ψ : Type} [Feed φ] [Feed ψ] {α β γ δ : Type} {T : Tie φ ψ}

/-! ## Stands -/

namespace Tie.Abreast

variable {s : Stand φ} {t : Stand ψ}

theorem withScopes {scopes scopes' : Scopes} (h : T.Abreast s t)
    (hs : scopes' = scopes.rename T.word) :
    T.Abreast { s with scopes := scopes } { t with scopes := scopes' } :=
  ⟨h.feed, h.hand, hs, h.journal⟩

theorem enter (h : T.Abreast s t) : T.Abreast s.enter t.enter := by
  have hs : t.scopes.enter = s.scopes.enter.rename T.word := by
    rw [h.scopes, Scopes.enter_rename]
  unfold Stand.enter
  apply (h.withScopes hs).note
  rw [hs, Scopes.depth_rename]
  exact .entered _ _

theorem leave (h : T.Abreast s t) : T.Abreast s.leave t.leave := by
  unfold Stand.leave
  have hl : t.scopes.leave? = s.scopes.leave?.map (·.rename T.word) := by
    rw [h.scopes, Scopes.leave?_rename]
  have hc : t.scopes.current = s.scopes.current := by
    rw [h.scopes]
    rfl
  rw [hl, hc]
  cases s.scopes.leave? with
  | none => exact h
  | some scopes => exact (h.withScopes rfl).note (.left _)

theorem declare (h : T.Abreast s t) (x : Symbol) :
    T.Agree Eq (s.declare x) (t.declare (x.rename T.word)) := by
  unfold Stand.declare
  have hd : t.scopes.declare? (x.rename T.word) =
      (s.scopes.declare? x).map (·.rename T.word) := by
    rw [h.scopes, Scopes.declare?_rename _ T.word_injective]
  have hc : t.scopes.current = s.scopes.current := by
    rw [h.scopes]
    rfl
  rw [hd, hc]
  cases s.scopes.declare? x with
  | none => exact .done rfl h
  | some scopes => exact .done rfl ((h.withScopes rfl).note (.declared x _))

end Tie.Abreast

/-! ## Steps -/

namespace Lockstep

open Pass

theorem done {A : α → β → Prop} {a : α} {b : β} (h : A a b) :
    Lockstep T A (Pass.done a) (Pass.done b) := by
  intro s t hs
  exact .done h hs

theorem pure {A : α → β → Prop} {a : α} {b : β} (h : A a b) :
    Lockstep T A (Pure.pure a : Pass α) (Pure.pure b : Pass β) := done h

theorem firstShort (A : α → β → Prop) (q : Pass β) : Lockstep T A exhausted q := by
  intro s t hs
  exact .firstShort s _

theorem secondShort (A : α → β → Prop) (p : Pass α) : Lockstep T A p exhausted := by
  intro s t hs
  exact .secondShort _ t

theorem refuse (A : α → β → Prop) (v : Violation) {u w : Token} (h : T.same u w) :
    Lockstep T A (Pass.refuse v u) (Pass.refuse (v.rename T.word) w) := by
  intro s t hs
  exact .rejected (.meaning v) h hs

theorem hand : Lockstep T T.same Pass.hand Pass.hand := by
  intro s t hs
  exact .done hs.hand hs

theorem unexpected (A : α → β → Prop) (e : Expectation) :
    Lockstep T A (Pass.unexpected e) (Pass.unexpected e) := by
  intro s t hs
  rw [run_unexpected, run_unexpected]
  exact .rejected (.grammar e) hs.hand hs

theorem advance : Lockstep T T.same Pass.advance Pass.advance := by
  intro s t hs
  rw [run_advance, run_advance]
  apply (Tie.agree_advance hs.feed hs.scopes hs.journal).andThen
  · intro _ u
    exact Nat.le_refl _
  · intro _ _ u v _ huv
    exact .done hs.hand huv

theorem enter : Lockstep T Eq Pass.enter Pass.enter := by
  intro s t hs
  exact .done rfl hs.enter

theorem leave : Lockstep T Eq Pass.leave Pass.leave := by
  intro s t hs
  exact .done rfl hs.leave

theorem headed (name : String) (n : Nat) :
    Lockstep T Eq (Pass.headed name n) (Pass.headed (T.word name) n) := by
  intro s t hs
  exact .done rfl (hs.note (.headed name n))

theorem lookup (name : String) :
    Lockstep T (fun x y => y = x.map (·.rename T.word)) (Pass.lookup name)
      (Pass.lookup (T.word name)) := by
  intro s t hs
  rw [run_lookup, run_lookup, hs.scopes, Scopes.lookup_rename _ T.word_injective]
  exact .done rfl hs

theorem declare (x : Symbol) {u w : Token} (h : T.same u w) :
    Lockstep T Eq (Pass.declare x u) (Pass.declare (x.rename T.word) w) := by
  intro s t hs
  rw [run_declare, run_declare]
  apply (hs.declare x).andThen
  · intro free v
    cases free <;> exact Nat.le_refl _
  · rintro free _ v v' rfl hv
    cases free with
    | true => exact .done rfl hv
    | false => exact .rejected (.meaning (.redeclared x)) h hv

theorem demand {c : Except Violation α} {d : Except Violation α} {u w : Token} (h : T.same u w)
    (hd : d = c.mapError (·.rename T.word)) :
    Lockstep T Eq (Pass.demand c u) (Pass.demand d w) := by
  subst hd
  cases c with
  | ok a => exact done rfl
  | error v => exact refuse Eq v h

/-- The token that was expected is the one in hand, so its kind is known. -/
theorem expect (k : Kind) (e : Expectation) :
    Lockstep T (fun u w => T.same u w ∧ u.kind = k) (Pass.expect k e) (Pass.expect k e) := by
  intro s t hs
  rw [run_expect, run_expect, T.kind_eq hs.hand, run_advance, run_advance]
  by_cases hk : s.hand.kind = k
  · rw [if_pos hk, if_pos hk]
    apply (Tie.agree_advance hs.feed hs.scopes hs.journal).andThen
    · intro _ u
      exact Nat.le_refl _
    · intro _ _ u v _ huv
      exact .done ⟨hs.hand, hk⟩ huv
  · rw [if_neg hk, if_neg hk]
    exact .rejected (.grammar e) hs.hand hs

theorem expectName (e : Expectation) :
    Lockstep T (fun u w => T.same u w ∧ u.kind.isName = true) (Pass.expectName e)
      (Pass.expectName e) := by
  intro s t hs
  rw [run_expectName, run_expectName, T.kind_eq hs.hand, run_advance, run_advance]
  by_cases hk : s.hand.kind.isName = true
  · rw [if_pos hk, if_pos hk]
    apply (Tie.agree_advance hs.feed hs.scopes hs.journal).andThen
    · intro _ u
      exact Nat.le_refl _
    · intro _ _ u v _ huv
      exact .done ⟨hs.hand, hk⟩ huv
  · rw [if_neg hk, if_neg hk]
    exact .rejected (.grammar e) hs.hand hs

theorem accept (k : Kind) : Lockstep T Eq (Pass.accept k) (Pass.accept k) := by
  apply hand.bind
  intro u w huw
  rw [T.kind_eq huw]
  by_cases hk : u.kind = k
  · rw [if_pos hk]
    apply advance.bind
    intro _ _ _
    exact pure rfl
  · rw [if_neg hk]
    exact pure rfl

/-- The token behind a name that is in hand may lie beyond the tie. Then the
answers of a look ahead may differ, and the passes keep in step only if
both put the name away next. -/
theorem peek {A : α → β → Prop} {f : Kind → Pass α} {g : Kind → Pass β} {s : Stand φ}
    {t : Stand ψ} (hs : T.Abreast s t)
    (hf : ∀ (k : Kind) (u : Stand φ), u.hand = s.hand → ((f k).run u).stand.left ≤ u.pull.left)
    (hfg : ∀ k, Lockstep T A (f k) (g k)) :
    T.Agree A ((Pass.peek >>= f).run s) ((Pass.peek >>= g).run t) := by
  rw [run_bind, run_bind, run_peek, run_peek]
  unfold Stand.peek
  simp only [Feed.peek_eq, Outcome.andThen_done]
  rcases T.next hs.feed with hb | ⟨hsame, -⟩
  · refine .beyond ?_
    let u := s.noteRead (Feed.next s.feed).1
    have hu : u.feed = s.feed ∧ u.hand = s.hand := by
      show (s.noteRead _).feed = _ ∧ (s.noteRead _).hand = _
      unfold Stand.noteRead
      split <;> exact ⟨rfl, rfl⟩
    have hl := hf (Feed.next s.feed).1.kind u hu.2
    rw [Stand.left_pull_eq, hu.1] at hl
    exact Nat.lt_of_le_of_lt hl hb
  · rw [T.kind_eq hsame]
    exact hfg _ _ _ (hs.noteRead hsame)

/-! ## Repetitions -/

theorem repeatWhile (l : Repetition) (opens : Kind → Bool) {p q : Pass Unit}
    (h : Lockstep T Eq p q) :
    ∀ n m k, Lockstep T Eq (Parse.repeatWhile l opens p k n) (Parse.repeatWhile l opens q k m)
  | 0, _, _ => firstShort _ _
  | _ + 1, 0, _ => secondShort _ _
  | n + 1, m + 1, k => by
    apply hand.bind
    intro u w huw
    rw [T.kind_eq huw]
    by_cases hk : opens u.kind = true
    · rw [if_pos hk, if_pos hk]
      apply h.bind
      intro _ _ _
      exact repeatWhile l opens h n m (k + 1)
    · rw [if_neg hk, if_neg hk]
      exact pure rfl

theorem separated (l : Repetition) {A : α → β → Prop} {p : Nat → Pass α} {q : Nat → Pass β}
    (h : ∀ i, Lockstep T A (p i) (q i)) :
    ∀ n m i, Lockstep T (List.Forall₂ A) (Parse.separated l p i n) (Parse.separated l q i m)
  | 0, _, _ => firstShort _ _
  | _ + 1, 0, _ => secondShort _ _
  | n + 1, m + 1, i => by
    rw [Pass.separated_succ, Pass.separated_succ]
    apply (h i).bind
    intro a b hab
    apply (accept .comma).bind
    rintro more _ rfl
    cases more with
    | true =>
      apply (separated l h n m (i + 1)).bind
      intro as bs has
      exact pure (List.Forall₂.cons hab has)
    | false => exact pure (List.Forall₂.cons hab List.Forall₂.nil)

end Lockstep

end OnePass
