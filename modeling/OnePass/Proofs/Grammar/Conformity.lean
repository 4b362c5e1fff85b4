-- A pass on a finished list conforms to a check when it takes just the
-- tokens it should and finds what the check finds. Passes that conform can
-- be put one after another, as the checks are.
import OnePass.Proofs.Grammar.Check
import OnePass.Proofs.Reels
import OnePass.Pass.Program
import OnePass.Pass.Progress

namespace OnePass

variable {α β : Type}

/-! ## What is left of a list -/

namespace Stand

/-- The tokens from the one in hand on are `ts`. The finish stays in hand
and in the list. -/
def Holds (s : Stand Reel) (ts : List Token) : Prop :=
  if s.hand.kind = .finish then ts = [s.hand] ∧ s.feed.tokens = ts
  else ts = s.hand :: s.feed.tokens

variable {s : Stand Reel} {t u : Token} {ts : List Token}

theorem Holds.hand (h : s.Holds (t :: ts)) : s.hand = t := by
  unfold Holds at h
  split at h
  · exact (List.cons.inj h.1).1.symm
  · exact (List.cons.inj h).1.symm

theorem Holds.ne_nil (h : s.Holds ts) : ts ≠ [] := by
  rintro rfl
  unfold Holds at h
  split at h
  · exact absurd h.1 (by simp)
  · exact absurd h (by simp)

theorem Holds.of_eq {s' : Stand Reel} (h : s.Holds ts) (hf : s'.feed = s.feed)
    (hh : s'.hand = s.hand) : s'.Holds ts := by
  unfold Holds at h ⊢
  rw [hf, hh]
  exact h

/-- The next token comes into hand with all that follow it. -/
theorem holds_pull (s : Stand Reel) : s.pull.Holds s.feed.tokens := by
  unfold Holds
  rw [hand_pull, feed_pull]
  show if s.feed.next.1.kind = .finish then
      s.feed.tokens = [s.feed.next.1] ∧ s.feed.next.2.tokens = s.feed.tokens
    else s.feed.tokens = s.feed.next.1 :: s.feed.next.2.tokens
  rw [s.feed.tokens_eq]
  split
  · rename_i h
    rw [Reel.next_next_of_finish h, s.feed.tokens_eq, if_pos h]
    exact ⟨rfl, rfl⟩
  · rfl

theorem Holds.tokens (h : s.Holds (t :: ts)) (ht : t.kind ≠ .finish) : s.feed.tokens = ts := by
  have hh := h.hand
  unfold Holds at h
  rw [hh, if_neg ht] at h
  exact (List.cons.inj h).2.symm

/-- What is left when the first token was put away. -/
theorem Holds.pull (h : s.Holds (t :: ts)) (ht : t.kind ≠ .finish) : s.pull.Holds ts := by
  have hp := s.holds_pull
  rwa [h.tokens ht] at hp

theorem Holds.pull_finish (h : s.Holds [t]) (ht : t.kind = .finish) : s.pull.Holds [t] := by
  have hh := h.hand
  have hp := s.holds_pull
  unfold Holds at h
  rw [hh, if_pos ht] at h
  rwa [h.2] at hp

theorem Holds.eq_cons (h : s.Holds ts) : ∃ us, ts = s.hand :: us := by
  obtain ⟨t, us, rfl⟩ := List.exists_cons_of_ne_nil h.ne_nil
  exact ⟨us, by rw [h.hand]⟩

theorem Holds.eq_singleton (h : s.Holds ts) (hf : s.hand.kind = .finish) : ts = [s.hand] := by
  unfold Holds at h
  rw [if_pos hf] at h
  exact h.1

/-- The finish is not counted as a token that is left. -/
theorem Holds.left (h : s.Holds ts) : s.left + 1 = ts.length := by
  unfold Holds at h
  unfold Stand.left
  by_cases hf : s.hand.kind = .finish
  · rw [if_pos hf] at h
    have hl : s.feed.tokens.length = s.feed.ahead.length + 1 := List.length_append
    rw [h.2, h.1] at hl
    rw [if_pos hf, h.1]
    exact hl.symm
  · rw [if_neg hf] at h
    have hl : s.feed.tokens.length = s.feed.ahead.length + 1 := List.length_append
    rw [if_neg hf, h, List.length_cons, hl]
    rfl

/-- The kind that a look ahead tells is that of the second token. -/
theorem Holds.kind_next (h : s.Holds (t :: u :: ts)) : (Feed.next s.feed).1.kind = u.kind := by
  have ht : t.kind ≠ .finish := by
    intro ht
    have hh := h.hand
    unfold Holds at h
    rw [hh, if_pos ht] at h
    exact absurd h.1 (by simp)
  rw [← hand_pull, (h.pull ht).hand]

end Stand

open Grammar

/-! ## Steps that take nothing -/

/-- The pass leaves the tokens alone and comes to what the check says. -/
def Still (p : Pass α) (c : Check α) : Prop :=
  ∀ s : Stand Reel,
    match p.run s with
    | .done a t => t.feed = s.feed ∧ t.hand = s.hand ∧ c.run s.scopes = .ok (a, t.scopes)
    | .rejected r t => t.feed = s.feed ∧ t.hand = s.hand ∧
      ∃ w u, r = ⟨.meaning w, u⟩ ∧ c.run s.scopes = .error (w, u)
    | .exhausted _ => False

namespace Still

theorem pure (a : α) : Still (Pure.pure a) (Pure.pure a) := fun _ => ⟨rfl, rfl, rfl⟩

theorem refuse (v : Violation) (t : Token) :
    Still (Pass.refuse v t : Pass α) (Check.refuse v t) :=
  fun _ => ⟨rfl, rfl, v, t, rfl, rfl⟩

theorem demand (c : Except Violation α) (t : Token) :
    Still (Pass.demand c t) (Check.demand c t) := by
  cases c with
  | ok a => exact pure a
  | error v => exact refuse v t

theorem lookup (name : String) : Still (Pass.lookup name) (Check.lookup name) :=
  fun _ => ⟨rfl, rfl, rfl⟩

theorem headed (name : String) (n : Nat) : Still (Pass.headed name n) (Pure.pure ()) :=
  fun _ => ⟨rfl, rfl, rfl⟩

theorem enter : Still Pass.enter Check.enter := fun _ => ⟨rfl, rfl, rfl⟩

theorem leave : Still Pass.leave Check.leave := by
  intro s
  have hc : Check.leave.run s.scopes = .ok ((), s.scopes.leave?.getD s.scopes) := rfl
  rw [Pass.run_leave]
  unfold Stand.leave
  cases h : s.scopes.leave? with
  | none =>
    rw [h] at hc
    exact ⟨rfl, rfl, hc⟩
  | some scopes =>
    rw [h] at hc
    exact ⟨rfl, rfl, hc⟩

theorem declare (x : Symbol) (t : Token) : Still (Pass.declare x t) (Check.declare x t) := by
  intro s
  rw [Pass.run_declare]
  unfold Stand.declare
  cases h : s.scopes.declare? x with
  | none =>
    have hc : (Check.declare x t).run s.scopes = .error (.redeclared x, t) := by
      simp only [Check.declare, StateT.run_bind, StateT.run_get, pure_bind, h]
      rfl
    exact ⟨rfl, rfl, _, _, rfl, hc⟩
  | some scopes =>
    have hc : (Check.declare x t).run s.scopes = .ok ((), scopes) := by
      simp only [Check.declare, StateT.run_bind, StateT.run_get, pure_bind, h]
      rfl
    exact ⟨rfl, rfl, hc⟩

theorem bind {p : Pass α} {q : α → Pass β} {c : Check α} {d : α → Check β} (hp : Still p c)
    (hq : ∀ a, Still (q a) (d a)) : Still (p >>= q) (c >>= d) := by
  intro s
  have ho := hp s
  rw [Pass.run_bind, StateT.run_bind]
  generalize p.run s = o at ho ⊢
  cases o with
  | done a t =>
    obtain ⟨hf, hh, hc⟩ := ho
    have ho' := hq a t
    rw [hf, hh] at ho'
    rw [hc]
    exact ho'
  | rejected r t =>
    obtain ⟨hf, hh, w, u, hr, hc⟩ := ho
    rw [hc]
    exact ⟨hf, hh, w, u, hr, rfl⟩
  | exhausted t => exact ho

end Still

/-- Parameters are declared one after another. -/
theorem still_declareParameters (k : Nat) (ps : List (Parameter × Token)) :
    Still (Parse.declareParameters k ps)
      (forM ps fun p => Check.declare ⟨p.1.name, .parameter p.1.type⟩ p.2) := by
  induction ps generalizing k with
  | nil => exact .pure ()
  | cons p ps ih =>
    rw [List.forM_cons]
    exact (Still.declare _ _).bind fun _ => ih (k + 1)

/-! ## Conformity -/

/-- The first of the tokens has a fault, and the rejection is for that. -/
def Stumbles (ts : List Token) (r : Rejection) : Prop :=
  ∃ t us f, ts = t :: us ∧ t.kind.fault? = some f ∧ r = ⟨.spelling f, t⟩

theorem not_stumbles {t : Token} (h : t.kind.fault? = none) (ts : List Token) (r : Rejection) :
    ¬Stumbles (t :: ts) r := by
  rintro ⟨u, us, f, heq, hf, -⟩
  rw [← (List.cons.inj heq).1, h] at hf
  cases hf

/-- Where valid tokens come first, the fault is behind them. -/
theorem Stumbles.of_append {ts more : List Token} {r : Rejection} (h : Stumbles (ts ++ more) r)
    (hts : ∀ t ∈ ts, t.kind.fault? = none) : Stumbles more r := by
  cases ts with
  | nil => exact h
  | cons t ts => exact absurd h (not_stumbles (hts t List.mem_cons_self) _ r)

/-- The outcome is what a check says, and `more` is what it leaves, with a
valid token first; or else the first token of `more` is turned down for a
fault. Nothing is said when the budget ran out. -/
def Outcome.Meets (o : Outcome Reel α) (v : Except (Violation × Token) (α × Scopes))
    (more : List Token) : Prop :=
  match o with
  | .done a s => v = .ok (a, s.scopes) ∧ s.Holds more ∧ s.hand.kind.fault? = none
  | .rejected r _ => (∃ w t, v = .error (w, t) ∧ r = ⟨.meaning w, t⟩) ∨ Stumbles more r
  | .exhausted _ => True

/-- With the tokens `ts` before it, all of them valid, and `more` after them,
the pass takes `ts` and comes to what the check says. Of `more` it sees the
first token only. -/
def Conforms (p : Pass α) (ts more : List Token) (c : Check α) : Prop :=
  ∀ s : Stand Reel, s.Holds (ts ++ more) → s.hand.kind.fault? = none →
    (∀ t ∈ ts, t.kind.fault? = none) → (p.run s).Meets (c.run s.scopes) more

namespace Conforms

theorem bind {p : Pass α} {f : α → Pass β} {c : Check α} {d : α → Check β}
    {l m more : List Token} (hp : Conforms p l (m ++ more) c)
    (hf : ∀ a, Conforms (f a) m more (d a)) :
    Conforms (p >>= f) (l ++ m) more (c >>= d) := by
  intro s hs hh hv
  rw [List.append_assoc] at hs
  have hvm : ∀ t ∈ m, t.kind.fault? = none := fun t ht => hv t (List.mem_append_right l ht)
  have ho := hp s hs hh fun t ht => hv t (List.mem_append_left m ht)
  rw [Pass.run_bind, StateT.run_bind]
  generalize p.run s = o at ho ⊢
  cases o with
  | done a t =>
    obtain ⟨hc, ht, hht⟩ := ho
    rw [hc]
    exact hf a t ht hht hvm
  | rejected r t =>
    rcases ho with ⟨w, u, hc, hr⟩ | hr
    · rw [hc]
      exact Or.inl ⟨w, u, rfl, hr⟩
    · exact Or.inr (hr.of_append hvm)
  | exhausted t => trivial

/-- A first step that takes nothing. -/
theorem bind_nil {p : Pass α} {f : α → Pass β} {c : Check α} {d : α → Check β}
    {us more : List Token} (hp : Conforms p [] (us ++ more) c)
    (hf : ∀ a, Conforms (f a) us more (d a)) : Conforms (p >>= f) us more (c >>= d) :=
  hp.bind hf

/-- A last step that takes nothing. -/
theorem bind_last {p : Pass α} {f : α → Pass β} {c : Check α} {d : α → Check β}
    {ts more : List Token} (hp : Conforms p ts more c)
    (hf : ∀ a, Conforms (f a) [] more (d a)) : Conforms (p >>= f) ts more (c >>= d) := by
  have h := Conforms.bind (m := []) hp hf
  rwa [List.append_nil] at h

/-- A first step of which the check knows nothing. -/
theorem bind_pure {p : Pass α} {f : α → Pass β} {a : α} {d : Check β} {l m more : List Token}
    (hp : Conforms p l (m ++ more) (pure a)) (hf : Conforms (f a) m more d) :
    Conforms (p >>= f) (l ++ m) more d := by
  intro s hs hh hv
  rw [List.append_assoc] at hs
  have hvm : ∀ t ∈ m, t.kind.fault? = none := fun t ht => hv t (List.mem_append_right l ht)
  have ho := hp s hs hh fun t ht => hv t (List.mem_append_left m ht)
  rw [Pass.run_bind]
  generalize p.run s = o at ho ⊢
  cases o with
  | done b t =>
    obtain ⟨hc, ht, hht⟩ := ho
    obtain ⟨rfl, hscopes⟩ := Prod.mk.inj (Except.ok.inj hc)
    rw [hscopes]
    exact hf t ht hht hvm
  | rejected r t =>
    rcases ho with ⟨w, u, hc, -⟩ | hr
    · cases hc
    · exact Or.inr (hr.of_append hvm)
  | exhausted t => trivial

/-- What is in hand is the first of the tokens, so it is valid too. -/
theorem meets {p : Pass α} {c : Check α} {t : Token} {ts more : List Token}
    (h : Conforms p (t :: ts) more c) {s : Stand Reel} (hs : s.Holds (t :: (ts ++ more)))
    (hv : ∀ u ∈ t :: ts, u.kind.fault? = none) : (p.run s).Meets (c.run s.scopes) more :=
  h s hs (by rw [hs.hand]; exact hv t List.mem_cons_self) hv

/-! ## Steps -/

variable {more : List Token}

theorem exhausted (ts : List Token) (c : Check α) : Conforms Pass.exhausted ts more c :=
  fun _ _ _ _ => trivial

theorem still {p : Pass α} {c : Check α} (h : Still p c) : Conforms p [] more c := by
  intro s hs hh _
  have ho := h s
  generalize p.run s = o at ho ⊢
  cases o with
  | done a t => exact ⟨ho.2.2, hs.of_eq ho.1 ho.2.1, by rw [ho.2.1, hh]⟩
  | rejected r t =>
    obtain ⟨-, -, w, u, hr, hc⟩ := ho
    exact Or.inl ⟨w, u, hc, hr⟩
  | exhausted t => exact absurd ho id

theorem pure (a : α) : Conforms (Pure.pure a) [] more (Pure.pure a) := still (.pure a)

/-- The token in hand is the first one to come. -/
theorem hand_bind {f : Token → Pass α} {t : Token} {l m : List Token} {c : Check α}
    (ht : l ++ more = t :: m) (hf : Conforms (f t) l more c) :
    Conforms (Pass.hand >>= f) l more c := by
  intro s hs hh hv
  have hhand : s.hand = t := by
    rw [ht] at hs
    exact hs.hand
  rw [Pass.run_bind, Pass.run_hand, Outcome.andThen_done, hhand]
  exact hf s hs hh hv

theorem hand (t : Token) (m : List Token) : Conforms Pass.hand [] (t :: m) (Pure.pure t) :=
  hand_bind (l := []) rfl (pure t)

/-- A look ahead tells the kind of the second one. -/
theorem peek_bind {f : Kind → Pass α} {t u : Token} {l m : List Token} {c : Check α}
    (ht : l ++ more = t :: u :: m) (hf : Conforms (f u.kind) l more c) :
    Conforms (Pass.peek >>= f) l more c := by
  intro s hs hh hv
  have hk : (Feed.next s.feed).1.kind = u.kind := by
    rw [ht] at hs
    exact hs.kind_next
  rw [Pass.run_bind, Pass.run_peek]
  unfold Stand.peek
  simp only [Feed.peek_eq, Outcome.andThen_done]
  rw [hk]
  let s' : Stand Reel := s.noteRead (Feed.next s.feed).1
  have hscopes : s'.scopes = s.scopes := s.scopes_noteRead _
  have hhand : s'.hand = s.hand := s.hand_noteRead _
  have ho := hf s' (hs.of_eq (s.feed_noteRead _) hhand) (by rw [hhand, hh]) hv
  rw [hscopes] at ho
  exact ho

theorem refuse (v : Violation) (t : Token) (ts : List Token) :
    Conforms (Pass.refuse v t : Pass α) ts more (Check.refuse v t) :=
  fun _ _ _ _ => Or.inl ⟨v, t, rfl, rfl⟩

theorem demand (c : Except Violation α) (t : Token) :
    Conforms (Pass.demand c t) [] more (Check.demand c t) := still (.demand c t)

theorem advance {t : Token} (ht : t.kind ≠ .finish) :
    Conforms Pass.advance [t] more (Pure.pure t) := by
  intro s hs _ _
  have hpull : s.pull.Holds more := hs.pull ht
  rw [Pass.run_advance, Stand.advance, Stand.settle]
  cases hf : s.pull.hand.kind.fault? with
  | none =>
    refine ⟨?_, hpull, hf⟩
    rw [hs.hand, Stand.scopes_pull]
    rfl
  | some f =>
    obtain ⟨us, hus⟩ := hpull.eq_cons
    exact Or.inr ⟨s.pull.hand, us, f, hus, hf, rfl⟩

theorem expect {k : Kind} (e : Expectation) (t : Of k) (hk : k ≠ .finish) :
    Conforms (Pass.expect k e) [t.1] more (Pure.pure t.1) := by
  apply hand_bind (List.singleton_append)
  rw [if_pos t.2]
  apply advance
  rw [t.2]
  exact hk

theorem expectName (e : Expectation) (t : Name) :
    Conforms (Pass.expectName e) [t.1] more (Pure.pure t.1) := by
  apply hand_bind (List.singleton_append)
  rw [if_pos t.2]
  exact advance (Kind.ne_finish_of_isName t.2)

theorem accept {k : Kind} (t : Of k) (hk : k ≠ .finish) :
    Conforms (Pass.accept k) [t.1] more (Pure.pure true) := by
  apply hand_bind (List.singleton_append)
  rw [if_pos t.2]
  apply bind_pure (m := []) (advance _) (pure true)
  rw [t.2]
  exact hk

theorem accept_other {k : Kind} {t : Token} {us : List Token} (hm : more = t :: us)
    (ht : t.kind ≠ k) : Conforms (Pass.accept k) [] more (Pure.pure false) := by
  apply hand_bind (l := []) hm
  rw [if_neg ht]
  exact pure false

theorem lookup (name : String) :
    Conforms (Pass.lookup name) [] more (Check.lookup name) := still (.lookup name)

theorem enter : Conforms Pass.enter [] more Check.enter := still .enter

theorem leave : Conforms Pass.leave [] more Check.leave := still .leave

theorem declare (x : Symbol) (t : Token) :
    Conforms (Pass.declare x t) [] more (Check.declare x t) := still (.declare x t)

end Conforms

end OnePass
