-- What a pass takes off a finished list is spelled by a tree, and it finds
-- what the check of that tree finds. When it stops early, what it took so
-- far starts the spelling of a tree, and either the check of that tree stops
-- in the same way, or the token in hand is at fault.
import OnePass.Proofs.Grammar.Conformity

namespace OnePass

open Grammar

variable {α β γ δ : Type}

/-! ## Outcomes -/

/-- A token is turned down: for its spelling if that is at fault, and else
because it cannot stand where it does. -/
inductive Blames (t : Token) : Rejection → Prop
  | spelling {f : Fault} (h : t.kind.fault? = some f) : Blames t ⟨.spelling f, t⟩
  | grammar {e : Expectation} (h : t.kind.fault? = none) : Blames t ⟨.grammar e, t⟩

/-- The token in hand is blamed, or else it is a valid one and the check ends
with the same violation. -/
def Stand.Explains (s : Stand Reel) (v : Except (Violation × Token) α) (r : Rejection) : Prop :=
  (s.hand.kind.fault? = none ∧ ∃ w u, v = .error (w, u) ∧ r = ⟨.meaning w, u⟩) ∨ Blames s.hand r

/-- What a check does next plays no part once it has ended. -/
theorem Stand.Explains.bind {s : Stand Reel} {c : Check α} {d : α → Check β} {scopes : Scopes}
    {r : Rejection} (h : s.Explains (c.run scopes) r) : s.Explains ((c >>= d).run scopes) r := by
  rcases h with ⟨hv, w, u, hc, hr⟩ | h
  · exact Or.inl ⟨hv, w, u, Check.run_bind_of_error hc, hr⟩
  · exact Or.inr h

/-- The outcome of a pass for which `us` was to come, with these scopes. If
it is done, it has taken what one of the trees spells, and the token in hand
is a valid one. If it stops early, it has taken the beginning of what one
spells. -/
def Outcome.Spells (o : Outcome Reel α) (us : List Token) (scopes : Scopes)
    (spell : β → List Token) (check : β → Check α) : Prop :=
  match o with
  | .done a s => ∃ x more, us = spell x ++ more ∧ s.Holds more ∧ s.hand.kind.fault? = none ∧
    (check x).run scopes = .ok (a, s.scopes)
  | .rejected r s => ∃ x ts ws more, spell x = ts ++ ws ∧ us = ts ++ more ∧ s.Holds more ∧
    s.Explains ((check x).run scopes) r
  | .exhausted _ => True

/-- With the token `t` in hand, a valid one, the pass takes what trees spell
and finds what their checks find. -/
def Yields (t : Token) (p : Pass α) (spell : β → List Token) (check : β → Check α) : Prop :=
  ∀ (s : Stand Reel) (us : List Token), s.hand = t → t.kind.fault? = none → s.Holds us →
    (p.run s).Spells us s.scopes spell check

namespace Yields

variable {t : Token} {p : Pass α} {q : α → Pass δ} {f : β → List Token} {g : γ → List Token}
  {c : β → Check α} {d : γ → Check α}

/-- Other trees can spell and mean the same. -/
theorem mono (h : Yields t p f c) (hfg : ∀ x, ∃ y, g y = f x ∧ d y = c x) : Yields t p g d := by
  intro s us ht hv hs
  have ho := h s us ht hv hs
  generalize p.run s = o at ho ⊢
  cases o with
  | done a s' =>
    obtain ⟨x, more, hx, hm, hv', hc⟩ := ho
    obtain ⟨y, hy, hd⟩ := hfg x
    exact ⟨y, more, by rw [hy, hx], hm, hv', by rw [hd, hc]⟩
  | rejected r s' =>
    obtain ⟨x, ts, ws, more, hx, hus, hm, hr⟩ := ho
    obtain ⟨y, hy, hd⟩ := hfg x
    exact ⟨y, ts, ws, more, by rw [hy, hx], hus, hm, by rw [hd]; exact hr⟩
  | exhausted s' => trivial

/-- What is taken by two passes in a row is spelled by two trees. If the
first one stops early, any second tree completes what it took. -/
theorem bind [Nonempty γ] {d : α → γ → Check δ} (hp : Yields t p f c)
    (hq : ∀ a u, Yields u (q a) g (d a)) :
    Yields t (p >>= q) (fun x : β × γ => f x.1 ++ g x.2) fun x => c x.1 >>= fun a => d a x.2 := by
  intro s us ht hv hs
  have ho := hp s us ht hv hs
  rw [Pass.run_bind]
  generalize p.run s = o at ho ⊢
  cases o with
  | done a s' =>
    obtain ⟨x, more, hx, hm, hv', hc⟩ := ho
    have ho' := hq a s'.hand s' more rfl hv' hm
    rw [Outcome.andThen_done]
    generalize (q a).run s' = o' at ho' ⊢
    cases o' with
    | done b s'' =>
      obtain ⟨y, more', hy, hm', hv'', hd⟩ := ho'
      refine ⟨(x, y), more', ?_, hm', hv'', ?_⟩
      · rw [hx, hy, List.append_assoc]
      · rw [Check.run_bind_of_ok hc, hd]
    | rejected r s'' =>
      obtain ⟨y, ts, ws, more', hy, hmore, hm', hr⟩ := ho'
      refine ⟨(x, y), f x ++ ts, ws, more', ?_, ?_, hm', ?_⟩
      · show f x ++ g y = _
        rw [hy, List.append_assoc]
      · rw [hx, hmore, List.append_assoc]
      · rw [Check.run_bind_of_ok hc]
        exact hr
    | exhausted s'' => trivial
  | rejected r s' =>
    obtain ⟨x, ts, ws, more, hx, hus, hm, hr⟩ := ho
    obtain ⟨y⟩ := ‹Nonempty γ›
    refine ⟨(x, y), ts, ws ++ g y, more, ?_, hus, hm, hr.bind⟩
    show f x ++ g y = _
    rw [hx, List.append_assoc]
  | exhausted s' => trivial

/-! ## Steps -/

theorem exhausted : Yields t (Pass.exhausted : Pass α) f c := fun _ _ _ _ _ => trivial

/-- Any tree completes what was taken, if that is nothing. -/
theorem rejected [h : Nonempty β] {r : Rejection} {s : Stand Reel} {us : List Token}
    {scopes : Scopes} (hr : ∀ x, s.Explains ((c x).run scopes) r) (hs : s.Holds us) :
    (Outcome.rejected r s : Outcome Reel α).Spells us scopes f c := by
  obtain ⟨x⟩ := h
  exact ⟨x, [], f x, us, rfl, rfl, hs, hr x⟩

theorem refuse [Nonempty β] (v : Violation) (u : Token) :
    Yields t (Pass.refuse v u : Pass α) f fun _ => Check.refuse v u := by
  intro s us ht hv hs
  rw [← ht] at hv
  exact rejected (fun _ => Or.inl ⟨hv, v, u, rfl, rfl⟩) hs

theorem unexpected [Nonempty β] (e : Expectation) : Yields t (Pass.unexpected e : Pass α) f c := by
  intro s us ht hv hs
  rw [← ht] at hv
  exact rejected (fun _ => Or.inr (.grammar hv)) hs

/-- A step that takes nothing keeps the token in hand for the next one. -/
theorem still_bind [Nonempty β] {c : Check α} {d : α → β → Check δ} (hp : Still p c)
    (hq : ∀ a, Yields t (q a) f (d a)) :
    Yields t (p >>= q) f fun x => c >>= fun a => d a x := by
  intro s us ht hv hs
  have ho := hp s
  rw [Pass.run_bind]
  generalize p.run s = o at ho ⊢
  cases o with
  | done a s' =>
    obtain ⟨hf, hh, hc⟩ := ho
    have ho' := hq a s' us (hh.trans ht) hv (hs.of_eq hf hh)
    rw [Outcome.andThen_done]
    generalize (q a).run s' = o' at ho' ⊢
    cases o' with
    | done b s'' =>
      obtain ⟨x, more, hx, hm, hv', hd⟩ := ho'
      exact ⟨x, more, hx, hm, hv', by rw [Check.run_bind_of_ok hc, hd]⟩
    | rejected r s'' =>
      obtain ⟨x, ts, ws, more, hx, hus, hm, hr⟩ := ho'
      refine ⟨x, ts, ws, more, hx, hus, hm, ?_⟩
      rw [Check.run_bind_of_ok hc]
      exact hr
    | exhausted s'' => trivial
  | rejected r s' =>
    obtain ⟨hf, hh, w, u, hr, hc⟩ := ho
    rw [← hh.trans ht] at hv
    have he : s'.Explains (c.run s.scopes) r := Or.inl ⟨hv, w, u, hc, hr⟩
    exact rejected (fun _ => he.bind) (hs.of_eq hf hh)
  | exhausted s' => exact absurd ho id

theorem still {c : Check α} (hp : Still p c) : Yields t p (fun _ : Unit => []) fun _ => c := by
  have h : Yields t (p >>= pure) (fun _ : Unit => []) fun _ => c >>= pure := by
    apply still_bind hp
    intro a s us ht hv hs
    rw [← ht] at hv
    exact ⟨(), us, rfl, hs, hv, rfl⟩
  rwa [bind_pure, bind_pure] at h

/-- Steps that take nothing can come last. -/
theorem bind_still {d : α → Check δ} (hp : Yields t p f c) (hq : ∀ a, Still (q a) (d a)) :
    Yields t (p >>= q) f fun x => c x >>= d := by
  refine (hp.bind fun a _ => still (hq a)).mono ?_
  intro x
  exact ⟨x.1, (List.append_nil _).symm, rfl⟩

/-- The token in hand is the head of the tree. -/
theorem with_head {head : β → Token} (hp : Yields t p f c)
    (hf : ∀ x, ∃ ts, f x = head x :: ts) :
    Yields t (p >>= fun a => pure (t, a)) f fun x => c x >>= fun a => pure (head x, a) := by
  intro s us ht hv hs
  have ho := hp s us ht hv hs
  rw [Pass.run_bind]
  generalize p.run s = o at ho ⊢
  cases o with
  | done a s' =>
    obtain ⟨x, more, hx, hm, hv', hc⟩ := ho
    have hhead : head x = t := by
      obtain ⟨ts, hts⟩ := hf x
      rw [hx, hts] at hs
      exact hs.hand.symm.trans ht
    refine ⟨x, more, hx, hm, hv', ?_⟩
    rw [Check.run_bind_of_ok hc, hhead]
    rfl
  | rejected r s' =>
    obtain ⟨x, ts, ws, more, hx, hus, hm, hr⟩ := ho
    exact ⟨x, ts, ws, more, hx, hus, hm, hr.bind⟩
  | exhausted s' => trivial

theorem hand_bind {q : Token → Pass α} (h : Yields t (q t) f c) :
    Yields t (Pass.hand >>= q) f c := by
  intro s us ht hv hs
  rw [Pass.run_bind, Pass.run_hand, Outcome.andThen_done, ht]
  exact h s us ht hv hs

/-- A look ahead is only written down. -/
theorem peek_bind {q : Kind → Pass α} (h : ∀ k, Yields t (q k) f c) :
    Yields t (Pass.peek >>= q) f c := by
  intro s us ht hv hs
  rw [Pass.run_bind, Pass.run_peek]
  unfold Stand.peek
  simp only [Feed.peek_eq, Outcome.andThen_done]
  let s' : Stand Reel := s.noteRead (Feed.next s.feed).1
  have hh : s'.hand = s.hand := s.hand_noteRead _
  have hscopes : s'.scopes = s.scopes := s.scopes_noteRead _
  have ho := h (Feed.next s.feed).1.kind s' us (hh.trans ht) hv (hs.of_eq (s.feed_noteRead _) hh)
  rw [hscopes] at ho
  exact ho

theorem advance (ht : t.kind ≠ .finish) :
    Yields t Pass.advance (fun _ : Unit => [t]) fun _ => pure t := by
  intro s us hhand _ hs
  obtain ⟨v, vs, rfl⟩ := List.exists_cons_of_ne_nil hs.ne_nil
  have hv : v = t := hs.hand.symm.trans hhand
  have hpull : s.pull.Holds vs := hs.pull (by rw [hv]; exact ht)
  have hscopes : s.pull.scopes = s.scopes := s.scopes_pull
  rw [Pass.run_advance]
  unfold Stand.advance Stand.settle
  cases hf : s.pull.hand.kind.fault? with
  | none =>
    refine ⟨(), vs, by rw [hv]; rfl, hpull, hf, ?_⟩
    rw [hscopes, hhand]
    rfl
  | some f => exact ⟨(), [t], [], vs, rfl, by rw [hv]; rfl, hpull, Or.inr (.spelling hf)⟩

/-- The token in hand, and what comes after it. -/
theorem advance_bind [Nonempty γ] {q : Token → Pass δ} {d : Token → γ → Check δ}
    (ht : t.kind ≠ .finish) (hq : ∀ a u, Yields u (q a) g (d a)) :
    Yields t (Pass.advance >>= q) (fun y : γ => t :: g y) (d t) := by
  refine ((advance ht).bind hq).mono ?_
  intro x
  exact ⟨x.2, rfl, (pure_bind t fun a => d a x.2).symm⟩

instance (k : Kind) : Nonempty (Of k) := ⟨⟨⟨k, "", 0, ⟨0, 0⟩⟩, rfl⟩⟩

instance : Nonempty Name := ⟨⟨⟨.name, "", 0, ⟨0, 0⟩⟩, rfl⟩⟩

theorem expect {k : Kind} (e : Expectation) (hk : k ≠ .finish) :
    Yields t (Pass.expect k e) (fun x : Of k => [x.1]) fun x => pure x.1 := by
  apply hand_bind
  by_cases h : t.kind = k
  · rw [if_pos h]
    refine (advance (by rw [h]; exact hk)).mono ?_
    intro _
    exact ⟨⟨t, h⟩, rfl, rfl⟩
  · rw [if_neg h]
    exact unexpected e

theorem expectName (e : Expectation) :
    Yields t (Pass.expectName e) (fun x : Name => [x.1]) fun x => pure x.1 := by
  apply hand_bind
  by_cases h : t.kind.isName = true
  · rw [if_pos h]
    refine (advance (Kind.ne_finish_of_isName h)).mono ?_
    intro _
    exact ⟨⟨t, h⟩, rfl, rfl⟩
  · rw [if_neg h]
    exact unexpected e

/-- Whether a token was accepted decides how it goes on. -/
theorem accept_bind [Nonempty γ] {k : Kind} {q : Bool → Pass α} (hk : k ≠ .finish)
    (ht : ∀ u, Yields u (q true) g d) (hf : Yields t (q false) f c)
    (hg : ∀ (x : Of k) (y : γ), ∃ z, f z = x.1 :: g y ∧ c z = d y) :
    Yields t (Pass.accept k >>= q) f c := by
  unfold Pass.accept
  rw [bind_assoc]
  apply hand_bind
  by_cases h : t.kind = k
  · rw [if_pos h, bind_assoc]
    refine (advance_bind (d := fun _ => d) (by rw [h]; exact hk) fun _ u => ?_).mono (hg ⟨t, h⟩)
    simpa using ht u
  · rw [if_neg h]
    simpa using hf

end Yields

end OnePass
