-- What holds at each moment of a run over a program: how the frames are nested
-- and which token is in hand. Each law is kept by a step.
import Mathlib.Data.List.Chain
import OnePass.Proofs.Descent.Productions
import OnePass.Proofs.Reels

namespace OnePass

/-! ## Frames -/

namespace Frame

instance : Trans Inside Inside Inside := ⟨Inside.trans⟩

/-- What is open inside itself started again after a token was put away. -/
theorem Inside.index_lt {f g : Frame} (h : f.Inside g) (hrank : f.site.rank = g.site.rank) :
    g.index < f.index := by
  unfold Inside at h
  omega

/-- Between two tokens the ranks go down, so there cannot be more frames than
ranks. -/
theorem length_le {f : Frame} {fs : List Frame} (hnested : (f :: fs).IsChain Inside)
    (hlow : ∀ g ∈ f :: fs, g.site.rank < ranks) :
    (f :: fs).length ≤ ranks * f.index + (ranks - f.site.rank) := by
  induction fs generalizing f with
  | nil =>
    have := hlow f List.mem_cons_self
    simp
    omega
  | cons g fs ih =>
    obtain ⟨hfg, hrest⟩ := List.isChain_cons_cons.1 hnested
    have hlen := ih hrest fun x hx => hlow x (List.mem_cons_of_mem f hx)
    have hf := hlow f List.mem_cons_self
    rw [List.length_cons]
    unfold Inside ranks at *
    omega

end Frame

namespace Config

variable {φ α : Type} [Feed φ]

/-- The laws of the frames at a moment of a run. -/
structure Sound (c : Config φ α) : Prop where
  /-- The rest of the run is orderly, and all is over at its end. -/
  orderly : c.rest.Orderly (fun _ _ fs => fs = []) c.stand c.index c.frames
  nested : c.frames.IsChain Frame.Inside
  low : ∀ f ∈ c.frames, f.site.rank < ranks
  behind : ∀ f ∈ c.frames, f.index ≤ c.index
  counted : ∀ f ∈ c.frames, f.site.number ≤ f.index + 1

variable {c d : Config φ α}

theorem Sound.step (hc : c.Sound) (h : Step c d) : d.Sound := by
  obtain ⟨horderly, hnested, hlow, hbehind, hcounted⟩ := hc
  cases h with
  | @move m _ s _ x i _ hm =>
    exact ⟨horderly.2 x _ hm, hnested, hlow,
      fun f hf => Nat.le_trans (hbehind f hf) (s.le_indexAfter m i), hcounted⟩
  | @stop m _ s _ _ i _ =>
    exact ⟨trivial, hnested, hlow,
      fun f hf => Nat.le_trans (hbehind f hf) (s.le_indexAfter m i), hcounted⟩
  | @opens site _ _ i _ =>
    obtain ⟨hfits, hrest⟩ := horderly
    refine ⟨hrest, List.isChain_cons.2 ⟨hfits.inside, hnested⟩, ?_, ?_, ?_⟩
    · exact List.forall_mem_cons.2 ⟨hfits.low, hlow⟩
    · exact List.forall_mem_cons.2 ⟨Nat.le_refl i, hbehind⟩
    · exact List.forall_mem_cons.2 ⟨hfits.counted, hcounted⟩
  | closes =>
    obtain ⟨_, _, hfs, -, hrest⟩ := horderly
    cases hfs
    exact ⟨hrest, (List.isChain_cons.1 hnested).2, (List.forall_mem_cons.1 hlow).2,
      (List.forall_mem_cons.1 hbehind).2, (List.forall_mem_cons.1 hcounted).2⟩

theorem Sound.depth_le (hc : c.Sound) : c.frames.length ≤ ranks * (c.index + 1) := by
  cases hfs : c.frames with
  | nil => exact Nat.zero_le _
  | cons f fs =>
    have hlen := Frame.length_le (hfs ▸ hc.nested) (hfs ▸ hc.low)
    have hf := hc.behind f (by simp [hfs])
    unfold ranks at *
    omega

/-- A run does not get stuck before its end. -/
theorem Sound.step_or_end (hc : c.Sound) :
    (∃ d, Step c d) ∨ (∃ a, c.rest = .done a ∧ c.frames = []) ∨ (∃ r, c.rest = .reject r) ∨
      c.rest = .exhausted := by
  obtain ⟨rest, s, i, fs⟩ := c
  cases rest with
  | done a => exact .inr (.inl ⟨a, rfl, hc.orderly⟩)
  | reject r => exact .inr (.inr (.inl ⟨r, rfl⟩))
  | exhausted => exact .inr (.inr (.inr rfl))
  | ask m go =>
    cases hm : s.perform m with
    | done x t => exact .inl ⟨_, .move hm⟩
    | rejected r t => exact .inl ⟨_, .stop hm⟩
    | exhausted t => exact absurd hm (s.perform_ne_exhausted m t)
  | opens site rest => exact .inl ⟨_, .opens⟩
  | closes rest =>
    obtain ⟨f, gs, rfl, -, -⟩ := hc.orderly
    exact .inl ⟨_, .closes⟩

end Config

/-! ## The token in hand -/

/-- The token in hand is the one with the index `i`. -/
def Stand.At (ts : List Token) (i : Nat) (s : Stand Cursor) : Prop :=
  ∃ c : Cursor, c.next = (s.hand, s.feed) ∧ ts.drop i = c.tokens

namespace Stand.At

variable {ts : List Token} {i : Nat} {s : Stand Cursor}

theorem getElem?_eq (h : s.At ts i) : ts[i]? = some s.hand := by
  obtain ⟨c, hnext, hdrop⟩ := h
  rw [← List.head?_drop, hdrop, c.tokens_eq, hnext]
  rfl

theorem lt_length (h : s.At ts i) : i < ts.length :=
  (List.getElem?_eq_some_iff.1 h.getElem?_eq).1

/-- The next token has the next index. Behind the finish there is the finish
again. -/
theorem pull (h : s.At ts i) : s.pull.At ts (s.indexAfter .advance i) := by
  obtain ⟨c, hnext, hdrop⟩ := h
  have hfeed : c.next.2 = s.feed := by rw [hnext]
  have hhand : c.next.1 = s.hand := by rw [hnext]
  have hpull : s.feed.next = (s.pull.hand, s.pull.feed) := by
    rw [hand_pull, feed_pull]
    rfl
  by_cases hk : s.hand.kind = .finish
  · refine ⟨c, ?_, by rwa [show s.indexAfter .advance i = i from if_pos hk]⟩
    rw [← hpull, ← hfeed, Cursor.next_next_of_finish (hhand ▸ hk)]
  · refine ⟨s.feed, hpull, ?_⟩
    rw [show s.indexAfter .advance i = i + 1 from if_neg hk, ← List.drop_drop, hdrop, c.tokens_eq,
      hhand, if_neg hk, hfeed]
    rfl

theorem perform (h : s.At ts i) (m : Move) : (s.perform m).stand.At ts (s.indexAfter m i) := by
  by_cases hm : m = .advance
  · subst hm
    show s.advance.stand.At ts _
    rw [stand_advance]
    exact h.pull
  · obtain ⟨c, hnext, hdrop⟩ := h
    obtain ⟨hhand, hfeed⟩ := s.still_perform hm
    exact ⟨c, by rw [hnext, hhand, hfeed], by rw [s.indexAfter_of_ne hm, hdrop]⟩

end Stand.At

theorem Config.Step.at {α : Type} {ts : List Token} {c d : Config Cursor α} (h : Step c d)
    (hc : c.stand.At ts c.index) : d.stand.At ts d.index := by
  cases h with
  | @move m _ s _ _ _ _ hm | @stop m _ s _ _ _ _ hm =>
    have ht := hc.perform m
    rw [hm] at ht
    exact ht
  | opens | closes => exact hc

end OnePass
