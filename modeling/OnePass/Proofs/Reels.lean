-- All tokens of a text as a finished list, and the list read by index. The
-- list ends with the finish, and no other token is one.
import Mathlib.Data.List.GetD
import OnePass.Token.Feed

namespace OnePass

/-! ## Cursors at the end -/

namespace Cursor

theorem skipGap_of_rest_nil {c : Cursor} (h : c.rest = []) : c.skipGap = c := by
  have hs : Gap.split c.rest = ([], []) := by
    rw [h]
    rfl
  apply Cursor.ext
  · rfl
  · rw [rest_skipGap, hs, h]
  · show c.position + Text.bytes (Gap.split c.rest).1 = c.position
    rw [hs]
    rfl
  · show c.line + Text.newlines (Gap.split c.rest).1 = c.line
    rw [hs]
    rfl

theorem next_of_rest_nil {c : Cursor} (h : c.rest = []) :
    c.next = (.finish c.line c.position, c) := by
  rw [next, skipGap_of_rest_nil h, read_of_rest_nil h]

/-- Behind the finish there is the same finish again, and nothing moves. -/
theorem next_next_of_finish {c : Cursor} (h : c.next.1.kind = .finish) :
    c.next.2.next = c.next := by
  have hr : c.skipGap.rest = [] := by
    cases hr : c.skipGap.rest with
    | nil => rfl
    | cons x xs =>
      rw [next, read_of_rest_cons hr] at h
      exact absurd h (Lexeme.first_kind_ne_finish x xs)
  have hn : c.next = (.finish c.skipGap.line c.skipGap.position, c.skipGap) := by
    rw [next, read_of_rest_nil hr]
  rw [hn]
  exact next_of_rest_nil hr

/-! ## The tokens of a cursor -/

theorem tokens_eq (c : Cursor) :
    c.tokens = c.next.1 :: if c.next.1.kind = .finish then [] else c.next.2.tokens := by
  rw [tokens]
  split
  rename_i t after hn
  have h1 : c.next.1 = t := by rw [hn]
  have h2 : c.next.2 = after := by rw [hn]
  rw [h1, h2]
  by_cases h : t.kind = .finish
  · rw [dif_pos h, if_pos h]
  · rw [dif_neg h, if_neg h]

/-- The finish is the last token, and only the last one. -/
theorem exists_tokens_eq (c : Cursor) :
    ∃ ts t, c.tokens = ts ++ [t] ∧ (∀ u ∈ ts, u.kind ≠ .finish) ∧ t.kind = .finish := by
  by_cases h : c.next.1.kind = .finish
  · refine ⟨[], c.next.1, ?_, ?_, h⟩
    · rw [tokens_eq, if_pos h]
      rfl
    · simp
  · have hlt := length_next_lt h
    obtain ⟨ts, t, heq, hts, ht⟩ := exists_tokens_eq c.next.2
    refine ⟨c.next.1 :: ts, t, ?_, ?_, ht⟩
    · rw [tokens_eq, if_neg h, heq]
      rfl
    · intro u hu
      rcases List.mem_cons.1 hu with rfl | hu
      · exact h
      · exact hts u hu
termination_by c.rest.length

end Cursor

/-! ## Reels -/

namespace Reel

/-- All tokens of the list, the last one included. -/
def tokens (r : Reel) : List Token := r.ahead ++ [r.last]

theorem tokens_injective {r s : Reel} (h : r.tokens = s.tokens) : r = s := by
  obtain ⟨h1, h2⟩ := List.append_inj' h rfl
  exact Reel.ext h1 (List.singleton_inj.1 h2)

theorem tokens_eq (r : Reel) :
    r.tokens = r.next.1 :: if r.next.1.kind = .finish then [] else r.next.2.tokens := by
  cases h : r.ahead with
  | nil =>
    rw [next_nil h, if_pos r.last_eq, tokens, h]
    rfl
  | cons t ts =>
    have ht : t.kind ≠ .finish := r.ahead_ne t (by rw [h]; exact List.mem_cons_self)
    rw [next_cons h, if_neg ht]
    exact congrArg (· ++ [r.last]) h

theorem next_next_of_finish {r : Reel} (h : r.next.1.kind = .finish) : r.next.2 = r := by
  cases hr : r.ahead with
  | nil => rw [next_nil hr]
  | cons t ts =>
    rw [next_cons hr] at h
    exact absurd h (r.ahead_ne t (by rw [hr]; exact List.mem_cons_self))

/-- The list read from an index on. Behind the last token it stays there. -/
def drop (r : Reel) (i : Nat) : Reel :=
  ⟨r.ahead.drop i, r.last, fun t ht => r.ahead_ne t (List.mem_of_mem_drop ht), r.last_eq⟩

/-- The token that comes next is the one of the index. -/
theorem next_drop (r : Reel) (i : Nat) :
    (r.drop i).next = (r.tokens.getD i r.last, r.drop (i + 1)) := by
  rcases Nat.lt_or_ge i r.ahead.length with hi | hi
  · have hd : (r.drop i).ahead = r.ahead[i] :: r.ahead.drop (i + 1) :=
      List.drop_eq_getElem_cons hi
    rw [next_cons hd, tokens, List.getD_append _ _ _ _ hi, List.getD_eq_getElem _ _ hi]
    rfl
  · have hd : (r.drop i).ahead = [] := List.drop_eq_nil_of_le hi
    rw [next_nil hd, tokens, List.getD_append_right _ _ _ _ hi]
    have hl : [r.last].getD (i - r.ahead.length) r.last = r.last := by
      cases i - r.ahead.length <;> rfl
    rw [hl]
    congr 1
    apply Reel.ext
    · rw [hd]
      exact (List.drop_eq_nil_of_le (by omega)).symm
    · rfl

end Reel

/-- The tokens of a text as a finished list. -/
def Cursor.reel (c : Cursor) : Reel where
  ahead := c.tokens.dropLast
  last := c.tokens.getLastD (.finish 1 0)
  ahead_ne := by
    obtain ⟨ts, t, heq, hts, -⟩ := c.exists_tokens_eq
    rw [heq, List.dropLast_concat]
    exact hts
  last_eq := by
    obtain ⟨ts, t, heq, -, ht⟩ := c.exists_tokens_eq
    rw [heq]
    simpa using ht

@[simp] theorem Cursor.tokens_reel (c : Cursor) : c.reel.tokens = c.tokens := by
  obtain ⟨ts, t, heq, -, -⟩ := c.exists_tokens_eq
  unfold Reel.tokens reel
  simp [heq]

/-- The tokens of a text as a finished list. -/
def reel (source : String) : Reel := (Cursor.start source.toList).reel

@[simp] theorem tokens_reel (source : String) : (reel source).tokens = tokenize source :=
  Cursor.tokens_reel _

end OnePass
