-- The line and the column of a place, told by what comes before the place:
-- one line for each newline there, and one column for each character behind
-- the last of them. The table of all lines of a text tells the same.
import Mathlib.Data.List.DropRight
import OnePass.Text.Lines

namespace OnePass.Text

/-! ## The last line -/

/-- What stands behind the last newline of a text. -/
def lastLine (cs : List Char) : List Char := cs.rtakeWhile (· ≠ '\n')

/-- The line of what comes behind a text, counted from 1. -/
def lineBehind (front : List Char) : Nat := newlines front + 1

/-- The column of what comes behind a text, counted from 1. -/
def columnBehind (front : List Char) : Nat := (lastLine front).length + 1

theorem lastLine_nil : lastLine [] = [] := List.rtakeWhile_nil _

theorem newlines_eq_zero {cs : List Char} : newlines cs = 0 ↔ '\n' ∉ cs := List.count_eq_zero

theorem lastLine_of_newlines_eq_zero {cs : List Char} (h : newlines cs = 0) : lastLine cs = cs := by
  unfold lastLine
  rw [List.rtakeWhile_eq_self_iff]
  rintro c hc
  rw [newlines_eq_zero] at h
  simp only [decide_eq_true_eq]
  rintro rfl
  exact h hc

/-- In front of a newline a character changes nothing. -/
theorem lastLine_cons {c : Char} {cs : List Char} (h : c = '\n' ∨ newlines cs ≠ 0) :
    lastLine (c :: cs) = lastLine cs := by
  unfold lastLine List.rtakeWhile
  rw [List.reverse_cons, List.takeWhile_append]
  split
  · rename_i hall
    have hself := (List.takeWhile_prefix _).eq_of_length hall
    have hnone : newlines cs = 0 := by
      rw [newlines_eq_zero]
      intro hmem
      rw [← List.mem_reverse, ← hself] at hmem
      simpa using List.mem_takeWhile_imp hmem
    obtain rfl : c = '\n' := h.resolve_right (by simp [hnone])
    rw [hself]
    simp
  · rfl

/-! ## The table of lines -/

/-- The first line starts where the text does, and the others behind that. -/
theorem linesFrom_eq_cons (start : Nat) (cs : List Char) :
    ∃ l ls, linesFrom start cs = ⟨start, l⟩ :: ls ∧ ∀ m ∈ ls, start < m.start := by
  fun_induction linesFrom start cs with
  | case1 start => exact ⟨[], [], rfl, by simp⟩
  | case2 start cs ih =>
    obtain ⟨l, ls, heq, hls⟩ := ih
    refine ⟨['\n'], _, rfl, ?_⟩
    rw [heq]
    intro m hm
    rcases List.mem_cons.1 hm with rfl | hm
    · simp
    · have := hls m hm
      omega
  | case3 start c cs hc l ls heq ih =>
    obtain ⟨k, ks, hk, hks⟩ := ih
    obtain ⟨rfl, rfl⟩ := List.cons.inj (heq.symm.trans hk)
    refine ⟨c :: k, ls, rfl, ?_⟩
    intro m hm
    have := hks m hm
    omega
  | case4 start c cs hc heq => exact absurd heq (linesFrom_ne_nil _ _)

/-- The line of the place behind the text `front`: as many lines come before it
as there are newlines, and it starts behind the last of them. -/
theorem linesFrom_append (start : Nat) (front back : List Char) :
    ∃ before place l behind,
      linesFrom start (front ++ back) = before ++ ⟨place, lastLine front ++ l⟩ :: behind ∧
      place + bytes (lastLine front) = start + bytes front ∧
      before.length = newlines front ∧ (∀ m ∈ before, m.start ≤ start + bytes front) ∧
      ∀ m ∈ behind, start + bytes front < m.start := by
  induction front generalizing start with
  | nil =>
    obtain ⟨l, ls, heq, hls⟩ := linesFrom_eq_cons start back
    exact ⟨[], start, l, ls, by simp [heq, lastLine_nil], by simp [lastLine_nil], rfl, by simp,
      by simpa using hls⟩
  | cons c front ih =>
    obtain ⟨before, place, l, behind, heq, hplace, hlength, hbefore, hbehind⟩ :=
      ih (start + c.utf8Size)
    have hbytes : start + bytes (c :: front) = start + c.utf8Size + bytes front := by
      simp [Nat.add_assoc]
    rw [List.cons_append, linesFrom, hbytes]
    by_cases hc : c = '\n'
    · subst hc
      refine ⟨⟨start, ['\n']⟩ :: before, place, l, behind, ?_, ?_, ?_, ?_, hbehind⟩
      · rw [if_pos rfl, lastLine_cons (Or.inl rfl)]
        exact congrArg _ heq
      · rw [lastLine_cons (Or.inl rfl), hplace]
      · simp [newlines, hlength]
      · intro m hm
        rcases List.mem_cons.1 hm with rfl | hm
        · simp only
          omega
        · exact hbefore m hm
    · rw [if_neg hc, heq]
      have hnewlines : newlines (c :: front) = newlines front := List.count_cons_of_ne hc
      cases before with
      | nil =>
        have hnone : newlines front = 0 := hlength.symm
        rw [lastLine_of_newlines_eq_zero hnone] at hplace ⊢
        have hself : lastLine (c :: front) = c :: front :=
          lastLine_of_newlines_eq_zero (hnewlines.trans hnone)
        refine ⟨[], start, l, behind, ?_, ?_, ?_, by simp, hbehind⟩
        · rw [hself]
          rfl
        · rw [hself, hbytes]
        · rw [hnewlines, hnone]
          rfl
      | cons m ms =>
        have hsome : newlines front ≠ 0 := by simp [← hlength]
        refine ⟨⟨start, c :: m.text⟩ :: ms, place, l, behind, ?_, ?_, ?_, ?_, hbehind⟩
        · rw [lastLine_cons (Or.inr hsome)]
          rfl
        · rw [lastLine_cons (Or.inr hsome), hplace]
        · rw [hnewlines, ← hlength]
          rfl
        · intro k hk
          rcases List.mem_cons.1 hk with rfl | hk
          · simp only
            omega
          · exact hbefore k (List.mem_cons_of_mem m hk)

/-! ## Places -/

/-- The line of a place is told by the newlines before it. -/
theorem lineIndex_append (front back : List Char) :
    lineIndex (front ++ back) (bytes front) = newlines front := by
  obtain ⟨before, place, l, behind, heq, hplace, hlength, hbefore, hbehind⟩ :=
    linesFrom_append 0 front back
  rw [Nat.zero_add] at hplace hbefore hbehind
  have h1 : before.countP (fun m => decide (m.start ≤ bytes front)) = before.length := by
    rw [List.countP_eq_length]
    simpa using hbefore
  have h2 : behind.countP (fun m => decide (m.start ≤ bytes front)) = 0 := by
    rw [List.countP_eq_zero]
    simpa using hbehind
  have h3 : place ≤ bytes front := by omega
  unfold lineIndex lines
  rw [heq, List.countP_append, List.countP_cons, h1, h2, hlength]
  simp [h3]

/-- The line of a place starts with what stands before the place. -/
theorem lineAt_append (front back : List Char) :
    ∃ place l, lineAt (front ++ back) (newlines front) = ⟨place, lastLine front ++ l⟩ ∧
      place + bytes (lastLine front) = bytes front := by
  obtain ⟨before, place, l, behind, heq, hplace, hlength, -, -⟩ := linesFrom_append 0 front back
  refine ⟨place, l, ?_, by omega⟩
  unfold lineAt lines
  simp [heq, ← hlength, List.getD_eq_getElem?_getD]

/-- All characters of a part at the head of a text lie within its bytes, and
no others. -/
theorem charsWithin_append (a b : List Char) : charsWithin (bytes a) (a ++ b) = a.length := by
  induction a with
  | nil =>
    cases b with
    | nil => rfl
    | cons c b =>
      have := c.utf8Size_pos
      simp [charsWithin]
      omega
  | cons c a ih => simp [charsWithin, ih]

/-- The column of a place is told by what stands before it on its line. -/
theorem column_append (front back : List Char) :
    column (front ++ back) (bytes front) = columnBehind front := by
  obtain ⟨place, l, hline, hplace⟩ := lineAt_append front back
  have hbytes : bytes front - place = bytes (lastLine front) := by omega
  simp only [column, lineIndex_append, hline, hbytes, charsWithin_append, columnBehind]

end OnePass.Text
