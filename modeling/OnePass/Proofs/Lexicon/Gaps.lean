-- The gap that is passed over is the longest one.
import Mathlib.Data.List.TakeWhile
import OnePass.Proofs.Lexicon.Rules

namespace OnePass

namespace Lexicon

/-! ## Beginnings of one text -/

/-- Two beginnings of a text that are equally long are the same. -/
theorem eq_of_prefixes {α : Type} {v w l : List α} (hv : v <+: l) (hw : w <+: l)
    (hvw : v.length ≤ w.length) (hwv : w.length ≤ v.length) : v = w := by
  have hp : v <+: w := List.prefix_of_prefix_length_le hv hw hvw
  exact hp.eq_of_length (Nat.le_antisymm hvw hwv)

theorem LongestGap.unique {cs g h : List Char} (hg : LongestGap cs g) (hh : LongestGap cs h) :
    g = h :=
  eq_of_prefixes hg.beginning hh.beginning (hh.longest g hg.beginning hg.gap)
    (hg.longest h hh.beginning hh.gap)

end Lexicon

/-! ## Steps of the split -/

namespace Gap

variable {c : Char} {cs : List Char}

theorem splitFrom_newline (cs : List Char) :
    (splitFrom true ('\n' :: cs)).1 = '\n' :: (splitFrom false cs).1 := by
  simp [splitFrom]

theorem splitFrom_comment (h : c ≠ '\n') :
    (splitFrom true (c :: cs)).1 = c :: (splitFrom true cs).1 := by
  simp [splitFrom, h]

theorem splitFrom_blank (h : isBlank c = true) :
    (splitFrom false (c :: cs)).1 = c :: (splitFrom false cs).1 := by
  simp [splitFrom, h]

theorem splitFrom_slashes (cs : List Char) :
    (splitFrom false ('/' :: '/' :: cs)).1 = '/' :: '/' :: (splitFrom true cs).1 := by
  simp [splitFrom, isBlank]

theorem splitFrom_other (hb : isBlank c = false) (hs : ¬(c = '/' ∧ cs.head? = some '/')) :
    (splitFrom false (c :: cs)).1 = [] := by
  simp [splitFrom, hb, hs]

end Gap

namespace Lexicon

/-! ## The gap is a gap -/

/-- The characters up to the end of the line. -/
def line (cs : List Char) : List Char := cs.takeWhile (· ≠ '\n')

theorem newline_not_mem_line (cs : List Char) : '\n' ∉ line cs := by
  intro h
  have hp := List.mem_takeWhile_imp h
  simp at hp

theorem line_cons {c : Char} (h : c ≠ '\n') (cs : List Char) : line (c :: cs) = c :: line cs := by
  unfold line
  rw [List.takeWhile_cons, if_pos (by simpa using h)]

/-- Inside a comment the rest of the line comes before the gap. -/
theorem isGap_splitFrom (cs : List Char) :
    IsGap (Gap.splitFrom false cs).1 ∧
      ∃ g, (Gap.splitFrom true cs).1 = line cs ++ g ∧ IsGap g := by
  induction cs with
  | nil => exact ⟨.nil, [], rfl, .nil⟩
  | cons c cs ih =>
    obtain ⟨hgap, g, hline, hg⟩ := ih
    refine ⟨?_, ?_⟩
    · by_cases hb : isBlank c = true
      · rw [Gap.splitFrom_blank hb]
        exact .blank hb hgap
      · rw [Bool.not_eq_true] at hb
        by_cases hs : c = '/' ∧ cs.head? = some '/'
        · obtain ⟨rfl, hhead⟩ := hs
          obtain ⟨cs', rfl⟩ := List.head?_eq_some_iff.1 hhead
          rw [Gap.splitFrom_comment (by decide), line_cons (by decide), List.cons_append] at hline
          rw [Gap.splitFrom_slashes, (List.cons.inj hline).2]
          exact .comment (newline_not_mem_line cs') hg
        · rw [Gap.splitFrom_other hb hs]
          exact .nil
    · by_cases hc : c = '\n'
      · subst hc
        refine ⟨'\n' :: (Gap.splitFrom false cs).1, ?_, .blank rfl hgap⟩
        rw [Gap.splitFrom_newline]
        rfl
      · refine ⟨g, ?_, hg⟩
        rw [Gap.splitFrom_comment hc, line_cons hc, hline, List.cons_append]

/-! ## No gap is longer -/

/-- Whatever can still belong to a gap is passed over, in a comment or out
of one. -/
theorem prefix_splitFrom (r : List Char) (n : Nat) :
    (∀ g, g.length ≤ n → IsGap g → g <+: (Gap.splitFrom false (g ++ r)).1) ∧
      ∀ a g, (a ++ g).length ≤ n → '\n' ∉ a → IsGap g →
        a ++ g <+: (Gap.splitFrom true (a ++ g ++ r)).1 := by
  induction n with
  | zero =>
    refine ⟨?_, ?_⟩
    · intro g hn _
      rw [List.length_eq_zero_iff.1 (Nat.le_zero.1 hn)]
      exact List.nil_prefix
    · intro a g hn _ _
      rw [List.length_eq_zero_iff.1 (Nat.le_zero.1 hn)]
      exact List.nil_prefix
  | succ n ih =>
    obtain ⟨hout, hin⟩ := ih
    refine ⟨?_, ?_⟩
    · intro g hn hg
      cases hg with
      | nil => exact List.nil_prefix
      | @blank c g hc hg =>
        rw [List.cons_append, Gap.splitFrom_blank hc]
        exact (List.prefix_cons_inj c).2 (hout g (Nat.le_of_succ_le_succ hn) hg)
      | @comment a g ha hg =>
        rw [List.cons_append, List.cons_append, Gap.splitFrom_slashes]
        apply (List.prefix_cons_inj '/').2
        apply (List.prefix_cons_inj '/').2
        apply hin a g _ ha hg
        simp only [List.length_cons] at hn
        omega
    · intro a g hn ha hg
      cases a with
      | cons c a =>
        obtain ⟨hc, ha⟩ := List.ne_and_not_mem_of_not_mem_cons ha
        rw [List.cons_append, List.cons_append, Gap.splitFrom_comment (Ne.symm hc)]
        apply (List.prefix_cons_inj c).2
        exact hin a g (Nat.le_of_succ_le_succ hn) ha hg
      | nil =>
        -- A comment may be cut short in the text `g`, and goes on in `g` itself.
        cases hg with
        | nil => exact List.nil_prefix
        | @blank c g hc hg =>
          by_cases hnl : c = '\n'
          · subst hnl
            rw [List.nil_append, List.cons_append, Gap.splitFrom_newline]
            exact (List.prefix_cons_inj _).2 (hout g (Nat.le_of_succ_le_succ hn) hg)
          · rw [List.nil_append, List.cons_append, Gap.splitFrom_comment hnl]
            apply (List.prefix_cons_inj c).2
            exact hin [] g (Nat.le_of_succ_le_succ hn) List.not_mem_nil hg
        | @comment a g ha hg =>
          have ha' : '\n' ∉ '/' :: a := by simpa using ha
          rw [List.nil_append, List.cons_append, Gap.splitFrom_comment (by decide)]
          apply (List.prefix_cons_inj '/').2
          exact hin ('/' :: a) g (Nat.le_of_succ_le_succ hn) ha' hg

/-- What is passed over before a token is the longest gap. -/
theorem longestGap_split (cs : List Char) : LongestGap cs (Gap.split cs).1 where
  beginning := ⟨(Gap.split cs).2, Gap.split_append cs⟩
  gap := (isGap_splitFrom cs).1
  longest := by
    rintro h ⟨r, rfl⟩ hh
    exact ((prefix_splitFrom r h.length).1 h (Nat.le_refl _) hh).length_le

end Lexicon

end OnePass
