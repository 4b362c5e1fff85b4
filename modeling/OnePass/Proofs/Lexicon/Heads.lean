-- The first character of a text tells which rules it can follow: a letter
-- opens words, a digit or a point opens numbers, a quote opens quotes, and
-- anything else can only open a mark.
import OnePass.Proofs.Lexicon.Rules

namespace OnePass.Lexicon

/-! ## Classes of characters -/

theorem not_isDigit_of_startsName {c : Char} (h : startsName c = true) : c.isDigit = false := by
  unfold startsName Char.isAlpha Char.isUpper Char.isLower at h
  unfold Char.isDigit
  simp only [Bool.or_eq_true, Bool.and_eq_true, decide_eq_true_eq, ge_iff_le,
    UInt32.le_iff_toNat_le, Bool.and_eq_false_iff, decide_eq_false_iff_not] at h ⊢
  rcases h with (⟨h1, h2⟩ | ⟨h1, h2⟩) | rfl
  · right
    simp at *
    omega
  · right
    simp at *
    omega
  · right
    decide

/-- No other rule than that of a mark applies to a text that starts so. -/
def opensMark (c : Char) : Bool :=
  !startsName c && !c.isDigit && c ≠ '.' && c ≠ '\''

theorem opensMark_iff {c : Char} :
    opensMark c = true ↔ startsName c = false ∧ c.isDigit = false ∧ c ≠ '.' ∧ c ≠ '\'' := by
  simp [opensMark, and_assoc]

/-! ## Fixed spellings -/

/-- The spelling could be one of a name. -/
def looksLikeName (s : String) : Bool :=
  match s.toList with
  | c :: w => startsName c && w.all continuesName
  | [] => false

theorem looksLikeName_of_mem_words : ∀ x ∈ words, looksLikeName x.1 = true := by
  decide +kernel

/-- The spelling has one or two characters, and is a mark of that kind. -/
def looksLikeMark (x : String × Kind) : Bool :=
  match x.1.toList with
  | [c] => opensMark c && Cut.single? c = some x.2
  | [c, d] => opensMark c && Cut.pair? c d = some x.2
  | _ => false

theorem looksLikeMark_of_mem_marks : ∀ x ∈ marks, looksLikeMark x = true := by
  decide +kernel

/-- A mark is known by its spelling. -/
theorem mark_cases {s : String} {k : Kind} (h : (s, k) ∈ marks) :
    (∃ c, s.toList = [c] ∧ opensMark c = true ∧ Cut.single? c = some k) ∨
      ∃ c d, s.toList = [c, d] ∧ opensMark c = true ∧ Cut.pair? c d = some k := by
  have hm := looksLikeMark_of_mem_marks _ h
  unfold looksLikeMark at hm
  split at hm
  · rename_i c hc
    rw [Bool.and_eq_true, decide_eq_true_eq] at hm
    exact Or.inl ⟨c, hc, hm.1, hm.2⟩
  · rename_i c d hc
    rw [Bool.and_eq_true, decide_eq_true_eq] at hm
    exact Or.inr ⟨c, d, hc, hm.1, hm.2⟩
  · cases hm

theorem mem_marks_of_single? {c : Char} {k : Kind} (h : Cut.single? c = some k) :
    (String.ofList [c], k) ∈ marks := by
  unfold Cut.single? at h
  split at h
  case h_18 => cases h
  all_goals
    cases h
    decide +kernel

theorem mem_marks_of_pair? {c d : Char} {k : Kind} (h : Cut.pair? c d = some k) :
    (String.ofList [c, d], k) ∈ marks := by
  unfold Cut.pair? at h
  split at h
  case h_7 => cases h
  all_goals
    cases h
    decide +kernel

/-- A spelling stands for one kind only. -/
theorem fixed_unique {s : String} {k l : Kind} (hk : (s, k) ∈ fixed) (hl : (s, l) ∈ fixed) :
    k = l := by
  have h : ∀ x ∈ fixed, ∀ y ∈ fixed, x.1 = y.1 → x.2 = y.2 := by
    decide +kernel
  exact h _ hk _ hl rfl

/-! ## Heads -/

/-- A text that follows the rule can start with this character. -/
def Rule.opens : Rule → Char → Prop
  | .fixed s k, c => (s, k) ∈ words ∧ startsName c = true ∨ (s, k) ∈ marks ∧ opensMark c = true
  | .name, c => startsName c = true
  | .decimal, c => c.isDigit = true
  | .hexadecimal, c => c = '0'
  | .floating, c => c.isDigit = true ∨ c = '.'
  | .quote, c => c = '\''

/-- A text that follows a rule is not empty. -/
theorem Follows.exists_cons {r : Rule} {v : List Char} (h : Follows r v) :
    ∃ c w, v = c :: w ∧ r.opens c := by
  cases h with
  | @fixed s k h =>
    rcases List.mem_append.1 h with hw | hm
    · have hs := looksLikeName_of_mem_words _ hw
      unfold looksLikeName at hs
      split at hs
      · rename_i c w hcw
        rw [Bool.and_eq_true] at hs
        exact ⟨c, w, hcw, Or.inl ⟨hw, hs.1⟩⟩
      · cases hs
    · rcases mark_cases hm with ⟨c, hc, ho, -⟩ | ⟨c, d, hc, ho, -⟩
      · exact ⟨c, [], hc, Or.inr ⟨hm, ho⟩⟩
      · exact ⟨c, [d], hc, Or.inr ⟨hm, ho⟩⟩
  | @name c w hc _ => exact ⟨c, w, rfl, hc⟩
  | decimal hw hne =>
    obtain ⟨c, w, rfl⟩ := List.exists_cons_of_ne_nil hne
    exact ⟨c, w, rfl, hw c List.mem_cons_self⟩
  | hexadecimal _ _ => exact ⟨'0', _, rfl, rfl⟩
  | @floating a b ha _ _ =>
    cases a with
    | nil => exact ⟨'.', b, rfl, Or.inr rfl⟩
    | cons c a => exact ⟨c, a ++ '.' :: b, rfl, Or.inl (ha c List.mem_cons_self)⟩
  | quote _ _ => exact ⟨'\'', _, rfl, rfl⟩

theorem Follows.opens {r : Rule} {c : Char} {w : List Char} (h : Follows r (c :: w)) :
    r.opens c := by
  obtain ⟨d, v, hdv, ho⟩ := h.exists_cons
  rw [(List.cons.inj hdv).1]
  exact ho

variable {r : Rule} {c : Char}

/-- A letter opens a word of the language, or a name. -/
theorem Rule.opens_letter (h : r.opens c) (hc : startsName c = true) :
    r = .name ∨ ∃ s k, r = .fixed s k ∧ (s, k) ∈ words := by
  have hd := not_isDigit_of_startsName hc
  cases r with
  | fixed s k =>
    rcases h with ⟨hw, -⟩ | ⟨-, ho⟩
    · exact Or.inr ⟨s, k, rfl, hw⟩
    · rw [(opensMark_iff.1 ho).1] at hc
      cases hc
  | name => exact Or.inl rfl
  | decimal =>
    rw [show c.isDigit = true from h] at hd
    cases hd
  | hexadecimal =>
    rw [show c = '0' from h] at hd
    cases hd
  | floating =>
    rcases h with h | rfl
    · rw [h] at hd
      cases hd
    · cases hc
  | quote =>
    rw [show c = '\'' from h] at hc
    cases hc

/-- A digit or a point opens a number. -/
theorem Rule.opens_number (h : r.opens c) (hc : c.isDigit = true ∨ c = '.') :
    r = .decimal ∨ r = .hexadecimal ∨ r = .floating := by
  have hn : startsName c = false := by
    rcases hc with hc | rfl
    · cases hs : startsName c with
      | false => rfl
      | true => rw [not_isDigit_of_startsName hs] at hc; cases hc
    · rfl
  cases r with
  | fixed s k =>
    rcases h with ⟨-, hs⟩ | ⟨-, ho⟩
    · rw [hn] at hs
      cases hs
    · obtain ⟨-, hd, hp, -⟩ := opensMark_iff.1 ho
      rcases hc with hc | hc
      · rw [hd] at hc
        cases hc
      · exact absurd hc hp
  | name =>
    rw [show startsName c = true from h] at hn
    cases hn
  | decimal => exact Or.inl rfl
  | hexadecimal => exact Or.inr (Or.inl rfl)
  | floating => exact Or.inr (Or.inr rfl)
  | quote =>
    rw [show c = '\'' from h] at hc
    rcases hc with hc | hc <;> cases hc

theorem Rule.opens_quote (h : r.opens '\'') : r = .quote := by
  cases r with
  | fixed s k =>
    rcases h with ⟨-, hs⟩ | ⟨-, ho⟩
    · cases hs
    · exact absurd rfl (opensMark_iff.1 ho).2.2.2
  | name => cases h
  | decimal => cases h
  | hexadecimal => cases h
  | floating => rcases h with h | h <;> cases h
  | quote => rfl

/-- Nothing else opens anything but a mark. -/
theorem Rule.opens_mark (h : r.opens c) (hc : opensMark c = true) :
    ∃ s k, r = .fixed s k ∧ (s, k) ∈ marks := by
  obtain ⟨hn, hd, hp, hq⟩ := opensMark_iff.1 hc
  cases r with
  | fixed s k =>
    rcases h with ⟨-, hs⟩ | ⟨hm, -⟩
    · rw [hn] at hs
      cases hs
    · exact ⟨s, k, rfl, hm⟩
  | name =>
    rw [show startsName c = true from h] at hn
    cases hn
  | decimal =>
    rw [show c.isDigit = true from h] at hd
    cases hd
  | hexadecimal =>
    rw [show c = '0' from h] at hd
    cases hd
  | floating =>
    rcases h with h | h
    · rw [h] at hd
      cases hd
    · exact absurd h hp
  | quote => exact absurd h hq

end OnePass.Lexicon
