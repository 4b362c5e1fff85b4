-- One rule is chosen for a text, and there is one verdict on it: that of
-- the scanner.
import OnePass.Proofs.Lexicon.Longest

namespace OnePass.Lexicon

variable {r r' : Rule} {w rest text : List Char} {k l : Kind} {c : Char}

/-! ## The chosen rule -/

theorem decimal_ne_hexadecimal (h : Follows .decimal w) : ¬Follows .hexadecimal w := by
  intro h'
  cases h' with
  | @hexadecimal x w hx _ =>
    cases h with
    | decimal hd _ =>
      have hxd := hd x (by simp)
      rw [isDigit_hexMark hx] at hxd
      cases hxd

theorem decimal_ne_floating (h : Follows .decimal w) : ¬Follows .floating w := by
  intro h'
  obtain ⟨a, b, rfl, -, -, -⟩ := h'.floating_eq
  cases h with
  | decimal hd _ =>
    have hp := hd '.' (by simp)
    cases hp

theorem hexadecimal_ne_floating (h : Follows .hexadecimal w) : ¬Follows .floating w := by
  intro h'
  obtain ⟨a, b, hab, ha, -, -⟩ := h'.floating_eq
  cases h with
  | @hexadecimal x w hx _ =>
    exact not_point_before_hexMark hx ha ⟨[], by rw [List.append_nil, ← hab]⟩

/-- No text follows two rules for a number. -/
theorem number_rule_unique (hr : r = .decimal ∨ r = .hexadecimal ∨ r = .floating)
    (hr' : r' = .decimal ∨ r' = .hexadecimal ∨ r' = .floating) (h : Follows r w)
    (h' : Follows r' w) : r = r' := by
  rcases hr with rfl | rfl | rfl
  · rcases hr' with rfl | rfl | rfl
    · rfl
    · exact absurd h' (decimal_ne_hexadecimal h)
    · exact absurd h' (decimal_ne_floating h)
  · rcases hr' with rfl | rfl | rfl
    · exact absurd h (decimal_ne_hexadecimal h')
    · rfl
    · exact absurd h' (hexadecimal_ne_floating h)
  · rcases hr' with rfl | rfl | rfl
    · exact absurd h (decimal_ne_floating h')
    · exact absurd h (hexadecimal_ne_floating h')
    · rfl

theorem fixed_rule_unique {s s' : String} {k k' : Kind} (h : Follows (.fixed s k) w)
    (h' : Follows (.fixed s' k') w) : Rule.fixed s k = .fixed s' k' := by
  obtain ⟨hs, hw⟩ := follows_fixed_iff.1 h
  obtain ⟨hs', hw'⟩ := follows_fixed_iff.1 h'
  obtain rfl : s = s' := String.toList_inj.1 (hw.symm.trans hw')
  rw [fixed_unique hs hs']

theorem Chosen.unique (h : Chosen r w) (h' : Chosen r' w) : r = r' := by
  obtain ⟨c, v, rfl, ho⟩ := h.follows.exists_cons
  have ho' := h'.follows.opens
  by_cases hc : startsName c = true
  · rcases Rule.opens_letter ho hc with rfl | ⟨s, k, rfl, -⟩
    · rcases Rule.opens_letter ho' hc with rfl | ⟨s', k', rfl, -⟩
      · rfl
      · exact absurd h'.follows (h.no_name rfl s' k')
    · rcases Rule.opens_letter ho' hc with rfl | ⟨s', k', rfl, -⟩
      · exact absurd h.follows (h'.no_name rfl s k)
      · exact fixed_rule_unique h.follows h'.follows
  · by_cases hd : c.isDigit = true ∨ c = '.'
    · exact number_rule_unique (Rule.opens_number ho hd) (Rule.opens_number ho' hd)
        h.follows h'.follows
    · by_cases hq : c = '\''
      · subst hq
        rw [Rule.opens_quote ho, Rule.opens_quote ho']
      · have hm : opensMark c = true := by
          rw [opensMark_iff]
          simp only [not_or, Bool.not_eq_true] at hc hd
          exact ⟨hc, hd.1, hd.2, hq⟩
        obtain ⟨s, k, rfl, -⟩ := Rule.opens_mark ho hm
        obtain ⟨s', k', rfl, -⟩ := Rule.opens_mark ho' hm
        exact fixed_rule_unique h.follows h'.follows

/-- All rules but that for names are chosen wherever they apply. -/
theorem Follows.chosen (h : Follows r w) (hr : r ≠ .name) : Chosen r w :=
  ⟨h, fun hn => absurd hn hr⟩

/-! ## Verdicts on words -/

theorem verdict_fixed_iff {s : String} : Verdict (.fixed s k) w rest l text ↔ l = k ∧ text = w := by
  constructor
  · intro h
    cases h with
    | fixed => exact ⟨rfl, rfl⟩
    | number h _ => cases h
    | numberGlued h _ => cases h
  · rintro ⟨rfl, rfl⟩
    exact .fixed

theorem verdict_name_iff : Verdict .name w rest l text ↔
    l = (if w.length ≤ longestName then .name else .invalid .nameTooLong) ∧ text = w := by
  constructor
  · intro h
    cases h with
    | name h => exact ⟨by rw [if_pos h], rfl⟩
    | nameTooLong h => exact ⟨by rw [if_neg (Nat.not_le.2 h)], rfl⟩
    | number h _ => cases h
    | numberGlued h _ => cases h
  · rintro ⟨rfl, rfl⟩
    by_cases h : text.length ≤ longestName
    · rw [if_pos h]
      exact .name h
    · rw [if_neg h]
      exact .nameTooLong (Nat.not_le.1 h)

/-! ## Verdicts on quotes -/

theorem isClosedQuote_iff : isClosedQuote w = true ↔ ∃ m, IsQuoted m ∧ w = '\'' :: (m ++ ['\'']) := by
  constructor
  · intro h
    unfold isClosedQuote at h
    split at h
    · rename_i q c r
      simp only [Bool.and_eq_true, beq_iff_eq, bne_iff_ne] at h
      obtain ⟨⟨rfl, hc⟩, rfl⟩ := h
      exact ⟨[c], .plain hc, rfl⟩
    · rename_i q b c r
      simp only [Bool.and_eq_true, beq_iff_eq] at h
      obtain ⟨⟨rfl, rfl⟩, rfl⟩ := h
      exact ⟨['\\', c], .escaped c, rfl⟩
    · cases h
  · rintro ⟨m, hm, rfl⟩
    cases hm with
    | plain hc => simpa [isClosedQuote] using hc
    | escaped c => rfl

theorem verdict_quote_iff : Verdict .quote w rest l text ↔
    l = (if isClosedQuote w then .character else .invalid .quoteOpen) ∧ text = w := by
  constructor
  · intro h
    cases h with
    | character h => exact ⟨by rw [if_pos (isClosedQuote_iff.2 ⟨_, h, rfl⟩)], rfl⟩
    | quoteOpen h =>
      have hw : ¬isClosedQuote w = true := by
        intro hw
        obtain ⟨m, hm, heq⟩ := isClosedQuote_iff.1 hw
        exact h m hm heq
      exact ⟨by rw [if_neg hw], rfl⟩
    | number h _ => cases h
    | numberGlued h _ => cases h
  · rintro ⟨rfl, rfl⟩
    by_cases h : isClosedQuote text = true
    · rw [if_pos h]
      obtain ⟨m, hm, rfl⟩ := isClosedQuote_iff.1 h
      exact .character hm
    · rw [if_neg h]
      refine .quoteOpen ?_
      intro m hm heq
      exact h (isClosedQuote_iff.2 ⟨m, hm, heq⟩)

/-! ## Verdicts on numbers -/

theorem ofNumber_of_follower (h : ∀ c, rest.head? = some c → mayFollowNumber c = true) :
    Lexeme.ofNumber k w rest = ⟨k, w, rest⟩ := by
  cases rest with
  | nil => rfl
  | cons c rest =>
    have hc : mayFollowNumber c = true := h c rfl
    simp [Lexeme.ofNumber, hc]

theorem ofNumber_glued (h : mayFollowNumber c = false) :
    Lexeme.ofNumber k w (c :: rest) = ⟨.invalid .numberGlued, w ++ [c], rest⟩ := by
  simp [Lexeme.ofNumber, h]

theorem judgeNumber_of_over {shape : Shape} {f : Fault} (h : overLimit? shape w = some f) :
    Lexeme.judgeNumber k ⟨shape, w, rest⟩ = ⟨.invalid f, w, rest⟩ := by
  unfold Lexeme.judgeNumber
  dsimp only
  rw [h]

theorem judgeNumber_of_within {shape : Shape} (h : overLimit? shape w = none) :
    Lexeme.judgeNumber k ⟨shape, w, rest⟩ = Lexeme.ofNumber k w rest := by
  unfold Lexeme.judgeNumber
  dsimp only
  rw [h]

theorem Within.decimal_iff : Within .decimal w k ↔ k = .decimal ∧ w.length ≤ mostDecimalDigits := by
  constructor
  · intro h
    cases h with
    | decimal h => exact ⟨rfl, h⟩
  · rintro ⟨rfl, h⟩
    exact .decimal h

theorem Within.hexadecimal_iff : Within .hexadecimal w k ↔
    k = .hexadecimal ∧ 2 < w.length ∧ w.length ≤ 2 + mostHexDigits := by
  constructor
  · intro h
    cases h with
    | hexadecimal hw h => exact ⟨rfl, hw, h⟩
  · rintro ⟨rfl, hw, h⟩
    exact .hexadecimal hw h

/-- A fraction is parted at its first point. -/
theorem takeWhile_point {a b : List Char} (ha : '.' ∉ a) :
    (a ++ '.' :: b).takeWhile (· ≠ '.') = a ∧ (a ++ '.' :: b).dropWhile (· ≠ '.') = '.' :: b := by
  have hp : ∀ c ∈ a, decide (c ≠ '.') = true := by
    intro c hc
    rw [decide_eq_true_eq]
    rintro rfl
    exact ha hc
  refine ⟨?_, ?_⟩
  · rw [List.takeWhile_append_of_pos hp]
    simp
  · rw [List.dropWhile_append_of_pos hp]
    simp

theorem point_unique {a b a' b' : List Char} (ha : '.' ∉ a) (ha' : '.' ∉ a')
    (h : a ++ '.' :: b = a' ++ '.' :: b') : a = a' ∧ b = b' := by
  obtain ⟨htake, hdrop⟩ := takeWhile_point (b := b) ha
  obtain ⟨htake', hdrop'⟩ := takeWhile_point (b := b') ha'
  rw [h, htake'] at htake
  rw [h, hdrop'] at hdrop
  exact ⟨htake.symm, (List.cons.inj hdrop).2.symm⟩

theorem Within.floating_iff {a b : List Char} (hp : '.' ∉ a) :
    Within .floating (a ++ '.' :: b) k ↔
      k = .floating ∧ a.length ≤ mostFloatDigits ∧ b.length ≤ mostFloatDigits := by
  constructor
  · intro h
    obtain ⟨w, hw⟩ : ∃ w, w = a ++ '.' :: b := ⟨_, rfl⟩
    rw [← hw] at h
    cases h with
    | floating hp' ha hb =>
      obtain ⟨rfl, rfl⟩ := point_unique hp' hp hw
      exact ⟨rfl, ha, hb⟩
  · rintro ⟨rfl, ha, hb⟩
    exact .floating hp ha hb

/-- A number has one kind. -/
theorem Within.kind_unique (h : Within r w k) (h' : Within r w l) : l = k := by
  cases h with
  | decimal _ => exact (decimal_iff.1 h').1
  | hexadecimal _ _ => exact (hexadecimal_iff.1 h').1
  | floating hp _ _ => exact ((floating_iff hp).1 h').1

/-- Nothing that is within its limits is too long or too short. -/
theorem verdict_of_within (hw : Within r w k) (hv : Verdict r w rest l text) :
    l = (Lexeme.ofNumber k w rest).kind ∧ text = (Lexeme.ofNumber k w rest).text := by
  cases hv with
  | fixed => cases hw
  | name _ => cases hw
  | nameTooLong _ => cases hw
  | decimalTooLong h => exact absurd (Within.decimal_iff.1 hw).2 (Nat.not_le.2 h)
  | hexWithoutDigits h => exact absurd (Within.hexadecimal_iff.1 hw).2.1 (by omega)
  | hexTooLong h => exact absurd (Within.hexadecimal_iff.1 hw).2.2 (Nat.not_le.2 h)
  | floatTooLong hp h =>
    obtain ⟨-, ha, hb⟩ := (Within.floating_iff hp).1 hw
    omega
  | number h hr =>
    rw [ofNumber_of_follower hr]
    exact ⟨hw.kind_unique h, rfl⟩
  | numberGlued h hc =>
    rw [ofNumber_glued hc]
    exact ⟨rfl, rfl⟩
  | character _ => cases hw
  | quoteOpen _ => cases hw

theorem verdict_within (hw : Within r w k) :
    Verdict r w rest (Lexeme.ofNumber k w rest).kind (Lexeme.ofNumber k w rest).text := by
  by_cases h : ∀ c, rest.head? = some c → mayFollowNumber c = true
  · rw [ofNumber_of_follower h]
    exact .number hw h
  · simp only [not_forall, Bool.not_eq_true] at h
    obtain ⟨c, hhead, hc⟩ := h
    obtain ⟨rest', rfl⟩ := List.head?_eq_some_iff.1 hhead
    rw [ofNumber_glued hc]
    exact .numberGlued hw hc

/-- The verdict on a number, with the limits of its shape. -/
theorem verdict_number_iff {shape : Shape} (hw : overLimit? shape w = none → Within r w k)
    (ho : ∀ f, overLimit? shape w = some f → Verdict r w rest (.invalid f) w ∧
      ∀ l text, Verdict r w rest l text → l = .invalid f ∧ text = w) :
    Verdict r w rest l text ↔ l = (Lexeme.judgeNumber k ⟨shape, w, rest⟩).kind ∧
      text = (Lexeme.judgeNumber k ⟨shape, w, rest⟩).text := by
  cases h : overLimit? shape w with
  | none =>
    rw [judgeNumber_of_within h]
    constructor
    · exact verdict_of_within (hw h)
    · rintro ⟨rfl, rfl⟩
      exact verdict_within (hw h)
  | some f =>
    rw [judgeNumber_of_over h]
    constructor
    · exact (ho f h).2 l text
    · rintro ⟨rfl, rfl⟩
      exact (ho f h).1

theorem verdict_decimal_iff : Verdict .decimal w rest l text ↔
    l = (Lexeme.judgeNumber .decimal ⟨.decimal, w, rest⟩).kind ∧
      text = (Lexeme.judgeNumber .decimal ⟨.decimal, w, rest⟩).text := by
  apply verdict_number_iff
  · intro h
    rw [Within.decimal_iff]
    simpa [overLimit?] using h
  · intro f h
    have hw : mostDecimalDigits < w.length ∧ Fault.decimalTooLong = f := by
      simpa [overLimit?] using h
    obtain ⟨hw, rfl⟩ := hw
    refine ⟨.decimalTooLong hw, ?_⟩
    intro l text hv
    cases hv with
    | decimalTooLong _ => exact ⟨rfl, rfl⟩
    | number h _ => exact absurd (Within.decimal_iff.1 h).2 (Nat.not_le.2 hw)
    | numberGlued h _ => exact absurd (Within.decimal_iff.1 h).2 (Nat.not_le.2 hw)

theorem verdict_hexadecimal_iff (hf : Follows .hexadecimal w) :
    Verdict .hexadecimal w rest l text ↔
      l = (Lexeme.judgeNumber .hexadecimal ⟨.hexadecimal, w, rest⟩).kind ∧
        text = (Lexeme.judgeNumber .hexadecimal ⟨.hexadecimal, w, rest⟩).text := by
  have hlen : 2 ≤ w.length := by
    cases hf with
    | hexadecimal _ _ => simp
  have hlimit : overLimit? .hexadecimal w =
      if w.length ≤ 2 then some .hexWithoutDigits
      else if w.length ≤ 2 + mostHexDigits then none
      else some .hexTooLong := rfl
  apply verdict_number_iff
  · intro h
    rw [hlimit] at h
    rw [Within.hexadecimal_iff]
    split at h
    · cases h
    · split at h
      · exact ⟨rfl, by omega, ‹_›⟩
      · cases h
  · intro f h
    rw [hlimit] at h
    split at h
    · cases h
      have hw : w.length = 2 := by omega
      refine ⟨.hexWithoutDigits hw, ?_⟩
      intro l text hv
      cases hv with
      | hexWithoutDigits _ => exact ⟨rfl, rfl⟩
      | hexTooLong h => omega
      | number h _ => exact absurd (Within.hexadecimal_iff.1 h).2.1 (by omega)
      | numberGlued h _ => exact absurd (Within.hexadecimal_iff.1 h).2.1 (by omega)
    · split at h
      · cases h
      · cases h
        have hw : 2 + mostHexDigits < w.length := by omega
        refine ⟨.hexTooLong hw, ?_⟩
        intro l text hv
        cases hv with
        | hexWithoutDigits h => omega
        | hexTooLong _ => exact ⟨rfl, rfl⟩
        | number h _ => exact absurd (Within.hexadecimal_iff.1 h).2.2 (by omega)
        | numberGlued h _ => exact absurd (Within.hexadecimal_iff.1 h).2.2 (by omega)

/-- A fraction that is not within its limits is too long. -/
theorem verdict_floating_of_over (h : ¬Within .floating w .floating)
    (hv : Verdict .floating w rest l text) : l = .invalid .floatTooLong ∧ text = w := by
  cases hv with
  | floatTooLong _ _ => exact ⟨rfl, rfl⟩
  | number hw _ =>
    cases hw with
    | floating hp ha hb => exact absurd (.floating hp ha hb) h
  | numberGlued hw _ =>
    cases hw with
    | floating hp ha hb => exact absurd (.floating hp ha hb) h

theorem verdict_floating_iff (hf : Follows .floating w) :
    Verdict .floating w rest l text ↔
      l = (Lexeme.judgeNumber .floating ⟨.floating, w, rest⟩).kind ∧
        text = (Lexeme.judgeNumber .floating ⟨.floating, w, rest⟩).text := by
  obtain ⟨a, b, rfl, ha, -, -⟩ := hf.floating_eq
  have hp : '.' ∉ a := fun hm => by cases ha '.' hm
  obtain ⟨htake, hdrop⟩ := takeWhile_point (b := b) hp
  have hlimit : overLimit? .floating (a ++ '.' :: b) =
      if ((a ++ '.' :: b).takeWhile (· ≠ '.')).length ≤ mostFloatDigits ∧
          ((a ++ '.' :: b).dropWhile (· ≠ '.')).length ≤ 1 + mostFloatDigits then none
      else some .floatTooLong := rfl
  rw [htake, hdrop, List.length_cons] at hlimit
  apply verdict_number_iff
  · intro h
    rw [hlimit] at h
    rw [Within.floating_iff hp]
    split at h
    · exact ⟨rfl, by omega⟩
    · cases h
  · intro f h
    rw [hlimit] at h
    split at h
    · cases h
    · cases h
      rename_i hlong
      have hover : mostFloatDigits < a.length ∨ mostFloatDigits < b.length := by omega
      refine ⟨.floatTooLong hp hover, ?_⟩
      intro l text hv
      refine verdict_floating_of_over ?_ hv
      rw [Within.floating_iff hp]
      omega

end OnePass.Lexicon
