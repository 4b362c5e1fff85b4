-- What is cut off the head of a text is the longest match of any rule. Its
-- first character leaves few rules, and each of them ends where the cut
-- ends, or before.
import OnePass.Proofs.Lexicon.Gaps
import OnePass.Proofs.Lexicon.Heads

namespace OnePass.Lexicon

variable {r : Rule} {c : Char} {cs v w : List Char}

theorem LongestMatch.unique (hv : LongestMatch cs v) (hw : LongestMatch cs w) : v = w :=
  eq_of_prefixes hv.beginning hw.beginning (hw.longest v hv.beginning hv.rule)
    (hv.longest w hw.beginning hw.rule)

/-- A run of characters of one class ends where the longest one ends. -/
theorem length_le_takeWhile {p : Char → Bool} (h : v <+: cs) (hv : ∀ c ∈ v, p c = true) :
    v.length ≤ (cs.takeWhile p).length := by
  obtain ⟨rest, rfl⟩ := h
  rw [List.takeWhile_append_of_pos hv, List.length_append]
  exact Nat.le_add_right _ _

theorem of_mem_takeWhile {p : Char → Bool} (c : Char) (h : c ∈ cs.takeWhile p) : p c = true :=
  List.mem_takeWhile_imp h

/-! ## What follows a rule -/

theorem follows_fixed_iff {s : String} {k : Kind} :
    Follows (.fixed s k) w ↔ (s, k) ∈ fixed ∧ w = s.toList := by
  constructor
  · intro h
    cases h with
    | fixed h => exact ⟨h, rfl⟩
  · rintro ⟨h, rfl⟩
    exact .fixed h

theorem Follows.floating_eq (h : Follows .floating w) :
    ∃ a b, w = a ++ '.' :: b ∧ Digits a ∧ Digits b ∧ (a ≠ [] ∨ b ≠ []) := by
  cases h with
  | floating ha hb hne => exact ⟨_, _, rfl, ha, hb, hne⟩

theorem Follows.quote_eq (h : Follows .quote w) :
    ∃ m e, w = '\'' :: (m ++ e) ∧ (m = [] ∨ IsQuoted m) ∧ (e = [] ∨ e = ['\'']) := by
  cases h with
  | quote hm he => exact ⟨_, _, rfl, hm, he⟩

theorem continues_of_follows (h : Follows r (c :: w)) (hc : startsName c = true) :
    ∀ d ∈ w, continuesName d = true := by
  rcases Rule.opens_letter h.opens hc with rfl | ⟨s, k, rfl, hw⟩
  · cases h with
    | name _ hw => exact hw
  · have hs := looksLikeName_of_mem_words _ hw
    unfold looksLikeName at hs
    rw [← (follows_fixed_iff.1 h).2, Bool.and_eq_true, List.all_eq_true] at hs
    exact hs.2

/-! ## Words -/

theorem longestMatch_word (hc : startsName c = true) (cs : List Char) :
    LongestMatch (c :: cs) (c :: cs.takeWhile continuesName) where
  beginning := (List.prefix_cons_inj c).2 (List.takeWhile_prefix _)
  rule := ⟨.name, .name hc of_mem_takeWhile⟩
  longest := by
    rintro v hv ⟨r, hr⟩
    obtain ⟨d, w, rfl, -⟩ := hr.exists_cons
    obtain ⟨rfl, hw⟩ := List.cons_prefix_cons.1 hv
    rw [List.length_cons, List.length_cons]
    exact Nat.succ_le_succ (length_le_takeWhile hw (continues_of_follows hr hc))

/-! ## Numbers -/

theorem number_hexadecimal {x : Char} (hx : x = 'x' ∨ x = 'X') (cs : List Char) :
    Cut.number ('0' :: x :: cs) =
      ⟨.hexadecimal, '0' :: x :: cs.takeWhile isHexDigit, cs.dropWhile isHexDigit⟩ := by
  rcases hx with rfl | rfl <;> rfl

/-- The text starts like a hexadecimal number. -/
def OpensHex (cs : List Char) : Prop := ∃ x w, cs = '0' :: x :: w ∧ (x = 'x' ∨ x = 'X')

theorem number_of_not_opensHex (h : ¬OpensHex cs) :
    (∃ rest, cs.dropWhile Char.isDigit = '.' :: rest ∧ Cut.number cs =
      ⟨.floating, cs.takeWhile Char.isDigit ++ '.' :: rest.takeWhile Char.isDigit,
        rest.dropWhile Char.isDigit⟩) ∨
    (∀ rest, cs.dropWhile Char.isDigit ≠ '.' :: rest) ∧ Cut.number cs =
      ⟨.decimal, cs.takeWhile Char.isDigit, cs.dropWhile Char.isDigit⟩ := by
  unfold Cut.number
  split
  · exact absurd ⟨_, _, rfl, Or.inl rfl⟩ h
  · exact absurd ⟨_, _, rfl, Or.inr rfl⟩ h
  · split
    · rename_i rest hrest
      exact Or.inl ⟨rest, hrest, rfl⟩
    · rename_i hrest
      exact Or.inr ⟨hrest, rfl⟩

theorem isDigit_hexMark {x : Char} (hx : x = 'x' ∨ x = 'X') : x.isDigit = false := by
  rcases hx with rfl | rfl <;> rfl

/-- The digits before a point, and what follows them. -/
theorem digits_point {a b : List Char} (ha : Digits a) (h : a ++ '.' :: b <+: cs) :
    ∃ rest, cs.takeWhile Char.isDigit = a ∧ cs.dropWhile Char.isDigit = '.' :: (b ++ rest) := by
  obtain ⟨rest, rfl⟩ := h
  refine ⟨rest, ?_, ?_⟩
  · rw [List.append_assoc, List.takeWhile_append_of_pos ha]
    simp
  · rw [List.append_assoc, List.dropWhile_append_of_pos ha]
    simp

/-- The digits that come before the `x` do not end at a point. -/
theorem not_point_before_hexMark {x : Char} {a b : List Char} (hx : x = 'x' ∨ x = 'X')
    (ha : Digits a) : ¬a ++ '.' :: b <+: '0' :: x :: cs := by
  intro h
  obtain ⟨rest, -, hdrop⟩ := digits_point ha h
  have hx' : ('0' :: x :: cs).dropWhile Char.isDigit = x :: cs := by
    rw [List.dropWhile_cons_of_pos rfl, List.dropWhile_cons_of_neg]
    rw [isDigit_hexMark hx]
    simp
  rw [hx'] at hdrop
  rw [(List.cons.inj hdrop).1] at hx
  rcases hx with hx | hx <;> cases hx

/-- A number that starts like a hexadecimal one ends where that ends. -/
theorem length_le_hexadecimal {x : Char} (hx : x = 'x' ∨ x = 'X')
    (hv : v <+: '0' :: x :: cs) (hr : Follows r v) :
    v.length ≤ (cs.takeWhile isHexDigit).length + 2 := by
  have hxd := isDigit_hexMark hx
  obtain ⟨d, w, rfl, ho⟩ := hr.exists_cons
  obtain ⟨rfl, hw⟩ := List.cons_prefix_cons.1 hv
  rcases Rule.opens_number ho (Or.inl rfl) with rfl | rfl | rfl
  · -- A run of digits ends before the `x`.
    cases hr with
    | decimal hdigits _ =>
      cases w with
      | nil => simp
      | cons e w =>
        obtain ⟨rfl, -⟩ := List.cons_prefix_cons.1 hw
        rw [hdigits e (by simp)] at hxd
        cases hxd
  · cases hr with
    | hexadecimal _ hhex =>
      obtain ⟨-, hw⟩ := List.cons_prefix_cons.1 hw
      have hl := length_le_takeWhile hw hhex
      simp only [List.length_cons]
      omega
  · -- The digits before a point would have to end at the `x`.
    obtain ⟨a, b, hab, ha, -, -⟩ := hr.floating_eq
    rw [hab] at hv
    exact absurd hv (not_point_before_hexMark hx ha)

theorem longestMatch_hexadecimal {x : Char} (hx : x = 'x' ∨ x = 'X') (cs : List Char) :
    LongestMatch ('0' :: x :: cs) ('0' :: x :: cs.takeWhile isHexDigit) where
  beginning := (List.prefix_cons_inj _).2 ((List.prefix_cons_inj x).2 (List.takeWhile_prefix _))
  rule := ⟨.hexadecimal, .hexadecimal hx of_mem_takeWhile⟩
  longest := by
    rintro v hv ⟨r, hr⟩
    exact length_le_hexadecimal hx hv hr

/-- The text starts with a digit or a point. -/
theorem head_of_opensNumber (h : Cut.opensNumber cs = true) :
    ∃ c w, cs = c :: w ∧ (c.isDigit = true ∨ c = '.') := by
  cases cs with
  | nil => cases h
  | cons c w =>
    by_cases hp : c = '.'
    · exact ⟨c, w, rfl, Or.inr hp⟩
    · refine ⟨c, w, rfl, Or.inl ?_⟩
      simpa [Cut.opensNumber, hp] using h

/-- Of the rules for a number, that of hexadecimal ones needs an `x`. -/
theorem number_rule (h : Cut.opensNumber cs = true) (hx : ¬OpensHex cs) (hv : v <+: cs)
    (hr : Follows r v) : r = .decimal ∨ r = .floating := by
  obtain ⟨c, u, rfl, hc⟩ := head_of_opensNumber h
  obtain ⟨d, w, rfl, ho⟩ := hr.exists_cons
  obtain ⟨rfl, hw⟩ := List.cons_prefix_cons.1 hv
  rcases Rule.opens_number ho hc with rfl | rfl | rfl
  · exact Or.inl rfl
  · cases hr with
    | @hexadecimal x w hx' _ =>
      obtain ⟨rest, rfl⟩ := hw
      exact absurd ⟨x, w ++ rest, rfl, hx'⟩ hx
  · exact Or.inr rfl

/-- A fraction is the longest match if the digits end at a point. -/
theorem longestMatch_floating {rest : List Char} (h : Cut.opensNumber cs = true)
    (hx : ¬OpensHex cs) (hp : cs.dropWhile Char.isDigit = '.' :: rest) :
    LongestMatch cs (cs.takeWhile Char.isDigit ++ '.' :: rest.takeWhile Char.isDigit) ∧
      Follows .floating (cs.takeWhile Char.isDigit ++ '.' :: rest.takeWhile Char.isDigit) := by
  have hcs : cs = cs.takeWhile Char.isDigit ++ '.' :: rest := by
    rw [← hp, List.takeWhile_append_dropWhile]
  have hf : Follows .floating (cs.takeWhile Char.isDigit ++ '.' :: rest.takeWhile Char.isDigit) := by
    refine .floating of_mem_takeWhile of_mem_takeWhile ?_
    by_cases ha : cs.takeWhile Char.isDigit = []
    · right
      rw [ha, List.nil_append] at hcs
      rw [hcs] at h
      cases rest with
      | nil => cases h
      | cons d rest =>
        have hd : d.isDigit = true := h
        rw [List.takeWhile_cons_of_pos hd]
        exact List.cons_ne_nil _ _
    · exact Or.inl ha
  refine ⟨⟨?_, ⟨.floating, hf⟩, ?_⟩, hf⟩
  · refine ⟨rest.dropWhile Char.isDigit, ?_⟩
    rw [List.append_assoc, List.cons_append, List.takeWhile_append_dropWhile]
    exact hcs.symm
  · rintro v hv ⟨r, hr⟩
    rw [List.length_append, List.length_cons]
    rcases number_rule h hx hv hr with rfl | rfl
    · cases hr with
      | decimal hdigits _ =>
        have hl := length_le_takeWhile hv hdigits
        omega
    · obtain ⟨a, b, rfl, ha, hb, -⟩ := hr.floating_eq
      obtain ⟨more, htake, hdrop⟩ := digits_point ha hv
      rw [hp] at hdrop
      have hl := length_le_takeWhile ⟨more, (List.cons.inj hdrop).2.symm⟩ hb
      rw [htake, List.length_append, List.length_cons]
      omega

/-- Else the run of digits is. -/
theorem longestMatch_decimal (h : Cut.opensNumber cs = true) (hx : ¬OpensHex cs)
    (hp : ∀ rest, cs.dropWhile Char.isDigit ≠ '.' :: rest) :
    LongestMatch cs (cs.takeWhile Char.isDigit) ∧
      Follows .decimal (cs.takeWhile Char.isDigit) := by
  have hf : Follows .decimal (cs.takeWhile Char.isDigit) := by
    refine .decimal of_mem_takeWhile ?_
    obtain ⟨c, w, rfl, hc | rfl⟩ := head_of_opensNumber h
    · rw [List.takeWhile_cons_of_pos hc]
      exact List.cons_ne_nil _ _
    · exact absurd (List.dropWhile_cons_of_neg (by decide)) (hp w)
  refine ⟨⟨List.takeWhile_prefix _, ⟨.decimal, hf⟩, ?_⟩, hf⟩
  rintro v hv ⟨r, hr⟩
  rcases number_rule h hx hv hr with rfl | rfl
  · cases hr with
    | decimal hdigits _ => exact length_le_takeWhile hv hdigits
  · obtain ⟨a, b, rfl, ha, -, -⟩ := hr.floating_eq
    obtain ⟨more, -, hdrop⟩ := digits_point ha hv
    exact absurd hdrop (hp _)

/-! ## Quotes -/

/-- What may stand behind an opening quote. -/
def IsTail (w : List Char) : Prop :=
  ∃ m e, w = m ++ e ∧ (m = [] ∨ IsQuoted m) ∧ (e = [] ∨ e = ['\''])

theorem isTail_iff : IsTail w ↔ w = [] ∨ w = ['\''] ∨ (∃ c, c ≠ '\\' ∧ w = [c]) ∨
    (∃ c, c ≠ '\\' ∧ w = [c, '\'']) ∨ (∃ c, w = ['\\', c]) ∨ ∃ c, w = ['\\', c, '\''] := by
  constructor
  · rintro ⟨m, e, rfl, hm, he⟩
    rcases hm with rfl | hm
    · rcases he with rfl | rfl <;> simp
    · cases hm with
      | @plain c hc => rcases he with rfl | rfl <;> simp [hc]
      | escaped c => rcases he with rfl | rfl <;> simp
  · rintro (rfl | rfl | ⟨c, hc, rfl⟩ | ⟨c, hc, rfl⟩ | ⟨c, rfl⟩ | ⟨c, rfl⟩)
    · exact ⟨[], [], rfl, Or.inl rfl, Or.inl rfl⟩
    · exact ⟨[], ['\''], rfl, Or.inl rfl, Or.inr rfl⟩
    · exact ⟨[c], [], rfl, Or.inr (.plain hc), Or.inl rfl⟩
    · exact ⟨[c], ['\''], rfl, Or.inr (.plain hc), Or.inr rfl⟩
    · exact ⟨['\\', c], [], rfl, Or.inr (.escaped c), Or.inl rfl⟩
    · exact ⟨['\\', c], ['\''], rfl, Or.inr (.escaped c), Or.inr rfl⟩

theorem quoteTail_escaped (h : w.head? ≠ some '\'') :
    (Cut.quoteTail ('\\' :: c :: w)).1 = ['\\', c] := by
  unfold Cut.quoteTail
  split <;> grind

theorem quoteTail_plain (hc : c ≠ '\\') (h : w.head? ≠ some '\'') :
    (Cut.quoteTail (c :: w)).1 = [c] := by
  unfold Cut.quoteTail
  split <;> grind

theorem quoteTail_closed (hc : c ≠ '\\') : (Cut.quoteTail (c :: '\'' :: w)).1 = [c, '\''] := by
  unfold Cut.quoteTail
  split <;> grind

theorem IsTail.length_le_of_plain (hv : IsTail v) (hc : c ≠ '\\') (h : v <+: c :: cs) :
    v.length ≤ 1 ∨ v.length = 2 ∧ cs.head? = some '\'' := by
  rcases isTail_iff.1 hv with rfl | rfl | ⟨d, -, rfl⟩ | ⟨d, -, rfl⟩ | ⟨d, rfl⟩ | ⟨d, rfl⟩
  · simp
  · simp
  · simp
  · obtain ⟨-, rest, rfl⟩ := List.cons_prefix_cons.1 h
    exact Or.inr ⟨rfl, rfl⟩
  · exact absurd (List.cons_prefix_cons.1 h).1.symm hc
  · exact absurd (List.cons_prefix_cons.1 h).1.symm hc

theorem IsTail.length_le_of_escaped (hv : IsTail v) (h : v <+: '\\' :: c :: cs) :
    v.length ≤ 2 ∨ v.length = 3 ∧ cs.head? = some '\'' := by
  rcases isTail_iff.1 hv with rfl | rfl | ⟨d, -, rfl⟩ | ⟨d, -, rfl⟩ | ⟨d, rfl⟩ | ⟨d, rfl⟩
  · simp
  · simp
  · simp
  · simp
  · simp
  · obtain ⟨-, h⟩ := List.cons_prefix_cons.1 h
    obtain ⟨-, rest, rfl⟩ := List.cons_prefix_cons.1 h
    exact Or.inr ⟨rfl, rfl⟩

/-- The tail of a quote that is taken is the longest one. -/
theorem quoteTail_longest (cs : List Char) : IsTail (Cut.quoteTail cs).1 ∧
    ∀ v, v <+: cs → IsTail v → v.length ≤ (Cut.quoteTail cs).1.length := by
  cases cs with
  | nil =>
    refine ⟨isTail_iff.2 (Or.inl rfl), ?_⟩
    intro v h _
    rw [List.prefix_nil.1 h]
    exact Nat.zero_le _
  | cons c cs =>
    by_cases hc : c = '\\'
    · subst hc
      cases cs with
      | nil =>
        -- A backslash alone is no tail, so nothing is taken.
        refine ⟨isTail_iff.2 (Or.inl rfl), ?_⟩
        intro v h hv
        rcases List.prefix_cons_iff.1 h with rfl | ⟨w, rfl, hw⟩
        · exact Nat.zero_le _
        · rw [List.prefix_nil.1 hw, isTail_iff] at hv
          simp at hv
      | cons c cs =>
        by_cases hq : cs.head? = some '\''
        · obtain ⟨cs', rfl⟩ := List.head?_eq_some_iff.1 hq
          refine ⟨isTail_iff.2 (by simp [Cut.quoteTail]), ?_⟩
          intro v h hv
          have hl : v.length ≤ 3 := by
            have := hv.length_le_of_escaped h
            omega
          exact hl
        · rw [quoteTail_escaped hq]
          refine ⟨isTail_iff.2 (by simp), ?_⟩
          intro v h hv
          exact (hv.length_le_of_escaped h).resolve_right fun h => hq h.2
    · by_cases hq : cs.head? = some '\''
      · obtain ⟨cs', rfl⟩ := List.head?_eq_some_iff.1 hq
        rw [quoteTail_closed hc]
        refine ⟨isTail_iff.2 (by simp [hc]), ?_⟩
        intro v h hv
        have hl : v.length ≤ 2 := by
          have := hv.length_le_of_plain hc h
          omega
        exact hl
      · rw [quoteTail_plain hc hq]
        refine ⟨isTail_iff.2 (by simp [hc]), ?_⟩
        intro v h hv
        exact (hv.length_le_of_plain hc h).resolve_right fun h => hq h.2

theorem longestMatch_quote (cs : List Char) :
    LongestMatch ('\'' :: cs) ('\'' :: (Cut.quoteTail cs).1) ∧
      Follows .quote ('\'' :: (Cut.quoteTail cs).1) := by
  obtain ⟨⟨m, e, ht, hm, he⟩, hlongest⟩ := quoteTail_longest cs
  have hf : Follows .quote ('\'' :: (Cut.quoteTail cs).1) := by
    rw [ht]
    exact .quote hm he
  refine ⟨⟨?_, ⟨.quote, hf⟩, ?_⟩, hf⟩
  · exact (List.prefix_cons_inj _).2 ⟨(Cut.quoteTail cs).2, Cut.quoteTail_append cs⟩
  · rintro v hv ⟨r, hr⟩
    obtain ⟨d, w, rfl, ho⟩ := hr.exists_cons
    obtain ⟨rfl, hw⟩ := List.cons_prefix_cons.1 hv
    obtain rfl := Rule.opens_quote ho
    obtain ⟨m', e', heq, hm', he'⟩ := hr.quote_eq
    exact Nat.succ_le_succ (hlongest w hw ⟨m', e', (List.cons.inj heq).2, hm', he'⟩)

/-! ## Marks -/

/-- The text starts with no word, number or quote. -/
structure MarkOnly (c : Char) (cs : List Char) : Prop where
  name : startsName c = false
  number : Cut.opensNumber (c :: cs) = false
  quote : c ≠ '\''

theorem MarkOnly.not_isDigit (h : MarkOnly c cs) : c.isDigit = false := by
  by_cases hp : c = '.'
  · subst hp
    rfl
  · simpa [Cut.opensNumber, hp] using h.number

/-- Only marks can follow then. A point alone is none. -/
theorem MarkOnly.rule (h : MarkOnly c cs) (hv : v <+: c :: cs) (hr : Follows r v) :
    ∃ s k, r = .fixed s k ∧ (s, k) ∈ marks ∧ v = s.toList := by
  obtain ⟨d, w, rfl, ho⟩ := hr.exists_cons
  obtain ⟨rfl, hw⟩ := List.cons_prefix_cons.1 hv
  by_cases hp : d = '.'
  · subst hp
    rcases Rule.opens_number ho (Or.inr rfl) with rfl | rfl | rfl
    · cases ho
    · cases ho
    · obtain ⟨a, b, hab, ha, hb, hne⟩ := hr.floating_eq
      cases a with
      | cons e a =>
        have he := ha e List.mem_cons_self
        rw [← (List.cons.inj hab).1] at he
        cases he
      | nil =>
        obtain ⟨e, b, rfl⟩ := List.exists_cons_of_ne_nil (hne.resolve_left (fun h => h rfl))
        rw [(List.cons.inj hab).2] at hw
        obtain ⟨rest, rfl⟩ := hw
        have hn : e.isDigit = false := h.number
        rw [hb e List.mem_cons_self] at hn
        cases hn
  · have hm : opensMark d = true := opensMark_iff.2 ⟨h.name, h.not_isDigit, hp, h.quote⟩
    obtain ⟨s, k, rfl, hs⟩ := Rule.opens_mark ho hm
    exact ⟨s, k, rfl, hs, (follows_fixed_iff.1 hr).2⟩

/-- So what follows is a mark of one character or of two. -/
theorem MarkOnly.cases (h : MarkOnly c cs) (hv : v <+: c :: cs) (hr : Follows r v) :
    (v = [c] ∧ ∃ k, Cut.single? c = some k) ∨
      ∃ d k, v = [c, d] ∧ cs.head? = some d ∧ Cut.pair? c d = some k := by
  obtain ⟨s, k, rfl, hs, rfl⟩ := h.rule hv hr
  rcases mark_cases hs with ⟨e, he, -, hk⟩ | ⟨e, d, he, -, hk⟩
  · rw [he] at hv ⊢
    obtain ⟨rfl, -⟩ := List.cons_prefix_cons.1 hv
    exact Or.inl ⟨rfl, k, hk⟩
  · rw [he] at hv ⊢
    obtain ⟨rfl, rest, rfl⟩ := List.cons_prefix_cons.1 hv
    exact Or.inr ⟨d, k, rfl, rfl, hk⟩

theorem MarkOnly.longestMatch_pair {d : Char} {k : Kind} (h : MarkOnly c (d :: cs))
    (hk : Cut.pair? c d = some k) :
    LongestMatch (c :: d :: cs) [c, d] ∧ Follows (.fixed (String.ofList [c, d]) k) [c, d] := by
  have hf : Follows (.fixed (String.ofList [c, d]) k) [c, d] :=
    follows_fixed_iff.2 ⟨List.mem_append_right _ (mem_marks_of_pair? hk), by simp⟩
  refine ⟨⟨⟨cs, rfl⟩, ⟨_, hf⟩, ?_⟩, hf⟩
  rintro v hv ⟨r, hr⟩
  rcases h.cases hv hr with ⟨rfl, -⟩ | ⟨e, l, rfl, -⟩ <;> simp

theorem MarkOnly.longestMatch_single {k : Kind} (h : MarkOnly c cs)
    (hk : Cut.single? c = some k) (hp : cs.head?.bind (Cut.pair? c) = none) :
    LongestMatch (c :: cs) [c] ∧ Follows (.fixed (String.ofList [c]) k) [c] := by
  have hf : Follows (.fixed (String.ofList [c]) k) [c] :=
    follows_fixed_iff.2 ⟨List.mem_append_right _ (mem_marks_of_single? hk), by simp⟩
  refine ⟨⟨⟨cs, rfl⟩, ⟨_, hf⟩, ?_⟩, hf⟩
  rintro v hv ⟨r, hr⟩
  rcases h.cases hv hr with ⟨rfl, -⟩ | ⟨d, l, rfl, hd, hl⟩
  · simp
  · rw [hd, Option.bind_some, hl] at hp
    cases hp

/-- Where there is no mark either, no rule applies at all. -/
theorem MarkOnly.not_follows (h : MarkOnly c cs) (hk : Cut.single? c = none)
    (hp : cs.head?.bind (Cut.pair? c) = none) (hv : v <+: c :: cs) : ¬Follows r v := by
  intro hr
  rcases h.cases hv hr with ⟨-, l, hl⟩ | ⟨d, l, -, hd, hl⟩
  · rw [hk] at hl
    cases hl
  · rw [hd, Option.bind_some, hl] at hp
    cases hp

end OnePass.Lexicon
