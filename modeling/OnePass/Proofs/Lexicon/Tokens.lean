-- The tokens that the scanner hands out are those of the rules: at any place
-- of any text, the rules give one token, and the scanner gives that one.
import OnePass.Proofs.Lexicon.Verdicts

namespace OnePass.Lexicon

open Text

variable {r : Rule} {c : Char} {cs w rest text : List Char} {k : Kind}

/-! ## The first lexeme -/

/-- With the longest match and its rule at hand, the lexeme is what the
verdict on them is. -/
theorem lexes_iff_of_longest {x : Lexeme} (hl : LongestMatch cs w) (hw : w ++ rest = cs)
    (hr : Chosen r w) (hv : ∀ l text, Verdict r w rest l text ↔ l = x.kind ∧ text = x.text) :
    Lexes cs k text ↔ k = x.kind ∧ text = x.text := by
  constructor
  · intro h
    cases h with
    | rule hl' hr' hv' =>
      obtain rfl := hl'.unique hl
      obtain rfl := hr'.unique hr
      obtain rfl := List.append_cancel_left hw
      exact (hv _ _).1 hv'
    | stray h =>
      obtain ⟨r', hr'⟩ := hl.rule
      exact absurd hr' (h w hl.beginning r')
  · intro h
    rw [← hw]
    rw [← hw] at hl
    exact .rule hl hr ((hv _ _).2 h)

/-- A text that is a word of the language is spelled by that word. -/
theorem chosen_of_lookup_eq_some (h : words.lookup (String.ofList w) = some k) :
    Chosen (.fixed (String.ofList w) k) w := by
  have hmem : (String.ofList w, k) ∈ fixed := by
    obtain ⟨before, after, heq, -⟩ := List.lookup_eq_some_iff.1 h
    unfold fixed
    rw [heq]
    simp
  have hf : Follows (.fixed (String.ofList w) k) w :=
    follows_fixed_iff.2 ⟨hmem, String.toList_ofList.symm⟩
  exact hf.chosen (by simp)

/-- Any other text that looks like a name is one. -/
theorem chosen_of_lookup_eq_none (hc : startsName c = true)
    (hw : ∀ d ∈ w, continuesName d = true)
    (h : words.lookup (String.ofList (c :: w)) = none) : Chosen .name (c :: w) := by
  refine ⟨.name hc hw, ?_⟩
  intro _ s l hf
  rcases Rule.opens_letter hf.opens hc with hr | ⟨s', l', hr, hmem⟩
  · cases hr
  · cases hr
    have hne := List.lookup_eq_none_iff.1 h _ hmem
    rw [(follows_fixed_iff.1 hf).2, String.ofList_toList] at hne
    simp at hne

/-- A word is one of the language, or else a name. -/
theorem lexes_word (hc : startsName c = true) (cs : List Char) :
    Lexes (c :: cs) k text ↔
      k = wordKind (c :: cs.takeWhile continuesName) ∧ text = c :: cs.takeWhile continuesName := by
  have hl := longestMatch_word hc cs
  have hw : c :: cs.takeWhile continuesName ++ cs.dropWhile continuesName = c :: cs := by
    rw [List.cons_append, List.takeWhile_append_dropWhile]
  unfold wordKind
  cases hk : words.lookup (String.ofList (c :: cs.takeWhile continuesName)) with
  | some l =>
    exact lexes_iff_of_longest (x := ⟨l, _, []⟩) hl hw (chosen_of_lookup_eq_some hk) fun _ _ =>
      verdict_fixed_iff
  | none =>
    have hchosen := chosen_of_lookup_eq_none hc of_mem_takeWhile hk
    exact lexes_iff_of_longest (x := ⟨_, _, []⟩) hl hw hchosen fun _ _ => verdict_name_iff

theorem lexes_number (h : Cut.opensNumber cs = true) :
    Lexes cs k text ↔ k = (Lexeme.ofCut (Cut.number cs)).kind ∧
      text = (Lexeme.ofCut (Cut.number cs)).text := by
  have hw := Cut.number_append cs
  by_cases hx : OpensHex cs
  · obtain ⟨x, cs', rfl, hx⟩ := hx
    rw [number_hexadecimal hx] at hw ⊢
    have hf : Follows .hexadecimal ('0' :: x :: cs'.takeWhile isHexDigit) :=
      .hexadecimal hx of_mem_takeWhile
    exact lexes_iff_of_longest (longestMatch_hexadecimal hx cs') hw (hf.chosen (by simp))
      fun _ _ => verdict_hexadecimal_iff hf
  · rcases number_of_not_opensHex hx with ⟨rest, hp, hcut⟩ | ⟨hp, hcut⟩
    · obtain ⟨hl, hf⟩ := longestMatch_floating h hx hp
      rw [hcut] at hw ⊢
      exact lexes_iff_of_longest hl hw (hf.chosen (by simp)) fun _ _ => verdict_floating_iff hf
    · obtain ⟨hl, hf⟩ := longestMatch_decimal h hx hp
      rw [hcut] at hw ⊢
      exact lexes_iff_of_longest hl hw (hf.chosen (by simp)) fun _ _ => verdict_decimal_iff

theorem lexes_quote (cs : List Char) : Lexes ('\'' :: cs) k text ↔
    k = (if isClosedQuote ('\'' :: (Cut.quoteTail cs).1) then .character
      else .invalid .quoteOpen) ∧ text = '\'' :: (Cut.quoteTail cs).1 := by
  obtain ⟨hl, hf⟩ := longestMatch_quote cs
  have hw : '\'' :: (Cut.quoteTail cs).1 ++ (Cut.quoteTail cs).2 = '\'' :: cs := by
    rw [List.cons_append, Cut.quoteTail_append]
  exact lexes_iff_of_longest (x := ⟨_, _, []⟩) hl hw (hf.chosen (by simp)) fun _ _ =>
    verdict_quote_iff

/-- Where no rule applies, one character is taken. -/
theorem Lexes.eq_stray (h : Lexes cs k text) (hno : ∀ v, v <+: cs → ∀ r, ¬Follows r v) :
    ∃ c, cs.head? = some c ∧ k = .invalid .strayCharacter ∧ text = [c] := by
  cases h with
  | rule hl hr _ => exact absurd hr.follows (hno _ hl.beginning _)
  | @stray c _ _ => exact ⟨c, rfl, rfl, rfl⟩

/-- A mark, or else a character with which nothing starts. -/
theorem MarkOnly.lexes (h : MarkOnly c cs) :
    Lexes (c :: cs) k text ↔ k = (Lexeme.first c cs).kind ∧ text = (Lexeme.first c cs).text := by
  have hname : ¬startsName c = true := by simp [h.name]
  have hnumber : ¬Cut.opensNumber (c :: cs) = true := by simp [h.number]
  unfold Lexeme.first Cut.first
  rw [if_neg hname, if_neg hnumber, if_neg h.quote]
  cases hp : cs.head?.bind (Cut.pair? c) with
  | some l =>
    obtain ⟨d, hd, hl⟩ := Option.bind_eq_some_iff.1 hp
    obtain ⟨cs', rfl⟩ := List.head?_eq_some_iff.1 hd
    obtain ⟨hlongest, hf⟩ := h.longestMatch_pair hl
    exact lexes_iff_of_longest hlongest rfl (hf.chosen (by simp)) fun _ _ => verdict_fixed_iff
  | none =>
    cases hs : Cut.single? c with
    | some l =>
      obtain ⟨hlongest, hf⟩ := h.longestMatch_single hs hp
      exact lexes_iff_of_longest hlongest rfl (hf.chosen (by simp)) fun _ _ => verdict_fixed_iff
    | none =>
      have hno : ∀ v, v <+: c :: cs → ∀ r, ¬Follows r v := fun v hv r => h.not_follows hs hp hv
      constructor
      · intro hlex
        obtain ⟨d, hd, hk, ht⟩ := hlex.eq_stray hno
        obtain rfl : c = d := Option.some.inj hd
        exact ⟨hk, ht⟩
      · rintro ⟨rfl, rfl⟩
        exact .stray hno

/-- The first lexeme of a text is the one that the rules give. -/
theorem lexes_iff : Lexes (c :: cs) k text ↔
    k = (Lexeme.first c cs).kind ∧ text = (Lexeme.first c cs).text := by
  by_cases hc : startsName c = true
  · have hfirst : Lexeme.first c cs = ⟨wordKind (c :: cs.takeWhile continuesName),
        c :: cs.takeWhile continuesName, cs.dropWhile continuesName⟩ := by
      unfold Lexeme.first Cut.first
      rw [if_pos hc]
      rfl
    rw [hfirst]
    exact lexes_word hc cs
  · by_cases hn : Cut.opensNumber (c :: cs) = true
    · have hfirst : Lexeme.first c cs = Lexeme.ofCut (Cut.number (c :: cs)) := by
        unfold Lexeme.first Cut.first
        rw [if_neg hc, if_pos hn]
      rw [hfirst]
      exact lexes_number hn
    · by_cases hq : c = '\''
      · subst hq
        have hfirst : Lexeme.first '\'' cs =
            ⟨if isClosedQuote ('\'' :: (Cut.quoteTail cs).1) then .character
              else .invalid .quoteOpen, '\'' :: (Cut.quoteTail cs).1, (Cut.quoteTail cs).2⟩ := by
          unfold Lexeme.first Cut.first
          rw [if_neg hc, if_neg hn, if_pos rfl]
          rfl
        rw [hfirst]
        exact lexes_quote cs
      · rw [Bool.not_eq_true] at hc hn
        exact MarkOnly.lexes ⟨hc, hn, hq⟩

/-- At the end of a text there is no lexeme. -/
theorem not_lexes_nil : ¬Lexes [] k text := by
  intro h
  obtain ⟨c, hc, -, -⟩ := h.eq_stray (by
    intro v hv r hr
    obtain ⟨d, w, rfl, -⟩ := hr.exists_cons
    exact absurd (List.prefix_nil.1 hv) (List.cons_ne_nil d w))
  cases hc

/-! ## The law -/

/-- At every place of every text, the token that the scanner hands out is
the one that the rules give, and the rules give no other. -/
theorem every_place_has_the_token_of_the_rules (c : Cursor) (t : Token) :
    t = c.next.1 ↔ Gives c t := by
  have hg := longestGap_split c.rest
  have hsplit := Gap.split_append c.rest
  have hrest : c.skipGap.rest = (Gap.split c.rest).2 := c.rest_skipGap
  unfold Cursor.next
  cases hb : (Gap.split c.rest).2 with
  | nil =>
    rw [hb, List.append_nil] at hsplit
    rw [hb] at hrest
    rw [Cursor.read_of_rest_nil hrest]
    constructor
    · rintro rfl
      exact .finish hg hsplit.symm
    · intro h
      cases h with
      | finish hg' _ =>
        obtain rfl := hg.unique hg'
        rfl
      | lexeme hg' h hl =>
        obtain rfl := hg.unique hg'
        rw [hsplit] at h
        rw [List.self_eq_append_right.1 h] at hl
        exact absurd hl not_lexes_nil
  | cons x xs =>
    rw [hb] at hsplit hrest
    rw [Cursor.read_of_rest_cons hrest]
    constructor
    · rintro rfl
      exact .lexeme hg hsplit.symm (lexes_iff.2 ⟨rfl, rfl⟩)
    · intro h
      cases h with
      | finish hg' h =>
        obtain rfl := hg.unique hg'
        exact absurd (List.append_right_eq_self.1 (hsplit.trans h)) (List.cons_ne_nil x xs)
      | lexeme hg' h hl =>
        obtain rfl := hg.unique hg'
        obtain rfl := List.append_cancel_left (hsplit.trans h)
        obtain ⟨rfl, rfl⟩ := lexes_iff.1 hl
        rfl

end OnePass.Lexicon
