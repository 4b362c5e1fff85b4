-- The tokens of a text, written down again with other gaps between them. What
-- a gap starts with runs into no token before it, so every token is found
-- again as it was, at its new place.
import OnePass.Proofs.Lexicon.Seam
import OnePass.Proofs.Lexicon.Spellings

namespace OnePass

open Text

/-- The token is a number. -/
def Kind.isNumeral : Kind → Bool
  | decimal | hexadecimal | floating => true
  | _ => false

namespace Lexicon

/-! ## Closed gaps -/

/-- Blanks and comments, where a newline ends every comment. -/
inductive IsClosed : List Char → Prop
  | nil : IsClosed []
  | blank {c : Char} {g : List Char} (hc : isBlank c = true) (hg : IsClosed g) : IsClosed (c :: g)
  | comment {a g : List Char} (ha : '\n' ∉ a) (hg : IsClosed g) :
    IsClosed ('/' :: '/' :: (a ++ '\n' :: g))

/-- A closed gap that starts with a space, a tab, a newline or a carriage
return. -/
structure IsSeparator (g : List Char) : Prop where
  closed : IsClosed g
  start : ∃ c, g.head? = some c ∧ c ∈ [' ', '\t', '\n', '\r']

/-- A gap that can stand right behind a token of this kind. A number would run
into a form feed or a vertical tab, and a slash into a comment. -/
def Clear (k : Kind) (g : List Char) : Prop :=
  ∀ c, g.head? = some c →
    isBlank c = true ∧ (k.isNumeral = true → mayFollowNumber c = true) ∨
      c = '/' ∧ k ≠ .operator .divide

theorem IsSeparator.clear {g : List Char} (h : IsSeparator g) (k : Kind) (rest : List Char) :
    Clear k (g ++ rest) := by
  have hblank : ∀ c ∈ [' ', '\t', '\n', '\r'], isBlank c = true ∧ mayFollowNumber c = true := by
    intro c hc
    simp only [List.mem_cons, List.not_mem_nil, or_false] at hc
    rcases hc with rfl | rfl | rfl | rfl <;> decide
  obtain ⟨d, hd, hmem⟩ := h.start
  obtain ⟨g', rfl⟩ := List.head?_eq_some_iff.1 hd
  intro c hc
  obtain rfl : d = c := Option.some.inj hc
  exact Or.inl ⟨(hblank d hmem).1, fun _ => (hblank d hmem).2⟩

theorem splitFrom_line {a : List Char} (ha : '\n' ∉ a) (cs : List Char) :
    Gap.splitFrom true (a ++ '\n' :: cs) =
      (a ++ '\n' :: (Gap.split cs).1, (Gap.split cs).2) := by
  induction a with
  | nil => simp [Gap.splitFrom, Gap.split, Prod.map]
  | cons c a ih =>
    obtain ⟨hc, ha⟩ := List.ne_and_not_mem_of_not_mem_cons ha
    simp [Gap.splitFrom, ih ha, Ne.symm hc]

/-- A closed gap is passed over, and nothing else is where nothing else is
blank. -/
theorem IsClosed.split {g body : List Char} (hg : IsClosed g) (hbody : Gap.Stops body) :
    Gap.split (g ++ body) = (g, body) := by
  induction hg with
  | nil => exact Gap.split_of_stops hbody
  | @blank c g hc _ ih =>
    rw [Gap.split] at ih
    simp [Gap.split, Gap.splitFrom, hc, ih]
  | @comment a g ha _ ih =>
    have hline := splitFrom_line ha (g ++ body)
    rw [ih] at hline
    simp [Gap.split, Gap.splitFrom, isBlank, hline]

/-! ## Lexemes with a gap behind them -/

section

variable {r r' : Rule} {v w rest g cs text : List Char} {k : Kind} {s : Char}

/-- No spelling but a quote holds a blank, and none but the slash itself a
slash. -/
theorem Follows.quote_or_slash (h : Follows r v) (hs : s ∈ v)
    (hb : isBlank s = true ∨ s = '/') : r = .quote ∨ v = ['/'] := by
  have hclass : continuesName s = false ∧ s.isDigit = false ∧ isHexDigit s = false ∧
      s ≠ '.' ∧ s ≠ '0' ∧ s ≠ 'x' ∧ s ≠ 'X' ∧ startsName s = false := by
    unfold isBlank at hb
    simp only [Bool.or_eq_true, decide_eq_true_eq] at hb
    rcases hb with (((((rfl | rfl) | rfl) | rfl) | rfl) | rfl) | rfl <;> decide
  obtain ⟨hname, hdigit, hhex, hpoint, hzero, hx, hX, hletter⟩ := hclass
  cases h with
  | @fixed t k hmem =>
    have hfixed : ∀ x ∈ Lexicon.fixed,
        (x.1.toList.all fun c => !isBlank c && (c ≠ '/' || x.1 = "/")) = true := by decide
    have hfree := List.all_eq_true.1 (hfixed _ hmem) s hs
    simp only [Bool.and_eq_true, Bool.not_eq_true', Bool.or_eq_true, decide_eq_true_eq] at hfree
    obtain ⟨hblank, hslash⟩ := hfree
    rcases hb with hb | rfl
    · rw [hblank] at hb
      cases hb
    · have ht : t = "/" := hslash.resolve_left fun hne => hne rfl
      exact Or.inr (by rw [ht]; rfl)
  | name hc hw =>
    rcases List.mem_cons.1 hs with rfl | hs
    · rw [hletter] at hc
      cases hc
    · rw [hw s hs] at hname
      cases hname
  | decimal hw _ =>
    rw [hw s hs] at hdigit
    cases hdigit
  | @hexadecimal x w hmark hw =>
    rcases List.mem_cons.1 hs with rfl | hs
    · exact absurd rfl hzero
    · rcases List.mem_cons.1 hs with rfl | hs
      · exact absurd hmark (by simp [hx, hX])
      · rw [hw s hs] at hhex
        cases hhex
  | @floating a b ha hb' _ =>
    rcases List.mem_append.1 hs with hs | hs
    · rw [ha s hs] at hdigit
      cases hdigit
    · rcases List.mem_cons.1 hs with rfl | hs
      · exact absurd rfl hpoint
      · rw [hb' s hs] at hdigit
        cases hdigit
  | quote _ _ => exact Or.inl rfl

/-- No quote goes on behind a closed one. -/
theorem IsQuoted.not_follows {m : List Char} (hm : IsQuoted m) (s : Char) (u : List Char) :
    ¬Follows .quote ('\'' :: (m ++ ['\'']) ++ s :: u) := by
  intro h
  obtain ⟨m', e, heq, hm', he⟩ := h.quote_eq
  rw [List.cons_append] at heq
  have htail : IsTail (m ++ ['\''] ++ s :: u) := ⟨m', e, (List.cons.inj heq).2, hm', he⟩
  cases hm with
  | plain hc =>
    rcases isTail_iff.1 htail with h | h | ⟨d, -, h⟩ | ⟨d, -, h⟩ | ⟨d, h⟩ | ⟨d, h⟩ <;> simp_all
  | escaped c =>
    rcases isTail_iff.1 htail with h | h | ⟨d, -, h⟩ | ⟨d, -, h⟩ | ⟨d, h⟩ | ⟨d, h⟩ <;> simp_all

/-- A valid lexeme has the text that its rule was chosen for, and the verdict
on it is the same with another gap behind it. -/
theorem Verdict.clear (h : Verdict r w rest k text) (hk : k.fault? = none) (hg : Clear k g) :
    text = w ∧ Verdict r w g k w := by
  cases h with
  | fixed => exact ⟨rfl, .fixed⟩
  | name h => exact ⟨rfl, .name h⟩
  | character h => exact ⟨rfl, .character h⟩
  | number h _ =>
    refine ⟨rfl, .number h fun c hc => ?_⟩
    rcases hg c hc with ⟨-, hnumber⟩ | ⟨rfl, -⟩
    · exact hnumber (by cases h <;> rfl)
    · rfl
  | _ => cases hk

/-- A valid quote is closed. -/
theorem Verdict.closed (h : Verdict .quote w rest k text) (hk : k.fault? = none) :
    ∃ m, IsQuoted m ∧ w = '\'' :: (m ++ ['\'']) := by
  cases h with
  | character hm => exact ⟨_, hm, rfl⟩
  | quoteOpen => cases hk
  | number h => cases h
  | numberGlued h => cases h

/-- What is the longest match stays it with a gap behind it. -/
theorem LongestMatch.clear (hl : LongestMatch (w ++ rest) w) (hr : Chosen r w)
    (hv : Verdict r w rest k text) (hk : k.fault? = none) (hg : Clear k g) :
    LongestMatch (w ++ g) w where
  beginning := List.prefix_append w g
  rule := hl.rule
  longest := by
    rintro v hvg ⟨r', hr'⟩
    rcases List.prefix_or_prefix_of_prefix hvg (List.prefix_append w g) with hvw | ⟨u, rfl⟩
    · exact hvw.length_le
    · cases u with
      | nil => simp
      | cons s u =>
        obtain ⟨u', hu'⟩ := (List.prefix_append_right_inj w).1 hvg
        have hs : isBlank s = true ∨ s = '/' := by
          rcases hg s (by rw [← hu']; rfl) with ⟨hs, -⟩ | ⟨hs, -⟩
          · exact Or.inl hs
          · exact Or.inr hs
        obtain ⟨c, w', rfl, ho⟩ := hr.follows.exists_cons
        rcases hr'.quote_or_slash (by simp) hs with rfl | hslash
        · -- The lexeme starts with a quote too, and it is closed already.
          obtain ⟨m, e, hq, -, -⟩ := hr'.quote_eq
          rw [List.cons_append] at hq
          obtain rfl := (List.cons.inj hq).1
          obtain rfl := Rule.opens_quote ho
          obtain ⟨m, hm, hw⟩ := hv.closed hk
          rw [hw] at hr'
          exact absurd hr' (hm.not_follows s u)
        · simp at hslash

/-- A valid lexeme is the same with another gap behind it. -/
theorem Lexes.clear (h : Lexes cs k text) (hk : k.fault? = none) (hg : Clear k g) :
    Lexes (text ++ g) k text := by
  cases h with
  | stray => cases hk
  | rule hl hr hv =>
    obtain ⟨rfl, hv'⟩ := hv.clear hk hg
    exact .rule (hl.clear hr hv hk hg) hr hv'

/-- Where a valid lexeme starts, the gap before it is at its end. -/
theorem Lexes.stops (h : Lexes cs k text) (hk : k.fault? = none) (hg : Clear k g) :
    Gap.Stops (text ++ g) := by
  cases h with
  | stray => cases hk
  | @rule w rest text r k hl hr hv =>
    obtain ⟨rfl, -⟩ := hv.clear hk hg
    obtain ⟨d, w, rfl, ho⟩ := hr.follows.exists_cons
    have hmem : d ∈ d :: w := List.mem_cons_self
    have hquote : r = .quote → d = '\'' := by
      rintro rfl
      obtain ⟨m, e, hq, -, -⟩ := hr.follows.quote_eq
      exact (List.cons.inj hq).1
    intro c u hc
    obtain ⟨rfl, rfl⟩ := List.cons.inj hc
    refine ⟨?_, ?_⟩
    · rw [← Bool.not_eq_true]
      intro hb
      rcases hr.follows.quote_or_slash hmem (Or.inl hb) with hrule | hslash
      · rw [hquote hrule] at hb
        cases hb
      · obtain rfl := (List.cons.inj hslash).1
        cases hb
    · rintro ⟨rfl, hhead⟩
      rcases hr.follows.quote_or_slash hmem (Or.inr rfl) with hrule | hslash
      · cases hquote hrule
      · obtain rfl := (List.cons.inj hslash).2
        obtain ⟨t, l, rfl, -⟩ := Rule.opens_mark ho (by decide)
        have hdivide : ∀ x ∈ Lexicon.fixed, x.1.toList = ['/'] → x.2 = .operator .divide := by
          decide
        obtain ⟨hfixed, htext⟩ := follows_fixed_iff.1 hr.follows
        obtain rfl := (verdict_fixed_iff.1 hv).1
        rcases hg '/' hhead with ⟨hb, -⟩ | ⟨-, hk'⟩
        · cases hb
        · exact hk' (hdivide _ hfixed htext.symm)

end

/-! ## Spaced tokens -/

/-- Tokens with closed gaps around them. Between two tokens the gap is a
separator, and the one at the end is clear of the last token. -/
structure Spacing where
  /-- The tokens, each with the gap before it. -/
  pieces : List (List Char × Token)
  ending : List Char
  closed : ∀ x ∈ pieces, IsClosed x.1
  parted : ∀ x ∈ pieces.tail, IsSeparator x.1
  closed_ending : IsClosed ending
  clear_ending : ∀ x ∈ pieces.getLast?, Clear x.2.kind ending

/-- The tokens at the places where they stand, each behind its gap, after the
text `before`. -/
def placed (before : List Char) : List (List Char × Token) → List Token
  | [] => []
  | (g, t) :: pieces =>
    let start := before ++ g
    let stop := start ++ t.text.toList
    ⟨t.kind, t.text, 1 + newlines start, ⟨bytes start, bytes stop⟩⟩ :: placed stop pieces

namespace Spacing

/-- The tokens and the gaps written down. -/
def written (x : Spacing) : String := String.ofList (weave x.pieces ++ x.ending)

/-- The tokens at their places in the text, and the finish at its end. -/
def tokens (x : Spacing) : List Token :=
  placed [] x.pieces ++ [.finish (1 + newlines x.written.toList) (bytes x.written.toList)]

end Spacing

/-- Every gap is closed, and clear of the token before it. -/
inductive Spaced : List (List Char × Token) → List Char → Prop
  | ending {g : List Char} (hg : IsClosed g) : Spaced [] g
  | token {g ending : List Char} {t : Token} {pieces : List (List Char × Token)}
    (hg : IsClosed g) (hc : Clear t.kind (weave pieces ++ ending)) (h : Spaced pieces ending) :
    Spaced ((g, t) :: pieces) ending

theorem Spacing.spaced (x : Spacing) : Spaced x.pieces x.ending := by
  obtain ⟨pieces, ending, hclosed, hparted, hending, hclear⟩ := x
  dsimp only
  induction pieces with
  | nil => exact .ending hending
  | cons y pieces ih =>
    obtain ⟨g, t⟩ := y
    obtain ⟨hg, hclosed⟩ := List.forall_mem_cons.1 hclosed
    rw [List.tail_cons] at hparted
    cases pieces with
    | nil => exact .token hg (hclear (g, t) rfl) (.ending hending)
    | cons z pieces =>
      have hz : IsSeparator z.1 := hparted z List.mem_cons_self
      refine .token hg ?_ (ih hclosed (fun u hu => hparted u (List.mem_cons_of_mem z hu)) hclear)
      rw [weave_cons, List.append_assoc, List.append_assoc]
      exact hz.clear t.kind _

/-- A token that can stand in a text. -/
def IsProper (t : Token) : Prop :=
  t.kind.fault? = none ∧ ∃ cs, Lexes cs t.kind t.text.toList

theorem Lexes.ne_finish {cs text : List Char} {k : Kind} (h : Lexes cs k text) : k ≠ .finish := by
  cases cs with
  | nil => exact absurd h not_lexes_nil
  | cons c cs =>
    rw [(lexes_iff.1 h).1]
    exact Lexeme.first_kind_ne_finish c cs

/-- A cursor before a gap and a lexeme takes that lexeme. -/
theorem next_of_lexes {c : Cursor} {before g text rest : List Char} {k : Kind}
    (hc : c.After before) (hr : c.rest = g ++ (text ++ rest))
    (hs : Gap.split c.rest = (g, text ++ rest)) (hl : Lexes (text ++ rest) k text) :
    c.next.1 = ⟨k, String.ofList text, 1 + newlines (before ++ g),
        ⟨bytes (before ++ g), bytes (before ++ g ++ text)⟩⟩ ∧
      c.next.2.rest = rest ∧ c.next.2.After (before ++ g ++ text) := by
  have hskip := Cursor.skipGap_eq_pass hs hr
  have hbefore := hc.pass hr
  rw [← hskip] at hbefore
  have hbody : c.skipGap.rest = text ++ rest := by
    rw [hskip]
    rfl
  cases hcons : text ++ rest with
  | nil =>
    rw [hcons] at hl
    exact absurd hl not_lexes_nil
  | cons y ys =>
    rw [hcons] at hl hbody
    obtain ⟨rfl, rfl⟩ := lexes_iff.1 hl
    have happend := Lexeme.first_append y ys
    have hafter := hbefore.pass (hbody.trans happend.symm)
    rw [Cursor.next, Cursor.read_of_rest_cons hbody]
    refine ⟨?_, List.append_cancel_left (happend.trans hcons.symm), hafter⟩
    simp only [Token.mk.injEq, Span.mk.injEq, true_and]
    exact ⟨hbefore.line, hbefore.position, hafter.position⟩

/-- A cursor before spaced tokens finds them at their places. -/
theorem Spaced.tokens {pieces : List (List Char × Token)} {ending before : List Char} {c : Cursor}
    (h : Spaced pieces ending) (hp : ∀ x ∈ pieces, IsProper x.2) (hc : c.After before)
    (hr : c.rest = weave pieces ++ ending) :
    c.tokens = placed before pieces ++
      [.finish (1 + newlines (before ++ c.rest)) (bytes (before ++ c.rest))] := by
  induction h generalizing c before with
  | @ending g hg =>
    have hstops : Gap.Stops [] := by simp [Gap.Stops]
    have hrest : c.rest = g ++ [] := by simpa using hr
    have hsplit : Gap.split c.rest = (g, []) := by
      rw [hrest]
      exact hg.split hstops
    have hskip := Cursor.skipGap_eq_pass hsplit hrest
    have hafter := hc.pass hrest
    have hnext : c.next = (.finish c.skipGap.line c.skipGap.position, c.skipGap) := by
      rw [Cursor.next, Cursor.read_of_rest_nil (by rw [hskip]; rfl)]
    rw [Cursor.tokens_eq, hnext, if_pos (Token.kind_finish _ _), hskip, hafter.line,
      hafter.position, hrest, List.append_nil]
    rfl
  | @token g ending t pieces hg hclear _ ih =>
    obtain ⟨⟨hvalid, cs, hlex⟩, hp⟩ := List.forall_mem_cons.1 hp
    have hrest : c.rest = g ++ (t.text.toList ++ (weave pieces ++ ending)) := by
      rw [hr, weave_cons, List.append_assoc, List.append_assoc]
    have hsplit := hg.split (hlex.stops hvalid hclear)
    rw [← hrest] at hsplit
    obtain ⟨htoken, hleft, hafter⟩ := next_of_lexes hc hrest hsplit (hlex.clear hvalid hclear)
    have hinner : c.next.1.kind ≠ .finish := by
      rw [htoken]
      exact hlex.ne_finish
    rw [Cursor.tokens_eq, if_neg hinner, ih hp hafter hleft, htoken, String.ofList_toList, hleft,
      hrest]
    simp only [placed, List.cons_append, List.append_assoc]

/-- Only the places of the tokens are new. -/
theorem map_placed (before : List Char) (pieces : List (List Char × Token)) :
    (placed before pieces).map (fun t => (t.kind, t.text)) =
      (pieces.map Prod.snd).map fun t => (t.kind, t.text) := by
  induction pieces generalizing before with
  | nil => rfl
  | cons x pieces ih => exact congrArg (List.cons (x.2.kind, x.2.text)) (ih _)

/-- The tokens of a text are its proper ones and the finish. -/
theorem exists_proper {source : String} (hv : ∀ t ∈ tokenize source, t.kind.fault? = none) :
    ∃ ts line offset, tokenize source = ts ++ [.finish line offset] ∧ ∀ t ∈ ts, IsProper t := by
  obtain ⟨pieces, ending, htokens, -, -, hplaced⟩ := (covers_tokenize source).woven
  refine ⟨_, _, _, htokens, fun t ht => ?_⟩
  obtain ⟨⟨g, u⟩, hu, rfl⟩ := List.mem_map.1 ht
  obtain ⟨front, back, hsplit⟩ := List.append_of_mem hu
  have hmem : u ∈ tokenize source := by
    rw [htokens]
    exact List.mem_append_left _ ht
  exact ⟨hv u hmem, exists_lexes_of_mem hmem (hplaced front g u back hsplit).inner⟩

/-- One space between any two of the tokens. -/
def Spacing.spaces : List Token → Spacing
  | [] => ⟨[], [], by simp, by simp, .nil, by simp⟩
  | t :: ts =>
    { pieces := ([], t) :: ts.map ([' '], ·)
      ending := []
      closed := by simpa [IsClosed.nil] using fun _ _ => IsClosed.blank rfl .nil
      parted := by simpa using fun _ _ => ⟨IsClosed.blank rfl .nil, ' ', rfl, by simp⟩
      closed_ending := .nil
      clear_ending := by simp [Clear] }

theorem Spacing.pieces_spaces (ts : List Token) : (spaces ts).pieces.map Prod.snd = ts := by
  cases ts with
  | nil => rfl
  | cons t ts => simp [spaces, Function.comp_def]

theorem Spacing.written_spaces (ts : List Token) :
    (spaces ts).written = " ".intercalate (ts.map Token.text) := by
  apply String.toList_injective
  rw [String.toList_intercalate, written, String.toList_ofList]
  cases ts with
  | nil => rfl
  | cons t ts =>
    simp only [spaces, weave_cons, List.nil_append, List.append_nil, List.map_cons]
    induction ts generalizing t with
    | nil => simp
    | cons u ts ih =>
      rw [List.map_cons, weave_cons, List.map_cons, List.map_cons, List.intercalate_cons_cons, ← ih u]
      simp

/-! ## The law -/

/-- The tokens of a text keep their kinds and their spellings wherever they are
written. -/
structure Respaced (source : String) : Prop where
  /-- With any gaps that keep them apart the tokens are the same, and tell where
  they stand now. -/
  spacing : ∀ x : Spacing, x.pieces.map Prod.snd = (tokenize source).dropLast →
    tokenize x.written = x.tokens ∧
      (tokenize x.written).map (fun t => (t.kind, t.text)) =
        (tokenize source).map (fun t => (t.kind, t.text)) ∧
      ∀ t ∈ tokenize x.written, t.kind.fault? = none
  /-- In particular a space between any two tokens is enough. -/
  spaces : (tokenize (" ".intercalate ((tokenize source).dropLast.map Token.text))).map
      (fun t => (t.kind, t.text)) = (tokenize source).map (fun t => (t.kind, t.text))

theorem Spacing.tokenize_written {x : Spacing} {ts : List Token} (hx : x.pieces.map Prod.snd = ts)
    (hp : ∀ t ∈ ts, IsProper t) : tokenize x.written = x.tokens := by
  have hpieces : ∀ y ∈ x.pieces, IsProper y.2 := by
    intro y hy
    exact hp y.2 (by rw [← hx]; exact List.mem_map_of_mem hy)
  have hrest : (Cursor.start x.written.toList).rest = weave x.pieces ++ x.ending :=
    String.toList_ofList
  exact x.spaced.tokens hpieces (Cursor.after_start _) hrest

/-- If all tokens of a text are valid, the gaps between them do not matter. -/
theorem the_gaps_do_not_matter {source : String}
    (hv : ∀ t ∈ tokenize source, t.kind.fault? = none) : Respaced source := by
  obtain ⟨ts, line, offset, htokens, hproper⟩ := exists_proper hv
  have hlast : (tokenize source).dropLast = ts := by rw [htokens, List.dropLast_concat]
  have hsame : ∀ x : Spacing, x.pieces.map Prod.snd = ts →
      tokenize x.written = x.tokens ∧ (tokenize x.written).map (fun t => (t.kind, t.text)) =
        (tokenize source).map fun t => (t.kind, t.text) := by
    intro x hx
    have hx' := x.tokenize_written hx hproper
    refine ⟨hx', ?_⟩
    rw [hx', htokens, Spacing.tokens, List.map_append, List.map_append, map_placed, hx]
    rfl
  constructor
  · intro x hx
    rw [hlast] at hx
    obtain ⟨hplaces, hkinds⟩ := hsame x hx
    refine ⟨hplaces, hkinds, fun t ht => ?_⟩
    have hmem : (t.kind, t.text) ∈ (tokenize source).map fun t => (t.kind, t.text) := by
      rw [← hkinds]
      exact List.mem_map_of_mem ht
    obtain ⟨u, hu, heq⟩ := List.mem_map.1 hmem
    rw [← (Prod.mk.inj heq).1]
    exact hv u hu
  · rw [hlast, ← Spacing.written_spaces]
    exact (hsame _ (Spacing.pieces_spaces ts)).2

/-- A quote around a blank, and numbers before and behind an operator. -/
theorem a_quoted_blank_is_found_again :
    (∀ t ∈ tokenize "x=' '/.5<<0x1F;", t.kind.fault? = none) ∧ Respaced "x=' '/.5<<0x1F;" := by
  have h : ∀ t ∈ tokenize "x=' '/.5<<0x1F;", t.kind.fault? = none := by decide +kernel
  exact ⟨h, the_gaps_do_not_matter h⟩

/-- A comment right behind a slash takes the slash into it, closed as it is. -/
theorem a_comment_hides_a_slash :
    (∀ t ∈ tokenize "/", t.kind.fault? = none) ∧ IsClosed "//\n".toList ∧
      ¬(tokenize ("/" ++ "//\n")).map (fun t => (t.kind, t.text)) =
        (tokenize "/").map fun t => (t.kind, t.text) := by
  refine ⟨by decide +kernel, ?_, by decide +kernel⟩
  exact .comment (a := []) (g := []) (by simp) .nil

end Lexicon

end OnePass
