-- The rules of the spelling, with nothing said about how a text is read:
-- what a gap is, what a lexeme may look like, which beginning of a text is
-- taken, and what is wrong with it.
import OnePass.Token.Cursor

namespace OnePass.Lexicon

open Text

/-! ## Gaps -/

/-- Blanks and comments, one after another. A comment does not hold a
newline. -/
inductive IsGap : List Char → Prop
  | nil : IsGap []
  | blank {c : Char} {g : List Char} (hc : isBlank c = true) (hg : IsGap g) : IsGap (c :: g)
  | comment {a g : List Char} (ha : '\n' ∉ a) (hg : IsGap g) : IsGap ('/' :: '/' :: (a ++ g))

/-- A gap at the head of a text, and no longer one is there. -/
structure LongestGap (cs g : List Char) : Prop where
  beginning : g <+: cs
  gap : IsGap g
  longest : ∀ h, h <+: cs → IsGap h → h.length ≤ g.length

/-! ## Rules -/

/-- The operators and the punctuation marks. -/
def marks : List (String × Kind) :=
  Operator.all.map (fun o => (o.spelling, .operator o)) ++
    [("=", .assign), (";", .semicolon), (",", .comma), ("(", .leftParen), (")", .rightParen),
      ("\x7b", .leftBrace), ("\x7d", .rightBrace)]

/-- Everything that is always spelled the same. -/
def fixed : List (String × Kind) := words ++ marks

/-- The rules for a lexeme. -/
inductive Rule where
  | fixed (spelling : String) (kind : Kind)
  | name | decimal | hexadecimal | floating | quote

/-- All of these are digits. -/
def Digits (w : List Char) : Prop := ∀ c ∈ w, c.isDigit = true

/-- What may stand between two quotes: one character, or two if the first
is a backslash. -/
inductive IsQuoted : List Char → Prop
  | plain {c : Char} (hc : c ≠ '\\') : IsQuoted [c]
  | escaped (c : Char) : IsQuoted ['\\', c]

/-- A text that is spelled by a rule. -/
inductive Follows : Rule → List Char → Prop
  | fixed {s : String} {k : Kind} (h : (s, k) ∈ Lexicon.fixed) : Follows (.fixed s k) s.toList
  | name {c : Char} {w : List Char} (hc : startsName c = true)
    (hw : ∀ d ∈ w, continuesName d = true) : Follows .name (c :: w)
  | decimal {w : List Char} (hw : Digits w) (hne : w ≠ []) : Follows .decimal w
  | hexadecimal {x : Char} {w : List Char} (hx : x = 'x' ∨ x = 'X')
    (hw : ∀ d ∈ w, isHexDigit d = true) : Follows .hexadecimal ('0' :: x :: w)
  /-- A fraction. A point without digits before it has digits after it. -/
  | floating {a b : List Char} (ha : Digits a) (hb : Digits b) (hne : a ≠ [] ∨ b ≠ []) :
    Follows .floating (a ++ '.' :: b)
  /-- A quote, closed or not. -/
  | quote {m e : List Char} (hm : m = [] ∨ IsQuoted m) (he : e = [] ∨ e = ['\'']) :
    Follows .quote ('\'' :: (m ++ e))

/-- A beginning of a text that is spelled by some rule, and no longer one
is. -/
structure LongestMatch (cs w : List Char) : Prop where
  beginning : w <+: cs
  rule : ∃ r, Follows r w
  longest : ∀ v, v <+: cs → (∃ r, Follows r v) → v.length ≤ w.length

/-- The rule by which a text is spelled. A word of the language is no
name. -/
structure Chosen (r : Rule) (w : List Char) : Prop where
  follows : Follows r w
  no_name : r = .name → ∀ s k, ¬Follows (.fixed s k) w

/-! ## Verdicts -/

/-- A number within its limits, and its kind. -/
inductive Within : Rule → List Char → Kind → Prop
  | decimal {w : List Char} (h : w.length ≤ mostDecimalDigits) : Within .decimal w .decimal
  | hexadecimal {w : List Char} (hw : 2 < w.length) (h : w.length ≤ 2 + mostHexDigits) :
    Within .hexadecimal w .hexadecimal
  | floating {a b : List Char} (hp : '.' ∉ a) (ha : a.length ≤ mostFloatDigits)
    (hb : b.length ≤ mostFloatDigits) : Within .floating (a ++ '.' :: b) .floating

/-- What a text is that follows a rule, with `rest` behind it: its kind, and
the characters that belong to the lexeme. -/
inductive Verdict : Rule → (w rest : List Char) → Kind → List Char → Prop
  | fixed {s : String} {k : Kind} {w rest : List Char} : Verdict (.fixed s k) w rest k w
  | name {w rest : List Char} (h : w.length ≤ longestName) : Verdict .name w rest .name w
  | nameTooLong {w rest : List Char} (h : longestName < w.length) :
    Verdict .name w rest (.invalid .nameTooLong) w
  | decimalTooLong {w rest : List Char} (h : mostDecimalDigits < w.length) :
    Verdict .decimal w rest (.invalid .decimalTooLong) w
  | hexWithoutDigits {w rest : List Char} (h : w.length = 2) :
    Verdict .hexadecimal w rest (.invalid .hexWithoutDigits) w
  | hexTooLong {w rest : List Char} (h : 2 + mostHexDigits < w.length) :
    Verdict .hexadecimal w rest (.invalid .hexTooLong) w
  | floatTooLong {a b rest : List Char} (hp : '.' ∉ a)
    (h : mostFloatDigits < a.length ∨ mostFloatDigits < b.length) :
    Verdict .floating (a ++ '.' :: b) rest (.invalid .floatTooLong) (a ++ '.' :: b)
  | number {r : Rule} {w rest : List Char} {k : Kind} (h : Within r w k)
    (hr : ∀ c, rest.head? = some c → mayFollowNumber c = true) : Verdict r w rest k w
  /-- The character that may not follow becomes part of the lexeme. -/
  | numberGlued {r : Rule} {w rest : List Char} {c : Char} {k : Kind} (h : Within r w k)
    (hc : mayFollowNumber c = false) :
    Verdict r w (c :: rest) (.invalid .numberGlued) (w ++ [c])
  | character {m rest : List Char} (h : IsQuoted m) :
    Verdict .quote ('\'' :: (m ++ ['\''])) rest .character ('\'' :: (m ++ ['\'']))
  | quoteOpen {w rest : List Char} (h : ∀ m, IsQuoted m → w ≠ '\'' :: (m ++ ['\''])) :
    Verdict .quote w rest (.invalid .quoteOpen) w

/-! ## Tokens -/

/-- The first lexeme of a text: its kind and its characters. Where no rule
applies, it is a single character. -/
inductive Lexes : List Char → Kind → List Char → Prop
  | rule {w rest text : List Char} {r : Rule} {k : Kind} (hw : LongestMatch (w ++ rest) w)
    (hr : Chosen r w) (hv : Verdict r w rest k text) : Lexes (w ++ rest) k text
  | stray {c : Char} {cs : List Char} (h : ∀ v, v <+: c :: cs → ∀ r, ¬Follows r v) :
    Lexes (c :: cs) (.invalid .strayCharacter) [c]

/-- The token at a cursor: the longest gap is passed over, and then comes
the first lexeme, or the finish at the end of the text. -/
inductive Gives (c : Cursor) : Token → Prop
  | finish {g : List Char} (hg : LongestGap c.rest g) (h : c.rest = g) :
    Gives c (.finish (c.line + newlines g) (c.position + bytes g))
  | lexeme {g body text : List Char} {k : Kind} (hg : LongestGap c.rest g)
    (h : c.rest = g ++ body) (hl : Lexes body k text) :
    Gives c ⟨k, String.ofList text, c.line + newlines g,
      ⟨c.position + bytes g, c.position + bytes g + bytes text⟩⟩

end OnePass.Lexicon
