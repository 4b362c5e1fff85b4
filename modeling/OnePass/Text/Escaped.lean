-- Texts in quotes for a journal: whatever could not be read off the line is
-- written as an escape.
import OnePass.Text.Unicode

namespace OnePass.Text

/-! ## What can be read -/

/-- A control character. -/
def isControl (c : Char) : Bool :=
  c.toNat < 0x20 || (0x7f ≤ c.toNat && c.toNat < 0xa0)

/-- Characters that steer the text around them and have no shape. -/
def formatRanges : List (Nat × Nat) :=
  [(0xad, 0xad), (0x600, 0x605), (0x61c, 0x61c), (0x6dd, 0x6dd), (0x70f, 0x70f), (0x890, 0x891),
   (0x8e2, 0x8e2), (0x180e, 0x180e), (0x200b, 0x200f), (0x202a, 0x202e), (0x2060, 0x2064),
   (0x2066, 0x206f), (0xfeff, 0xfeff), (0xfff9, 0xfffb), (0x110bd, 0x110bd), (0x110cd, 0x110cd),
   (0x13430, 0x1343f), (0x1bca0, 0x1bca3), (0x1d173, 0x1d17a), (0xe0001, 0xe0001),
   (0xe0020, 0xe007f)]

/-- Letters without a shape, in the place of a Hangul letter that is left out. -/
def fillerRanges : List (Nat × Nat) :=
  [(0x115f, 0x1160), (0x3164, 0x3164), (0xffa0, 0xffa0)]

/-- The character has a shape and a place of its own, or is the space. -/
def isShown (c : Char) : Bool :=
  !isControl c && (c.toNat < 0x7f || !(within separatorRanges c || within formatRanges c ||
    within fillerRanges c || isMark c || isUnassigned c))

/-! ## Escapes -/

/-- A number in base sixteen, in small letters. -/
def hex (n : Nat) : List Char := Nat.toDigits 16 n

/-- One character between quotes. A single quote needs no escape there. -/
def escape (c : Char) : List Char :=
  if c = '"' then ['\\', '"']
  else if c = '\\' then ['\\', '\\']
  else if c = '\n' then ['\\', 'n']
  else if c = '\r' then ['\\', 'r']
  else if c = '\t' then ['\\', 't']
  else if c = '\x00' then ['\\', '0']
  else if isShown c then [c]
  else ['\\', 'u', '\x7b'] ++ hex c.toNat ++ ['\x7d']

/-- The text in double quotes, on one line. -/
def quoted (s : String) : String :=
  String.ofList ('"' :: s.toList.flatMap escape ++ ['"'])

example : isShown 'é' ∧ isShown 'ﾞ' ∧ !isShown '\u0301' ∧ !isShown '\u0378' ∧ !isShown '\u3164' := by
  decide +kernel

end OnePass.Text
