-- What can be wrong with the spelling of a token, and the limits that
-- spellings keep.

namespace OnePass

/-! ## Limits -/

/-- The most characters of a name. -/
def longestName : Nat := 100

/-- The most digits after `0x`. Eight of them fill 32 bits. -/
def mostHexDigits : Nat := 8

/-- The most digits of a decimal constant. -/
def mostDecimalDigits : Nat := 10

/-- The most digits before the point, and the most after it. -/
def mostFloatDigits : Nat := 15

/-! ## Faults -/

/-- Why a piece of text is no proper token. -/
inductive Fault where
  /-- No token starts with this character. -/
  | strayCharacter
  | nameTooLong
  /-- Nothing follows `0x`. -/
  | hexWithoutDigits
  | hexTooLong
  | decimalTooLong
  | floatTooLong
  /-- A number runs into a character that may not follow it. -/
  | numberGlued
  /-- A quote holds no character, or is not closed after one. -/
  | quoteOpen
deriving DecidableEq

namespace Fault

/-- A fault is this one unless something else is known. -/
instance : Inhabited Fault := ⟨strayCharacter⟩

/-- The fault in words. -/
def message : Fault → String
  | strayCharacter => "unrecognized character"
  | nameTooLong => s!"identifier longer than {longestName} characters"
  | hexWithoutDigits => "hexadecimal constant has no digits after '0x'"
  | hexTooLong => s!"hexadecimal constant has more than {mostHexDigits} digits"
  | decimalTooLong => s!"integer constant has more than {mostDecimalDigits} digits"
  | floatTooLong => s!"floating constant has more than {mostFloatDigits} digits in a part"
  | numberGlued => "invalid character directly after a numeric constant"
  | quoteOpen => "unterminated character literal"

end Fault

end OnePass
