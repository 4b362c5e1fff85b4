-- The types of values, and the families that the rules speak of.
import OnePass.Token.Kind

namespace OnePass

/-- The type of a value. No value has type `void`: it is what a function
gives back. `undefined` stands for a type that is not known. -/
inductive ValueType where
  | undefined | short | long | int | double | char | void
deriving DecidableEq

namespace ValueType

instance : Inhabited ValueType := ⟨undefined⟩

/-- The type as it is written. -/
def name : ValueType → String
  | undefined => "undefined"
  | short => "short"
  | long => "long"
  | int => "int"
  | double => "double"
  | char => "char"
  | void => "void"

/-- Whole numbers; characters count as such. -/
def isWhole : ValueType → Bool
  | short | long | int | char => true
  | _ => false

/-- Values to calculate with. -/
def isNumber (t : ValueType) : Bool :=
  t.isWhole || t = double

/-- A place of this type takes any number, and narrows it if need be. A
place for a character does not. -/
def takesNumbers : ValueType → Bool
  | short | long | int | double => true
  | _ => false

end ValueType

/-! ## Types in a text -/

namespace Kind

/-- The type that a word names. -/
def wordType : Kind → ValueType
  | shortWord => .short
  | longWord => .long
  | intWord => .int
  | doubleWord => .double
  | charWord => .char
  | voidWord => .void
  | _ => .undefined

/-- The type of a constant. -/
def constantType? : Kind → Option ValueType
  | decimal | hexadecimal => some .int
  | floating => some .double
  | character => some .char
  | _ => none

/-- A word for a variable's type names a number. -/
theorem isNumber_wordType {k : Kind} (h : k.isTypeWord = true) : k.wordType.isNumber = true := by
  cases k <;> simp_all [isTypeWord, wordType, ValueType.isNumber, ValueType.isWhole]

/-- A constant is a number. -/
theorem isNumber_constantType {k : Kind} {t : ValueType} (h : k.constantType? = some t) :
    t.isNumber = true := by
  cases k <;> cases h <;> rfl

theorem ne_finish_of_constantType? {k : Kind} {t : ValueType} (h : k.constantType? = some t) :
    k ≠ .finish := by
  rintro rfl; cases h

end Kind

end OnePass
