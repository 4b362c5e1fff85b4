-- The kinds of token: the words of the language, names, constants,
-- operators and punctuation. An invalid token carries its fault in its
-- kind, so no other token can have one.
import OnePass.Token.Fault

namespace OnePass

/-! ## Operators -/

/-- The operators between two operands. Plus and minus are signs too. -/
inductive Operator where
  | bitOr | bitXor | bitAnd
  | equal | notEqual
  | less | lessEqual | greater | greaterEqual
  | shiftLeft | shiftRight
  | plus | minus
  | times | divide | remainder
deriving DecidableEq

namespace Operator

/-- The operators by how tightly they bind, the loosest first. Those of
one tier bind alike. -/
def tiers : List (List Operator) :=
  [[bitOr], [bitXor], [bitAnd], [equal, notEqual], [less, lessEqual, greater, greaterEqual],
    [shiftLeft, shiftRight], [plus, minus], [times, divide, remainder]]

/-- How the operator is written. -/
def spelling : Operator → String
  | bitOr => "|"
  | bitXor => "^"
  | bitAnd => "&"
  | equal => "=="
  | notEqual => "!="
  | less => "<"
  | lessEqual => "<="
  | greater => ">"
  | greaterEqual => ">="
  | shiftLeft => "<<"
  | shiftRight => ">>"
  | plus => "+"
  | minus => "-"
  | times => "*"
  | divide => "/"
  | remainder => "%"

/-- The operator's tag in a token listing. -/
def tag : Operator → String
  | bitOr => "Pipe"
  | bitXor => "Caret"
  | bitAnd => "Amp"
  | equal => "EqEq"
  | notEqual => "NotEq"
  | less => "Lt"
  | lessEqual => "LtEq"
  | greater => "Gt"
  | greaterEqual => "GtEq"
  | shiftLeft => "LtLt"
  | shiftRight => "GtGt"
  | plus => "Plus"
  | minus => "Minus"
  | times => "Star"
  | divide => "Slash"
  | remainder => "Percent"

/-- All operators, tier by tier. -/
def all : List Operator := tiers.flatten

theorem mem_all (o : Operator) : o ∈ all := by
  cases o <;> decide

end Operator

/-! ## Kinds -/

/-- What a token is. -/
inductive Kind where
  | voidWord | shortWord | longWord | intWord | doubleWord | charWord | whileWord
  /-- The word `main` is told apart from the other names. -/
  | mainWord
  | name
  | decimal | hexadecimal | floating | character
  | operator (o : Operator)
  | assign | semicolon | comma
  | leftParen | rightParen | leftBrace | rightBrace
  /-- The end of the text. -/
  | finish
  | invalid (fault : Fault)
deriving DecidableEq

namespace Kind

/-- The tag of the kind in a token listing. -/
def tag : Kind → String
  | voidWord => "Void"
  | shortWord => "Short"
  | longWord => "Long"
  | intWord => "Int"
  | doubleWord => "Double"
  | charWord => "Char"
  | whileWord => "While"
  | mainWord => "Main"
  | name => "Identifier"
  | decimal => "DecConst"
  | hexadecimal => "HexConst"
  | floating => "FloatConst"
  | character => "CharConst"
  | operator o => o.tag
  | assign => "Eq"
  | semicolon => "Semi"
  | comma => "Comma"
  | leftParen => "LParen"
  | rightParen => "RParen"
  | leftBrace => "LBrace"
  | rightBrace => "RBrace"
  | finish => "Eof"
  | invalid _ => "Invalid"

/-- The kind in words: a fixed spelling stands in quotes. -/
def describe : Kind → String
  | voidWord => "'void'"
  | shortWord => "'short'"
  | longWord => "'long'"
  | intWord => "'int'"
  | doubleWord => "'double'"
  | charWord => "'char'"
  | whileWord => "'while'"
  | mainWord => "'main'"
  | name => "identifier"
  | decimal => "decimal constant"
  | hexadecimal => "hex constant"
  | floating => "floating constant"
  | character => "character constant"
  | operator o => "'" ++ o.spelling ++ "'"
  | assign => "'='"
  | semicolon => "';'"
  | comma => "','"
  | leftParen => "'('"
  | rightParen => "')'"
  | leftBrace => "'\x7b'"
  | rightBrace => "'\x7d'"
  | finish => "end of file"
  | invalid _ => "invalid lexeme"

/-- The fault of an invalid token. -/
def fault? : Kind → Option Fault
  | invalid f => some f
  | _ => none

/-- The token is no proper one. -/
def isInvalid : Kind → Bool
  | invalid _ => true
  | _ => false

/-- The word names a type that a variable can have. -/
def isTypeWord : Kind → Bool
  | shortWord | longWord | intWord | doubleWord | charWord => true
  | _ => false

/-- A declaration at the top of a program can start so. -/
def opensDeclaration (k : Kind) : Bool :=
  k.isTypeWord || k = voidWord

/-- A name, which `main` is too. -/
def isName : Kind → Bool
  | name | mainWord => true
  | _ => false

/-- An entry of a list of statements can start so. -/
def opensStatement (k : Kind) : Bool :=
  k.isName || k.isTypeWord || k = leftBrace || k = whileWord || k = semicolon

/-- The operator is one of these. -/
def isOperatorOf (tier : List Operator) : Kind → Bool
  | operator o => tier.contains o
  | _ => false

/-- A sign in front of an operand. -/
def isSign : Kind → Bool
  | operator .plus | operator .minus => true
  | _ => false

theorem isInvalid_iff (k : Kind) : k.isInvalid = true ↔ ∃ f, k.fault? = some f := by
  cases k <;> simp [isInvalid, fault?]

theorem ne_finish_of_isName {k : Kind} (h : k.isName = true) : k ≠ .finish := by
  rintro rfl; cases h

theorem ne_finish_of_isTypeWord {k : Kind} (h : k.isTypeWord = true) : k ≠ .finish := by
  rintro rfl; cases h

theorem ne_finish_of_isSign {k : Kind} (h : k.isSign = true) : k ≠ .finish := by
  rintro rfl; cases h

theorem exists_operator_of_isOperatorOf {k : Kind} {tier : List Operator}
    (h : k.isOperatorOf tier = true) : ∃ o, k = .operator o := by
  cases k with
  | operator o => exact ⟨o, rfl⟩
  | _ => cases h

theorem ne_finish_of_isOperatorOf {k : Kind} {tier : List Operator}
    (h : k.isOperatorOf tier = true) : k ≠ .finish := by
  rintro rfl; cases h

end Kind

end OnePass
