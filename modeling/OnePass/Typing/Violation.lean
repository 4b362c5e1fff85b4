-- The ways in which a program that is well formed can make no sense.
import OnePass.Scopes.Symbol

namespace OnePass

/-- What is wrong with the meaning of a program. -/
inductive Violation where
  /-- The scope has a symbol of that name already. -/
  | redeclared (symbol : Symbol)
  /-- A value is to be put into a name that means nothing. -/
  | unknownTarget (name : String)
  /-- A name that means nothing is called. -/
  | unknownCallee (name : String)
  /-- Something other than a function is called. -/
  | notCallable (name : String)
  /-- A name that means nothing is used as a value. -/
  | unknownOperand (name : String)
  /-- A function is used as a value. -/
  | functionOperand (name : String)
  /-- A value is to be put into a function. -/
  | notAssignable (symbol : Symbol)
  /-- A value is to be put where values of its type have no place. -/
  | unfitValue (value : ValueType) (target : Symbol)
  /-- An operator stands between values that it cannot join. -/
  | unfitOperands (spelling : String) (left right : ValueType)
  /-- A sign stands before something other than a number. -/
  | unfitSign (spelling : String) (operand : ValueType)
  /-- A call gives more values than the function has parameters. -/
  | tooManyArguments (function : String)
  /-- A call gives a value of another type than the parameter has. -/
  | unfitArgument (position : Nat) (function : String) (expected found : ValueType)
  /-- A call gives another number of values than the function has
  parameters. -/
  | wrongCount (function : String) (expected found : Nat)
  /-- A loop is to go on while nothing is something. -/
  | voidCondition
deriving DecidableEq

namespace Violation

/-- The violation in words. -/
def message : Violation → String
  | redeclared s => "redeclaration of " ++ s.role.word ++ " '" ++ s.name ++ "'"
  | unknownTarget n => "use of undeclared variable '" ++ n ++ "'"
  | unknownCallee n => "call to undeclared function '" ++ n ++ "'"
  | notCallable n => "'" ++ n ++ "' is not a function"
  | unknownOperand n => "use of undeclared identifier '" ++ n ++ "'"
  | functionOperand n => "function name '" ++ n ++ "' cannot be used in an expression"
  | notAssignable s => "cannot assign a value to " ++ s.role.word ++ " '" ++ s.name ++ "'"
  | unfitValue v s =>
    "incompatible types in assignment: cannot assign '" ++ v.name ++ "' to '" ++ s.name ++
      "' of type '" ++ s.type.name ++ "'"
  | unfitOperands o l r =>
    "operator '" ++ o ++ "' cannot be applied to operands of type '" ++ l.name ++ "' and '" ++
      r.name ++ "'"
  | unfitSign o t =>
    "unary operator '" ++ o ++ "' applies only to numeric types, found '" ++ t.name ++ "'"
  | tooManyArguments f => "too many arguments in call to function '" ++ f ++ "'"
  | unfitArgument i f e t =>
    "type mismatch for argument " ++ toString i ++ " in call to function '" ++ f ++
      "': expected '" ++ e.name ++ "', found '" ++ t.name ++ "'"
  | wrongCount f e n =>
    "wrong number of arguments in call to function '" ++ f ++ "': expected " ++ toString e ++
      ", found " ++ toString n
  | voidCondition => "condition of 'while' cannot be void"

end Violation

end OnePass
