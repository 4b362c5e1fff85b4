-- What the grammar asks for at a token where it does not find it.

namespace OnePass

/-- What was expected, or why a token cannot stand where it does. -/
inductive Expectation where
  | endOfProgram
  /-- A name stands at the top of a program, where a type should. -/
  | declarationBeforeName
  | typeWord
  | variableName
  | declarationEnd
  | functionStart
  | functionName
  | parametersOpen
  | parametersClose
  /-- Two parameters stand side by side. -/
  | commaBetweenParameters
  | parameterName
  | bodyOpen
  | bodyClose
  | statement
  | blockOpen
  | blockClose
  | target
  | assignSign
  | assignmentEnd
  | loopStart
  | conditionOpen
  | conditionClose
  | callee
  | argumentsOpen
  | argumentsClose
  | callEnd
  | operand
  | groupClose
deriving DecidableEq

namespace Expectation

/-- The expectation in words. -/
def message : Expectation → String
  | endOfProgram => "unexpected tokens after end of program"
  | declarationBeforeName =>
    "unexpected identifier at global scope; missing type or function declaration?"
  | typeWord => "expected a data type (int, double, etc.)"
  | variableName => "expected variable name"
  | declarationEnd => "expected ';' after variable declaration"
  | functionStart => "expected 'void' in function declaration"
  | functionName => "expected function name (identifier or 'main')"
  | parametersOpen => "expected '(' after function name"
  | parametersClose => "expected ')' after parameter list"
  | commaBetweenParameters => "missing ',' between function parameters?"
  | parameterName => "expected parameter name"
  | bodyOpen => "expected '\x7b' to open function body"
  | bodyClose => "expected '\x7d' to close function body"
  | statement => "expected a statement or declaration"
  | blockOpen => "expected '\x7b' to open compound statement"
  | blockClose => "expected '\x7d' to close compound statement"
  | target => "expected variable name on the left of '='"
  | assignSign => "expected assignment operator '='"
  | assignmentEnd => "expected ';' after assignment"
  | loopStart => "expected 'while'"
  | conditionOpen => "expected '(' after 'while'"
  | conditionClose => "expected ')' after 'while' condition"
  | callee => "expected function name in call"
  | argumentsOpen => "expected '(' in function call"
  | argumentsClose => "expected ')' after call arguments"
  | callEnd => "expected ';' after function call"
  | operand => "expected an operand (variable, constant or parenthesized expression)"
  | groupClose => "expected ')' to close parenthesized expression"

end Expectation

end OnePass
