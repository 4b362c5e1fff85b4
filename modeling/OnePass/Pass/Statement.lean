-- Declarations of variables, and statements. A name is looked up as soon as
-- it was read, and declared before the value that it gets is read.
import OnePass.Pass.Expression

namespace OnePass

namespace Parse

open Pass (hand advance peek accept expect expectName lookup declare enter leave refuse unexpected
  demand)
open Marking (within)

variable {m : Type → Type} [Monad m] [Marking m]

/-! ## Variables -/

/-- A word that names a type. -/
def typeWord : m ValueType :=
  within (.call .typeWord) do
    let t ← hand
    if t.kind.isTypeWord then
      let _ ← advance
      return t.kind.wordType
    else unexpected .typeWord

/-- A name of a variable, and its first value if there is one. -/
def declarator (n : Nat) (type : ValueType) : m Unit := do
  let name ← expectName .variableName
  let x : Symbol := ⟨name.text, .value type⟩
  declare x name
  if ← accept .assign then
    let value ← expression n
    demand (checkAssignment x value) name

/-- Names for variables of a type. -/
def names (n : Nat) (type : ValueType) : m Unit :=
  within (.call .names) do
    let _ ← separated .names (fun _ => declarator n type) 1 n

/-- A type, and names for variables of it. -/
def declarators (n : Nat) : m Unit :=
  within (.call .declarators) do
    let type ← typeWord
    names n type
    let _ ← expect .semicolon .declarationEnd

/-! ## Calls and assignments -/

/-- The value of an argument at a position of a call. -/
def argument (n : Nat) (function : Symbol) (position : Nat) : m Unit := do
  let first ← hand
  let value ← expression n
  demand (checkArgument function position value) first

/-- The arguments of a call, up to the closing parenthesis; `name` is where
the call starts. -/
def arguments (n : Nat) (function : Symbol) (name : Token) : m Unit :=
  within (.call .arguments) do
    if (← hand).kind = .rightParen then demand (checkCount function 0) name
    else
      let given ← separated .arguments (argument n function) 1 n
      demand (checkCount function given.length) name

/-- A call of a function. -/
def call (n : Nat) : m Unit :=
  within (.call .call) do
    let name ← expectName .callee
    match ← lookup name.text with
    | none => refuse (.unknownCallee name.text) name
    | some function =>
      if function.role.isFunction then
        let _ ← expect .leftParen .argumentsOpen
        arguments n function name
        let _ ← expect .rightParen .argumentsClose
      else refuse (.notCallable name.text) name

/-- A value for a variable or a parameter. -/
def assignment (n : Nat) : m Unit :=
  within (.call .assignment) do
    let name ← expectName .target
    match ← lookup name.text with
    | none => refuse (.unknownTarget name.text) name
    | some target =>
      let _ ← expect .assign .assignSign
      let value ← expression n
      demand (checkAssignment target value) name

/-! ## Statements -/

/-- Statements one after another. -/
def statements (statement : m Unit) (n : Nat) : m Unit :=
  within (.call .statements) (repeatWhile .statements Kind.opensStatement statement 1 n)

/-- Statements in a scope of their own. The scope is closed before the
brace is put away. -/
def block (statement : m Unit) (n : Nat) : m Unit :=
  within (.call .block) do
    let _ ← expect .leftBrace .blockOpen
    enter
    statements statement n
    leave
    let _ ← expect .rightBrace .blockClose

/-- A condition and a statement to go on with. -/
def loop (statement : m Unit) (n : Nat) : m Unit :=
  within (.call .loop) do
    let _ ← expect .whileWord .loopStart
    let _ ← expect .leftParen .conditionOpen
    let first ← hand
    let value ← expression n
    demand (checkCondition value) first
    let _ ← expect .rightParen .conditionClose
    statement

/-- A statement. What comes after a name tells a call from an
assignment. -/
def statement : Nat → m Unit
  | 0 => Pass.exhausted
  | n + 1 => within (.call .statement) do
    let t ← hand
    if t.kind.isName then
      if (← peek) = .leftParen then
        call n
        let _ ← expect .semicolon .callEnd
      else
        assignment n
        let _ ← expect .semicolon .assignmentEnd
    else if t.kind.isTypeWord then declarators n
    else
      match t.kind with
      | .leftBrace => block (statement n) n
      | .whileWord => loop (statement n) n
      | .semicolon => let _ ← advance
      | _ => unexpected .statement

end Parse

namespace Pass

abbrev argument (n : Nat) (function : Symbol) (position : Nat) : Pass Unit :=
  Parse.argument n function position

abbrev call (n : Nat) : Pass Unit := Parse.call n

abbrev statement (n : Nat) : Pass Unit := Parse.statement n

end Pass

end OnePass
