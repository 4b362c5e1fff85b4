-- Functions, and whole programs.
import OnePass.Pass.Statement

namespace OnePass

namespace Parse

open Pass (hand expect expectName declare headed enter leave unexpected)
open Marking (within)

variable {m : Type → Type} [Monad m] [Marking m]

/-- A parameter, and the token that holds its name. -/
def parameter : m (Parameter × Token) :=
  within (.call .parameter) do
    let type ← typeWord
    let name ← expect .name .parameterName
    return (⟨name.text, type⟩, name)

/-- The parameters of a function, up to the closing parenthesis. -/
def parameters (n : Nat) : m (List (Parameter × Token)) :=
  within (.call .parameters) do
    if (← hand).kind.isTypeWord then
      let ps ← separated .parameters (fun _ => parameter) 1 n
      if (← hand).kind.isTypeWord then unexpected .commaBetweenParameters
      else return ps
    else return []

/-- Declares the parameters, one in each round. -/
def declareParameters : (k : Nat) → List (Parameter × Token) → m Unit
  | _, [] => return
  | k, (p, token) :: ps => do
    within (.round .declared k) (declare ⟨p.name, .parameter p.type⟩ token)
    declareParameters (k + 1) ps

/-- A function. It is declared before its body, so it can call itself. Its
parameters stand in the scope of the body. -/
def function (n : Nat) : m Unit :=
  within (.call .function) do
    let _ ← expect .voidWord .functionStart
    let name ← expectName .functionName
    let _ ← expect .leftParen .parametersOpen
    let ps ← parameters n
    let _ ← expect .rightParen .parametersClose
    declare ⟨name.text, .function .void (ps.map (·.1))⟩ name
    headed name.text ps.length
    enter
    declareParameters 1 ps
    let _ ← expect .leftBrace .bodyOpen
    statements (statement n) n
    let _ ← expect .rightBrace .bodyClose
    leave

/-- A declaration at the top of a program. -/
def declaration (n : Nat) : m Unit := do
  if (← hand).kind = .voidWord then function n else declarators n

/-- The declarations of a program, up to what cannot open one. -/
def declarations (n : Nat) : m Unit :=
  within (.call .declarations) do
    repeatWhile .declarations Kind.opensDeclaration (declaration n) 1 n
    if (← hand).kind = .name then unexpected .declarationBeforeName

/-- A whole program: declarations up to the finish. -/
def program (n : Nat) : m Unit :=
  within (.call .program) do
    declarations n
    let _ ← expect .finish .endOfProgram

end Parse

namespace Pass

abbrev program (n : Nat) : Pass Unit := Parse.program n

end Pass

end OnePass
