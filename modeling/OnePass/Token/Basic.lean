-- Tokens: what was read, how it was spelled, and where it stands.
import OnePass.Token.Kind

namespace OnePass

/-- A piece of a text, from the byte `start` to the byte before `stop`. -/
structure Span where
  start : Nat
  stop : Nat
deriving DecidableEq

/-- One token of a text. -/
structure Token where
  kind : Kind
  /-- The spelling, as it stands in the text. -/
  text : String
  /-- The line of the first character; the first line is 1. -/
  line : Nat
  span : Span
deriving DecidableEq

namespace Token

/-- The token after all others, at the end of the text. -/
def finish (line offset : Nat) : Token :=
  ⟨.finish, "EOF", line, ⟨offset, offset⟩⟩

/-- An invalid token. -/
def invalid (fault : Fault) (text : String) (line : Nat) (span : Span) : Token :=
  ⟨.invalid fault, text, line, span⟩

@[simp] theorem kind_finish (line offset : Nat) : (finish line offset).kind = .finish := rfl

/-- The token with its line: `3: Identifier 'x'`. -/
def listed (t : Token) : String :=
  toString t.line ++ ": " ++ t.kind.tag ++ " '" ++ t.text ++ "'"

end Token

/-- A line for each token. -/
def listing (ts : List Token) : String :=
  String.join (ts.map fun t => t.listed ++ "\n")

end OnePass
