-- Why a program is turned down, and at which token.
import OnePass.Expectation
import OnePass.Typing.Violation
import OnePass.Token.Basic

namespace OnePass

/-- The part of the analysis that turns a program down. -/
inductive Stage where
  | lexical | grammatical | semantic
deriving DecidableEq

/-- The stage as a word in front of `error`. -/
def Stage.title : Stage → String
  | .lexical => "Lexical"
  | .grammatical => "Syntax"
  | .semantic => "Semantic"

/-- The cause of a rejection. -/
inductive Cause where
  | spelling (fault : Fault)
  | grammar (expectation : Expectation)
  | meaning (violation : Violation)
deriving DecidableEq

namespace Cause

def stage : Cause → Stage
  | spelling _ => .lexical
  | grammar _ => .grammatical
  | meaning _ => .semantic

/-- The cause in words. -/
def message : Cause → String
  | spelling f => f.message
  | grammar e => e.message
  | meaning v => v.message

end Cause

/-- A cause and the token at which it shows. There is never more than one:
the first one ends the analysis. -/
structure Rejection where
  cause : Cause
  token : Token
deriving DecidableEq

end OnePass
