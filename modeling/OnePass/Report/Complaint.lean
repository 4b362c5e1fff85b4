-- A complaint is what a reader is told: at which stage something went
-- wrong, what, and at which token. A file that could not be read is a
-- complaint without a token.
import OnePass.Rejection

namespace OnePass

inductive Complaint where
  | located (stage : Stage) (message : String) (token : Token)
  | unreadable (message : String)
deriving DecidableEq

/-- The complaint about a rejected program. -/
def Rejection.complaint (r : Rejection) : Complaint :=
  .located r.cause.stage r.cause.message r.token

namespace Complaint

/-- What went wrong, without where. -/
def message : Complaint → String
  | located _ m _ => m
  | unreadable m => m

/-- The line of the token; 0 if there is none. -/
def line : Complaint → Nat
  | located _ _ t => t.line
  | unreadable _ => 0

/-- The spelling of the token, which is empty if there is none. -/
def lexeme : Complaint → String
  | located _ _ t => t.text
  | unreadable _ => ""

def span? : Complaint → Option Span
  | located _ _ t => some t.span
  | unreadable _ => none

def stage? : Complaint → Option Stage
  | located s _ _ => some s
  | unreadable _ => none

/-- The complaint on one line. -/
def shown : Complaint → String
  | located s m t =>
    s.title ++ " error on line " ++ toString t.line ++ " near '" ++ t.text ++ "': " ++ m
  | unreadable m => "IO error: " ++ m

end Complaint

end OnePass
