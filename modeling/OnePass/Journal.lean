-- The journal of an analysis: what happened, in order, and how much it
-- matters.
import OnePass.Scopes.Symbol
import OnePass.Token.Basic
import OnePass.Text.Escaped

namespace OnePass

/-- How much an entry matters, the most first. -/
inductive Severity where
  | info | debug | trace
deriving DecidableEq

namespace Severity

def name : Severity → String
  | info => "INFO"
  | debug => "DEBUG"
  | trace => "TRACE"

/-- A number that grows with detail. -/
def detail : Severity → Nat
  | info => 0
  | debug => 1
  | trace => 2

end Severity

/-- An entry of the journal. -/
inductive Event where
  | started (bytes : Nat)
  /-- A token was read, be it only to look ahead. The finish is not noted. -/
  | read (token : Token)
  | declared (symbol : Symbol) (scope : Nat)
  | entered (scope depth : Nat)
  | left (scope : Nat)
  /-- The head of a function is complete. -/
  | headed (name : String) (parameters : Nat)
  | finished (scopes symbols : Nat)
deriving DecidableEq

namespace Event

def severity : Event → Severity
  | started _ | finished .. => .info
  | declared .. | entered .. | left _ | headed .. => .debug
  | read _ => .trace

/-- The entry in words. -/
def message : Event → String
  | started n => "analysis started (" ++ toString n ++ " bytes)"
  | read t => "line " ++ toString t.line ++ ": " ++ t.kind.tag ++ " " ++ Text.quoted t.text
  | declared x i => "declared " ++ x.shown ++ " in scope " ++ toString i
  | entered i d => "entered scope " ++ toString i ++ " (depth " ++ toString d ++ ")"
  | left i => "left scope " ++ toString i
  | headed f n => "function '" ++ f ++ "' with " ++ toString n ++ " parameter(s)"
  | finished s x =>
    "analysis finished: " ++ toString s ++ " scope(s), " ++ toString x ++ " symbol(s)"

end Event

/-- The entries that matter at least as much as asked for. -/
def upTo (level : Severity) (events : List Event) : List Event :=
  events.filter fun e => e.severity.detail ≤ level.detail

end OnePass
