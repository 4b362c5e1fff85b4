-- A pass is what the analysis does with the tokens, written down as its
-- moves: look at the token in hand, take the next one, look ahead, open or
-- close a scope, declare a name, look one up. It does not say where the
-- tokens come from; `Pass.Run` says what each move does.
import OnePass.Rejection
import OnePass.Typing.Rules

namespace OnePass

/-! ## Moves -/

/-- One move of a pass. -/
inductive Move where
  /-- Look at the token in hand. -/
  | hand
  /-- Put the token in hand away and take the next one. -/
  | advance
  /-- Look at the kind of the token after the one in hand. -/
  | peek
  /-- Open a scope inside the current one. -/
  | enter
  /-- Close the current scope. -/
  | leave
  /-- Declare a symbol in the current scope. -/
  | declare (symbol : Symbol)
  /-- Look up what a name means. -/
  | lookup (name : String)
  /-- Note that the head of a function is complete. -/
  | headed (name : String) (parameters : Nat)

/-- What a move tells. Declaring tells whether the name was free. -/
abbrev Move.Answer : Move → Type
  | hand => Token
  | advance => Unit
  | peek => Kind
  | enter => Unit
  | leave => Unit
  | declare _ => Bool
  | lookup _ => Option Symbol
  | headed .. => Unit

/-! ## Passes -/

/-- What is to be done, up to a result of type `α`. -/
inductive Pass (α : Type) where
  | done (result : α)
  | reject (rejection : Rejection)
  /-- The pass was written for fewer tokens than there are. -/
  | exhausted
  /-- A move, and what to do with what it tells. -/
  | ask (move : Move) (go : move.Answer → Pass α)

namespace Pass

/-- One pass after another. -/
def andThen {α β : Type} : Pass α → (α → Pass β) → Pass β
  | done a, f => f a
  | reject r, _ => reject r
  | exhausted, _ => exhausted
  | ask m go, f => ask m fun x => (go x).andThen f

instance : Monad Pass where
  pure := done
  bind := andThen

theorem andThen_done {α : Type} (p : Pass α) : p.andThen done = p := by
  induction p with
  | ask m go ih => exact congrArg (ask m) (funext ih)
  | _ => rfl

theorem andThen_assoc {α β γ : Type} (p : Pass α) (f : α → Pass β) (g : β → Pass γ) :
    (p.andThen f).andThen g = p.andThen fun a => (f a).andThen g := by
  induction p with
  | ask m go ih => exact congrArg (ask m) (funext ih)
  | _ => rfl

instance : LawfulMonad Pass := .mk' _ andThen_done (fun _ _ => rfl) andThen_assoc

/-! ## Steps -/

/-- The token in hand. -/
def hand : Pass Token := ask .hand done

/-- Puts the token in hand away, and takes the next one. -/
def advance : Pass Token := do
  let t ← hand
  ask .advance done
  return t

/-- The kind of the token after the one in hand. -/
def peek : Pass Kind := ask .peek done

def enter : Pass Unit := ask .enter done

def leave : Pass Unit := ask .leave done

def lookup (name : String) : Pass (Option Symbol) := ask (.lookup name) done

def headed (name : String) (parameters : Nat) : Pass Unit := ask (.headed name parameters) done

/-- The program makes no sense at a token. -/
def refuse {α : Type} (v : Violation) (token : Token) : Pass α := reject ⟨.meaning v, token⟩

/-- The token in hand cannot stand here. -/
def unexpected {α : Type} (e : Expectation) : Pass α := do
  reject ⟨.grammar e, ← hand⟩

/-- A check that has to go well, or the token is to blame. -/
def demand {α : Type} (check : Except Violation α) (token : Token) : Pass α :=
  match check with
  | .ok a => done a
  | .error v => refuse v token

/-- Declares a symbol; the token holds its name. -/
def declare (x : Symbol) (token : Token) : Pass Unit := do
  if ← ask (.declare x) done then return else refuse (.redeclared x) token

/-- Takes a token of this kind. -/
def expect (k : Kind) (e : Expectation) : Pass Token := do
  if (← hand).kind = k then advance else unexpected e

/-- Takes a name. -/
def expectName (e : Expectation) : Pass Token := do
  if (← hand).kind.isName then advance else unexpected e

/-- Takes a token of this kind if it is in hand, and tells whether it was. -/
def accept (k : Kind) : Pass Bool := do
  if (← hand).kind = k then
    let _ ← advance
    return true
  else return false

end Pass

end OnePass
