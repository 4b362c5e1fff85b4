-- The grammar says at each step which production it belongs to, and which
-- round of a repetition. An analysis does not care and takes the steps only;
-- but who wants to know how deep it is, or how often it has been round, can
-- follow the same grammar and listen.
import OnePass.Pass.Basic

namespace OnePass

/-! ## Sites -/

/-- The productions of the grammar. -/
inductive Production where
  | program | declarations
  | typeWord | declarators | names
  | function | parameters | parameter
  | statements | statement | block | loop | assignment | call | arguments
  /-- An expression of these tiers of operators, the loosest of which is
  folded in it. -/
  | tier (tiers : List (List Operator))
  | signed | primary
deriving DecidableEq

/-- The repetitions in them. -/
inductive Repetition where
  | declarations | names | parameters | statements | arguments | operators
  /-- The parameters of a function are declared when all of them are read. -/
  | declared
deriving DecidableEq

/-- What a step can belong to: a production, or a round of a repetition. The
first round has the number 1. -/
inductive Site where
  | call (p : Production)
  | round (l : Repetition) (number : Nat)
deriving DecidableEq

/-! ## Followers -/

/-- Where a grammar can be followed: there are the steps of a pass, and a mark
around all that belongs to a site. -/
class Marking (m : Type → Type) where
  step {α : Type} (p : Pass α) : m α
  within {α : Type} (site : Site) (steps : m α) : m α

section

variable {m : Type → Type} [Marking m] {α : Type}

instance : MonadLift Pass m := ⟨Marking.step⟩

@[simp] theorem monadLift_eq_step (p : Pass α) : (monadLift p : m α) = Marking.step p := rfl

end

/-- A pass takes the steps, and hears no marks. -/
instance : Marking Pass where
  step p := p
  within _ p := p

namespace Pass

variable {α : Type}

@[simp] theorem step_eq (p : Pass α) : Marking.step p = p := rfl

@[simp] theorem within_eq (site : Site) (p : Pass α) : Marking.within site p = p := rfl

end Pass

namespace Parse

open Pass (hand accept)
open Marking (within)

variable {m : Type → Type} [Monad m] [Marking m] {α : Type}

/-! ## Repetition -/

/-- The body as long as the token in hand can open it. A budget `n` is enough
for fewer than `n` rounds, of which the first has the number `k`. -/
def repeatWhile (l : Repetition) (opens : Kind → Bool) (body : m Unit) : (k n : Nat) → m Unit
  | _, 0 => Pass.exhausted
  | k, n + 1 => do
    if opens (← hand).kind then
      within (.round l k) body
      repeatWhile l opens body (k + 1) n

/-- Items with commas between them, the first of which has the position `k`. A
round is an item and the comma behind it, if there is one. A budget `n` is
enough for `n` items. -/
def separated (l : Repetition) (item : Nat → m α) : (k n : Nat) → m (List α)
  | _, 0 => Pass.exhausted
  | k, n + 1 => do
    let round ← within (.round l k) do
      let a ← item k
      let more ← accept .comma
      return (a, more)
    if round.2 then
      let as ← separated l item (k + 1) n
      return round.1 :: as
    else return [round.1]

end Parse

/-- What a pass does with an item and with the comma behind it. -/
theorem Pass.separated_succ {α : Type} (l : Repetition) (item : Nat → Pass α) (k n : Nat) :
    Parse.separated l item k (n + 1) = do
      let a ← item k
      if ← accept .comma then
        let as ← Parse.separated l item (k + 1) n
        return a :: as
      else return [a] := by
  simp [Parse.separated]

end OnePass
