-- Expressions: what they are made of, and the type of their value. A budget
-- bounds how deep groups are nested and how long a chain of operators is.
import OnePass.Pass.Marks

namespace OnePass

namespace Parse

open Pass (hand advance expect lookup refuse unexpected demand)
open Marking (within)

variable {m : Type → Type} [Monad m] [Marking m]

/-- A name with a value, a constant, or a group in parentheses; `inner` is
what a group holds, and is not made before there is one. -/
def primary (inner : Unit → m ValueType) : m ValueType :=
  within (.call .primary) do
    let t ← hand
    if t.kind.isName then
      match ← lookup t.text with
      | none => refuse (.unknownOperand t.text) t
      | some x =>
        if x.role.isFunction then refuse (.functionOperand x.name) t
        else
          let _ ← advance
          return x.type
    else
      match t.kind.constantType? with
      | some type =>
        let _ ← advance
        return type
      | none =>
        if t.kind = .leftParen then
          let _ ← advance
          let type ← inner ()
          let _ ← expect .rightParen .groupClose
          return type
        else unexpected .operand

/-- A primary with at most one sign before it. -/
def signed (inner : Unit → m ValueType) : m ValueType :=
  within (.call .signed) do
    let sign ← hand
    if sign.kind.isSign then
      let _ ← advance
      let type ← primary inner
      demand (checkSign sign type) sign
    else primary inner

/-- What follows an operand of type `left`: operators of one tier, each with
another operand, taken from the left. A round is an operator and the operand
behind it. -/
def chain (tier : List Operator) (operand : m ValueType) : (k n : Nat) → ValueType → m ValueType
  | _, 0, _ => Pass.exhausted
  | k, n + 1, left => do
    let op ← hand
    if op.kind.isOperatorOf tier then
      let type ← within (.round .operators k) do
        let _ ← advance
        let right ← operand
        demand (checkOperands left op right) op
      chain tier operand (k + 1) n type
    else return left

/-- An expression of the given tiers of operators, the loosest first. -/
def tiered (operand : m ValueType) (n : Nat) : List (List Operator) → m ValueType
  | [] => operand
  | tier :: tiers => within (.call (.tier (tier :: tiers))) do
    let left ← tiered operand n tiers
    chain tier (tiered operand n tiers) 1 n left

/-- An expression. -/
def expression : Nat → m ValueType
  | 0 => Pass.exhausted
  | n + 1 => tiered (signed fun _ => expression n) n Operator.tiers

end Parse

namespace Pass

abbrev expression (n : Nat) : Pass ValueType := Parse.expression n

variable (operand : Pass ValueType) (n : Nat) (tier : List Operator) (tiers : List (List Operator))

theorem tiered_nil : Parse.tiered operand n [] = operand := rfl

/-- The operands of one tier are expressions of the tiers behind it. -/
theorem tiered_cons :
    Parse.tiered operand n (tier :: tiers) =
      Parse.tiered operand n tiers >>= Parse.chain tier (Parse.tiered operand n tiers) 1 n := rfl

end Pass

end OnePass
