-- The rules for values: what an operator makes of its operands, what can be
-- put where, and what a call takes.
import OnePass.Typing.Violation
import OnePass.Token.Basic

namespace OnePass

/-! ## Operators -/

namespace Operator

/-- The type that the operator makes of its operands, if it can join them.
One operand of type `double` decides a sum, whatever the other one is. The
operators on bits and the remainder take whole numbers only. -/
def result? (o : Operator) (left right : ValueType) : Option ValueType :=
  match o with
  | plus | minus | times | divide =>
    if left = .double ∨ right = .double then some .double
    else if left.isWhole ∧ right.isWhole then some .int
    else none
  | remainder | bitOr | bitXor | bitAnd | shiftLeft | shiftRight =>
    if left.isWhole ∧ right.isWhole then some .int else none
  | equal | notEqual | less | lessEqual | greater | greaterEqual =>
    if left.isNumber ∧ right.isNumber then some .int else none

end Operator

/-- The type of two operands with the token `op` between them. Only the
kind of the token counts; its spelling is for the complaint. -/
def checkOperands (left : ValueType) (op : Token) (right : ValueType) :
    Except Violation ValueType :=
  let result := match op.kind with
    | .operator o => o.result? left right
    | _ => none
  match result with
  | some t => .ok t
  | none => .error (.unfitOperands op.text left right)

/-- The type of an operand with the sign `op` before it. -/
def checkSign (op : Token) (operand : ValueType) : Except Violation ValueType :=
  if operand.isNumber then .ok operand else .error (.unfitSign op.text operand)

/-! ## Places -/

/-- A value of type `value` can be put into a place of type `target`. -/
def ValueType.fits (target value : ValueType) : Bool :=
  target = value || (target.takesNumbers && value.isNumber)

/-- A value of this type can be put into the symbol. -/
def checkAssignment (target : Symbol) (value : ValueType) : Except Violation Unit :=
  if target.role.isFunction then .error (.notAssignable target)
  else if target.type.fits value then .ok ()
  else .error (.unfitValue value target)

/-- A loop can go on by a value of this type. -/
def checkCondition (value : ValueType) : Except Violation Unit :=
  if value = .void then .error .voidCondition else .ok ()

/-! ## Calls -/

/-- The function takes a value of this type at a position. The first
position is 1. No value is converted for a call. -/
def checkArgument (function : Symbol) (position : Nat) (value : ValueType) :
    Except Violation Unit :=
  let parameter? := match position with
    | 0 => none
    | i + 1 => function.parameters[i]?
  match parameter? with
  | none => .error (.tooManyArguments function.name)
  | some p =>
    if p.type = value then .ok ()
    else .error (.unfitArgument position function.name p.type value)

/-- The function takes so many values. -/
def checkCount (function : Symbol) (given : Nat) : Except Violation Unit :=
  if given = function.parameters.length then .ok ()
  else .error (.wrongCount function.name function.parameters.length given)

/-! ## Laws -/

/-- Numbers stay numbers under every operator. -/
theorem Operator.isNumber_of_result? {o : Operator} {l r t : ValueType}
    (h : o.result? l r = some t) : t.isNumber = true := by
  revert h
  unfold result?
  split <;> (repeat' split) <;> simp <;> rintro rfl <;> rfl

/-- On numbers, only an operator on bits or the remainder can fail, and only
by an operand of type `double`. -/
theorem Operator.double_of_result?_none {o : Operator} {l r : ValueType}
    (hl : l.isNumber = true) (hr : r.isNumber = true) (h : o.result? l r = none) :
    (l = .double ∨ r = .double) ∧
      o ∈ [remainder, bitOr, bitXor, bitAnd, shiftLeft, shiftRight] := by
  have whole : ¬(l.isWhole = true ∧ r.isWhole = true) → l = .double ∨ r = .double := by
    simp only [ValueType.isNumber, Bool.or_eq_true, decide_eq_true_eq] at hl hr
    intro hw
    rcases hl with hl | hl
    · rcases hr with hr | hr
      · exact absurd ⟨hl, hr⟩ hw
      · exact Or.inr hr
    · exact Or.inl hl
  cases o with
  | plus | minus | times | divide =>
    simp only [result?] at h
    split at h
    · cases h
    · rename_i hd
      split at h
      · cases h
      · rename_i hw
        exact absurd (whole hw) hd
  | remainder | bitOr | bitXor | bitAnd | shiftLeft | shiftRight =>
    simp only [result?] at h
    split at h
    · cases h
    · rename_i hw
      exact ⟨whole hw, by decide⟩
  | equal | notEqual | less | lessEqual | greater | greaterEqual =>
    simp [result?, hl, hr] at h

/-- A number fits wherever numbers are kept, but for a place for a
character: there only a character fits. -/
theorem ValueType.fits_iff {target value : ValueType} (ht : target.isNumber = true)
    (hv : value.isNumber = true) : target.fits value = false ↔ target = .char ∧ value ≠ .char := by
  revert ht hv
  cases target <;> cases value <;> decide

end OnePass
