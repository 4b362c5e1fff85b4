-- Without the marks, what is heard of the grammar is what the analysis runs.
import OnePass.Proofs.Descent.Marks

namespace OnePass.Descent

open Parse

variable {α : Type}

/-! ## Repetition -/

@[simp] theorem plain_repeatWhile (l : Repetition) (opens : Kind → Bool) (body : Descent Unit)
    (k n : Nat) : (repeatWhile l opens body k n).plain = repeatWhile l opens body.plain k n := by
  induction n generalizing k with
  | zero => simp [repeatWhile]
  | succ n ih => simp [repeatWhile, ih]

@[simp] theorem plain_separated (l : Repetition) (item : Nat → Descent α) (k n : Nat) :
    (separated l item k n).plain = separated l (fun k => (item k).plain) k n := by
  induction n generalizing k with
  | zero => simp [separated]
  | succ n ih => simp [separated, ih]

/-! ## Expressions -/

@[simp] theorem plain_primary (inner : Unit → Descent ValueType) :
    (primary inner).plain = primary fun u => (inner u).plain := by
  simp only [primary, within_eq, monadLift_eq_step, step_eq, Pass.within_eq, Pass.step_eq,
    plain_within, plain_bind, plain_ite, plain_lift]
  refine bind_congr fun t => ?_
  split
  · refine bind_congr fun x => ?_
    cases x <;> simp
  · cases t.kind.constantType? <;> simp

@[simp] theorem plain_signed (inner : Unit → Descent ValueType) :
    (signed inner).plain = signed fun u => (inner u).plain := by
  simp [signed]

@[simp] theorem plain_chain (tier : List Operator) (operand : Descent ValueType) (k n : Nat)
    (left : ValueType) :
    (chain tier operand k n left).plain = chain tier operand.plain k n left := by
  induction n generalizing k left with
  | zero => simp [chain]
  | succ n ih => simp [chain, ih]

@[simp] theorem plain_tiered (operand : Descent ValueType) (n : Nat)
    (tiers : List (List Operator)) :
    (tiered operand n tiers).plain = tiered operand.plain n tiers := by
  induction tiers with
  | nil => rw [tiered, tiered]
  | cons tier tiers ih => simp [tiered, ih]

@[simp] theorem plain_expression (n : Nat) :
    (expression n : Descent ValueType).plain = expression n := by
  induction n with
  | zero => simp [expression]
  | succ n ih => simp [expression, ih]

/-! ## Variables -/

@[simp] theorem plain_typeWord : (typeWord : Descent ValueType).plain = typeWord := by
  simp [typeWord]

@[simp] theorem plain_declarator (n : Nat) (type : ValueType) :
    (declarator n type : Descent Unit).plain = declarator n type := by
  simp [declarator]

@[simp] theorem plain_names (n : Nat) (type : ValueType) :
    (names n type : Descent Unit).plain = names n type := by
  simp [names]

@[simp] theorem plain_declarators (n : Nat) :
    (declarators n : Descent Unit).plain = declarators n := by
  simp [declarators]

/-! ## Calls and assignments -/

@[simp] theorem plain_argument (n : Nat) (function : Symbol) (position : Nat) :
    (argument n function position : Descent Unit).plain = argument n function position := by
  simp [argument]

@[simp] theorem plain_arguments (n : Nat) (function : Symbol) (name : Token) :
    (arguments n function name : Descent Unit).plain = arguments n function name := by
  simp [arguments]

@[simp] theorem plain_call (n : Nat) : (call n : Descent Unit).plain = call n := by
  simp only [call, within_eq, monadLift_eq_step, step_eq, Pass.within_eq, Pass.step_eq,
    plain_within, plain_bind, plain_lift]
  refine bind_congr fun name => bind_congr fun x => ?_
  cases x <;> simp

@[simp] theorem plain_assignment (n : Nat) :
    (assignment n : Descent Unit).plain = assignment n := by
  simp only [assignment, within_eq, monadLift_eq_step, step_eq, Pass.within_eq, Pass.step_eq,
    plain_within, plain_bind, plain_lift]
  refine bind_congr fun name => bind_congr fun x => ?_
  cases x <;> simp

/-! ## Statements -/

@[simp] theorem plain_statements (statement : Descent Unit) (n : Nat) :
    (statements statement n).plain = statements statement.plain n := by
  simp [statements]

@[simp] theorem plain_block (statement : Descent Unit) (n : Nat) :
    (block statement n).plain = block statement.plain n := by
  simp [block]

@[simp] theorem plain_loop (statement : Descent Unit) (n : Nat) :
    (loop statement n).plain = loop statement.plain n := by
  simp [loop]

@[simp] theorem plain_statement (n : Nat) : (statement n : Descent Unit).plain = statement n := by
  induction n with
  | zero => simp [statement]
  | succ n ih =>
    simp only [statement, within_eq, monadLift_eq_step, step_eq, Pass.within_eq, Pass.step_eq,
      plain_within, plain_bind, plain_ite, plain_lift, plain_call, plain_assignment,
      plain_declarators]
    refine bind_congr fun t => ?_
    congr
    cases t.kind <;> simp [ih]

/-! ## Programs -/

@[simp] theorem plain_parameter : (parameter : Descent (Parameter × Token)).plain = parameter := by
  simp [parameter]

@[simp] theorem plain_parameters (n : Nat) :
    (parameters n : Descent (List (Parameter × Token))).plain = parameters n := by
  simp [parameters]

@[simp] theorem plain_declareParameters (k : Nat) (ps : List (Parameter × Token)) :
    (declareParameters k ps : Descent Unit).plain = declareParameters k ps := by
  induction ps generalizing k with
  | nil => simp [declareParameters]
  | cons p ps ih => simp [declareParameters, ih]

@[simp] theorem plain_function (n : Nat) : (function n : Descent Unit).plain = function n := by
  simp [function]

@[simp] theorem plain_declaration (n : Nat) :
    (declaration n : Descent Unit).plain = declaration n := by
  simp [declaration]

@[simp] theorem plain_declarations (n : Nat) :
    (declarations n : Descent Unit).plain = declarations n := by
  simp [declarations]

abbrev program (n : Nat) : Descent Unit := Parse.program n

/-- The marks change nothing of what the analysis does. -/
theorem plain_program (n : Nat) : (program n).plain = Pass.program n := by
  simp [Parse.program]

end OnePass.Descent
