-- The meaning of a tree, found from left to right: the scopes that the
-- program makes, or the first thing in it that makes no sense. The tree is
-- finished before this starts, and no token is taken here.
import OnePass.Proofs.Grammar.Tree
import OnePass.Scopes.Basic
import OnePass.Typing.Rules
import OnePass.Rejection

namespace OnePass.Grammar

/-! ## Steps -/

/-- A check that goes on with the scopes made so far, or that ends with a
violation and the token that is to blame. -/
abbrev Check (α : Type) : Type := StateT Scopes (Except (Violation × Token)) α

namespace Check

variable {α : Type}

def refuse (v : Violation) (t : Token) : Check α := fun _ => .error (v, t)

/-- A check of a rule has to go well, or the token is to blame. -/
def demand (c : Except Violation α) (t : Token) : Check α :=
  match c with
  | .ok a => pure a
  | .error v => refuse v t

/-- What a name means in the current scope. -/
def lookup (name : String) : Check (Option Symbol) := do
  return (← get).lookup name

/-- Declares a symbol in the current scope; the token holds its name. -/
def declare (x : Symbol) (t : Token) : Check Unit := do
  match (← get).declare? x with
  | some scopes => set scopes
  | none => refuse (.redeclared x) t

def enter : Check Unit := modify Scopes.enter

def leave : Check Unit := modify fun s => s.leave?.getD s

variable {β : Type} {c : Check α} {d : α → Check β} {s t : Scopes}

theorem run_bind_of_ok {a : α} (h : c.run s = .ok (a, t)) : (c >>= d).run s = (d a).run t := by
  rw [StateT.run_bind, h]
  rfl

theorem run_bind_of_error {e : Violation × Token} (h : c.run s = .error e) :
    (c >>= d).run s = .error e := by
  rw [StateT.run_bind, h]
  rfl

end Check

open Check

/-! ## Expressions -/

mutual

def Primary.check : Primary → Check ValueType
  | .name t => do
    match ← lookup t.1.text with
    | none => refuse (.unknownOperand t.1.text) t.1
    | some x =>
      if x.role.isFunction then refuse (.functionOperand x.name) t.1
      else return x.type
  | .constant t => return t.1.kind.constantType?.getD .undefined
  | .group _ x _ => x.check

/-- The type of an expression: the left operand comes before the right one,
and the operator after both. -/
def Tiered.check : {tiers : List (List Operator)} → Tiered tiers → Check ValueType
  | _, .plain x => x.check
  | _, .signed sign x => do
    let type ← x.check
    demand (checkSign sign.1 type) sign.1
  | _, .lift x => x.check
  | _, .join l op r => do
    let left ← l.check
    let right ← r.check
    demand (checkOperands left op.1 right) op.1

end

/-! ## Statements -/

/-- A variable is declared before its first value is looked at. -/
def Item.check (type : ValueType) : Item → Check Unit
  | .bare t => declare ⟨t.1.text, .value type⟩ t.1
  | .valued t _ e => do
    declare ⟨t.1.text, .value type⟩ t.1
    let value ← e.check
    demand (checkAssignment ⟨t.1.text, .value type⟩ value) t.1

def Variables.check (x : Variables) : Check Unit :=
  forM x.items.toList fun i => i.check x.word.1.kind.wordType

/-- The argument at a position of a call. -/
def checkArgumentOf (function : Symbol) (position : Nat) (e : Expression) : Check Unit := do
  let value ← e.check
  demand (checkArgument function position value) e.head

/-- The arguments of a call, the first of which has position 1. -/
def checkArguments (function : Symbol) (es : List Expression) : Check Unit :=
  forM (es.zipIdx 1) fun x => checkArgumentOf function x.2 x.1

/-- The arguments of a call, if there are any. -/
def argumentList : Option (Commas Expression) → List Expression
  | none => []
  | some xs => xs.toList

/-- An assignment: the name has to mean something before the value is looked
at. -/
def checkAssign (t : Token) (e : Expression) : Check Unit := do
  match ← lookup t.text with
  | none => refuse (.unknownTarget t.text) t
  | some target => do
    let value ← e.check
    demand (checkAssignment target value) t

/-- A call: its arguments are looked at one by one, and counted at last. -/
def checkCall (t : Token) (es : List Expression) : Check Unit := do
  match ← lookup t.text with
  | none => refuse (.unknownCallee t.text) t
  | some function =>
    if function.role.isFunction then do
      checkArguments function es
      demand (checkCount function es.length) t
    else refuse (.notCallable t.text) t

mutual

def Statement.check : Statement → Check Unit
  | .assign t _ e _ => checkAssign t.1 e
  | .call t _ args _ _ => checkCall t.1 (argumentList args)
  | .block _ body _ => do
    enter
    checkBody body
    leave
  | .loop _ _ e _ body => do
    let value ← e.check
    demand (checkCondition value) e.head
    body.check
  | .declare x => x.check
  | .empty _ => return

def checkBody : List Statement → Check Unit
  | [] => return
  | x :: xs => do
    x.check
    checkBody xs

end

/-! ## Programs -/

/-- The parameters of a function, each with the token that holds its name. -/
def parameterList : Option (Commas ParameterItem) → List (Parameter × Token)
  | none => []
  | some xs => xs.toList.map fun x => (⟨x.name.1.text, x.word.1.kind.wordType⟩, x.name.1)

/-- A function stands in the scope around it, and its parameters stand in
the scope of its body. -/
def Function.check (x : Function) : Check Unit := do
  let ps := parameterList x.parameters
  declare ⟨x.name.1.text, .function .void (ps.map (·.1))⟩ x.name.1
  enter
  forM ps fun p => declare ⟨p.1.name, .parameter p.1.type⟩ p.2
  checkBody x.body
  leave

def Declaration.check : Declaration → Check Unit
  | .globals x => x.check
  | .function x => x.check

/-- The scopes of a program, or the first thing that is wrong with it. -/
def Program.meaning (x : Program) : Except Rejection Scopes :=
  match (forM x.declarations Declaration.check).run .empty with
  | .ok ((), scopes) => .ok scopes
  | .error (v, t) => .error ⟨.meaning v, t⟩

/-! ## Items in a row -/

section

variable {α β : Type}

/-- The checks of items that have positions, with what they give. -/
def collect (c : Nat → β → Check α) : Nat → List β → Check (List α)
  | _, [] => return []
  | i, x :: xs => do
    let a ← c i x
    let as ← collect c (i + 1) xs
    return a :: as

/-- Items that give nothing: only their number is left. -/
theorem collect_unit (c : Nat → β → Check Unit) (xs : List β) (i : Nat) :
    collect c i xs = do
      forM (xs.zipIdx i) fun x => c x.2 x.1
      return List.replicate xs.length () := by
  induction xs generalizing i with
  | nil => rfl
  | cons x xs ih =>
    rw [collect, ih (i + 1)]
    simp [List.replicate_succ]

theorem collect_pure (f : β → α) (xs : List β) (i : Nat) :
    collect (fun _ x => (pure (f x) : Check α)) i xs = pure (xs.map f) := by
  induction xs generalizing i with
  | nil => rfl
  | cons x xs ih => simp [collect, ih (i + 1)]

theorem forM_zipIdx (c : β → Check Unit) (xs : List β) (i : Nat) :
    (forM (xs.zipIdx i) fun x => c x.1) = forM xs c := by
  induction xs generalizing i with
  | nil => rfl
  | cons x xs ih => simp [ih (i + 1)]

theorem checkBody_eq (xs : List Statement) : checkBody xs = forM xs Statement.check := by
  induction xs with
  | nil => rw [checkBody, List.forM_nil]
  | cons x xs ih => rw [checkBody, List.forM_cons, ih]

end

end OnePass.Grammar
