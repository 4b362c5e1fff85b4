-- Names in place of other names, in symbols, in scopes and in what can be
-- said against a program. As long as two names never become one, a renamed
-- table of scopes answers every question as the table itself does.
import OnePass.Scopes.Basic
import OnePass.Typing.Rules
import OnePass.Rejection

namespace OnePass

/-! ## Renamed things -/

def Parameter.rename (word : String → String) (p : Parameter) : Parameter :=
  ⟨word p.name, p.type⟩

/-- The parameters of a function are renamed with it. -/
def Role.rename (word : String → String) : Role → Role
  | .value t => .value t
  | .parameter t => .parameter t
  | .function t ps => .function t (ps.map (·.rename word))

def Symbol.rename (word : String → String) (x : Symbol) : Symbol :=
  ⟨word x.name, x.role.rename word⟩

/-- The spelling of an operator is no name and stays. -/
def Violation.rename (word : String → String) : Violation → Violation
  | .redeclared x => .redeclared (x.rename word)
  | .unknownTarget n => .unknownTarget (word n)
  | .unknownCallee n => .unknownCallee (word n)
  | .notCallable n => .notCallable (word n)
  | .unknownOperand n => .unknownOperand (word n)
  | .functionOperand n => .functionOperand (word n)
  | .notAssignable x => .notAssignable (x.rename word)
  | .unfitValue v x => .unfitValue v (x.rename word)
  | .unfitOperands o l r => .unfitOperands o l r
  | .unfitSign o t => .unfitSign o t
  | .tooManyArguments f => .tooManyArguments (word f)
  | .unfitArgument i f e t => .unfitArgument i (word f) e t
  | .wrongCount f e n => .wrongCount (word f) e n
  | .voidCondition => .voidCondition

def Cause.rename (word : String → String) : Cause → Cause
  | .spelling f => .spelling f
  | .grammar e => .grammar e
  | .meaning v => .meaning (v.rename word)

def Birth.rename (word : String → String) : Birth → Birth
  | .scope p => .scope p
  | .symbol home x => .symbol home (x.rename word)

def Scopes.rename (word : String → String) (s : Scopes) : Scopes :=
  ⟨s.births.map (·.rename word), s.current⟩

/-! ## No name changed -/

@[simp] theorem Role.rename_id (x : Role) : x.rename id = x := by
  have hp : (Parameter.rename id : Parameter → Parameter) = id := rfl
  cases x with
  | value t => rfl
  | parameter t => rfl
  | function t ps => simp [Role.rename, hp]

@[simp] theorem Symbol.rename_id (x : Symbol) : x.rename id = x := by
  simp [Symbol.rename]

@[simp] theorem Cause.rename_id (c : Cause) : c.rename id = c := by
  rcases c with f | e | v
  · rfl
  · rfl
  · cases v <;> simp [Cause.rename, Violation.rename]

@[simp] theorem Scopes.rename_id (s : Scopes) : s.rename id = s := by
  have hb : ∀ b : Birth, b.rename id = b := by
    intro b
    cases b <;> simp [Birth.rename]
  simp [Scopes.rename, hb]

/-! ## Symbols -/

section
variable (word : String → String) (x : Symbol)

@[simp] theorem Symbol.name_rename : (x.rename word).name = word x.name := rfl

@[simp] theorem Symbol.type_rename : (x.rename word).type = x.type := by
  rcases x with ⟨n, t | t | ⟨t, ps⟩⟩ <;> rfl

@[simp] theorem Symbol.isFunction_rename :
    (x.rename word).role.isFunction = x.role.isFunction := by
  rcases x with ⟨n, t | t | ⟨t, ps⟩⟩ <;> rfl

@[simp] theorem Symbol.parameters_rename :
    (x.rename word).parameters = x.parameters.map (·.rename word) := by
  rcases x with ⟨n, t | t | ⟨t, ps⟩⟩ <;> rfl

end

/-! ## Scopes -/

namespace Scopes

variable {word : String → String} (s : Scopes)

@[simp] theorem parents_rename : (s.rename word).parents = s.parents := by
  unfold parents rename
  rw [List.filterMap_map]
  congr 1
  funext b
  cases b <;> rfl

@[simp] theorem scopeCount_rename : (s.rename word).scopeCount = s.scopeCount := by
  simp [scopeCount]

theorem symbols_rename :
    (s.rename word).symbols = s.symbols.map fun x => (x.1, x.2.rename word) := by
  unfold symbols rename
  rw [List.filterMap_map, List.map_filterMap]
  congr 1
  funext b
  cases b <;> rfl

@[simp] theorem enclosing_rename (id : Nat) : (s.rename word).enclosing id = s.enclosing id := by
  simp [enclosing]

@[simp] theorem depth_rename (id : Nat) : (s.rename word).depth id = s.depth id := by
  simp [depth]

theorem findIn_rename (hw : Function.Injective word) (id : Nat) (name : String) :
    (s.rename word).findIn id (word name) = s.findIn id name := by
  unfold findIn
  rw [symbols_rename, List.findIdx?_map]
  congr 1
  funext x
  simp [hw.eq_iff]

theorem find_rename (hw : Function.Injective word) (name : String) :
    (s.rename word).find (word name) = s.find name := by
  unfold find
  rw [enclosing_rename]
  congr 1
  funext id
  exact s.findIn_rename hw id name

/-- A renamed name means the renamed symbol. -/
theorem lookup_rename (hw : Function.Injective word) (name : String) :
    (s.rename word).lookup (word name) = (s.lookup name).map (·.rename word) := by
  unfold lookup
  rw [s.find_rename hw]
  cases s.find name with
  | none => rfl
  | some i =>
    simp only [Option.bind_some, symbol?, symbols_rename, List.getElem?_map]
    cases s.symbols[i]? <;> rfl

theorem enter_rename : s.enter.rename word = (s.rename word).enter := by
  have hc : (s.rename word).enter.current = s.enter.current := scopeCount_rename s
  unfold enter at hc ⊢
  simp only [rename, List.map_append, List.map_cons, List.map_nil, Birth.rename] at hc ⊢
  rw [hc]

theorem leave?_rename : (s.rename word).leave? = s.leave?.map (·.rename word) := by
  unfold leave?
  have hp : (s.rename word).parent? (s.rename word).current = s.parent? s.current := by
    show (s.rename word).parent? s.current = _
    cases s.current <;> simp [parent?]
  rw [hp]
  cases s.parent? s.current <;> rfl

/-- A renamed scope takes a renamed symbol if the scope takes the symbol. -/
theorem declare?_rename (hw : Function.Injective word) (x : Symbol) :
    (s.rename word).declare? (x.rename word) = (s.declare? x).map (·.rename word) := by
  unfold declare? findHere
  rw [Symbol.name_rename, show (s.rename word).current = s.current from rfl,
    s.findIn_rename hw]
  split
  · rfl
  · simp [rename, Birth.rename]

end Scopes

/-! ## Checks -/

section
variable (word : String → String)

theorem checkAssignment_rename (x : Symbol) (v : ValueType) :
    checkAssignment (x.rename word) v = (checkAssignment x v).mapError (·.rename word) := by
  unfold checkAssignment
  rw [Symbol.isFunction_rename, Symbol.type_rename]
  split
  · rfl
  · split <;> rfl

theorem checkArgument_rename (f : Symbol) (i : Nat) (v : ValueType) :
    checkArgument (f.rename word) i v = (checkArgument f i v).mapError (·.rename word) := by
  unfold checkArgument
  cases i with
  | zero => rfl
  | succ i =>
    simp only [Symbol.parameters_rename, List.getElem?_map]
    cases f.parameters[i]? with
    | none => rfl
    | some p =>
      simp only [Option.map_some, Parameter.rename, Symbol.name_rename]
      split <;> rfl

theorem checkCount_rename (f : Symbol) (n : Nat) :
    checkCount (f.rename word) n = (checkCount f n).mapError (·.rename word) := by
  unfold checkCount
  rw [Symbol.parameters_rename, List.length_map]
  split <;> rfl

end

end OnePass
