-- The scopes of a program and the symbols declared in them. Scopes and
-- symbols are kept as one list of births, oldest first, and nothing is ever
-- taken off it: a scope that was left can still be asked for. The scopes
-- are numbered in the order of their births, and so are the symbols. Scope
-- 0 is the global one; it is there from the start and has no birth.
import OnePass.Scopes.Symbol

namespace OnePass

/-- A scope or a symbol comes into being. -/
inductive Birth where
  /-- A scope inside the scope `parent`. -/
  | scope (parent : Nat)
  /-- A symbol declared in the scope `home`. -/
  | symbol (home : Nat) (symbol : Symbol)
deriving DecidableEq

/-- The scopes so far, and the one that is open innermost. -/
structure Scopes where
  births : List Birth
  current : Nat
deriving DecidableEq

/-- Something that stands in a scope. -/
inductive Member where
  | scope (id : Nat)
  | symbol (id : Nat) (symbol : Symbol)
deriving DecidableEq

namespace Scopes

/-- Only the global scope, with nothing in it. -/
def empty : Scopes := ⟨[], 0⟩

instance : Inhabited Scopes := ⟨empty⟩

/-! ## Scopes -/

/-- The parents of all scopes but the global one, by age. -/
def parents (s : Scopes) : List Nat :=
  s.births.filterMap fun
    | .scope p => some p
    | .symbol .. => none

/-- How many scopes there are. -/
def scopeCount (s : Scopes) : Nat := s.parents.length + 1

/-- The scope around a scope. The global scope has none. -/
def parent? (s : Scopes) : Nat → Option Nat
  | 0 => none
  | id + 1 => s.parents[id]?

/-- A scope and the scopes around it, innermost first, where `parents`
holds the parents by age. A parent is older than its child. -/
def climb (parents : Array Nat) : Nat → List Nat
  | 0 => [0]
  | id + 1 =>
    match parents[id]? with
    | some p => if p ≤ id then (id + 1) :: climb parents p else [id + 1]
    | none => [id + 1]

/-- A scope and the scopes around it, innermost first. -/
def enclosing (s : Scopes) (id : Nat) : List Nat := climb s.parents.toArray id

/-- How many scopes are around a scope. -/
def depth (s : Scopes) (id : Nat) : Nat := (s.enclosing id).length - 1

/-! ## Symbols -/

/-- The symbols by age, each with the scope that it was declared in. -/
def symbols (s : Scopes) : List (Nat × Symbol) :=
  s.births.filterMap fun
    | .scope _ => none
    | .symbol home x => some (home, x)

/-- How many symbols there are. -/
def symbolCount (s : Scopes) : Nat := s.symbols.length

/-- A symbol by its number. -/
def symbol? (s : Scopes) (id : Nat) : Option Symbol := s.symbols[id]?.map (·.2)

/-- The scope in which a symbol was declared. -/
def home? (s : Scopes) (id : Nat) : Option Nat := s.symbols[id]?.map (·.1)

/-- The symbol of a name that one scope declares. -/
def findIn (s : Scopes) (scope : Nat) (name : String) : Option Nat :=
  s.symbols.findIdx? fun x => x.1 = scope ∧ x.2.name = name

/-- The symbol of a name that the current scope itself declares. -/
def findHere (s : Scopes) (name : String) : Option Nat := s.findIn s.current name

/-- The symbol that a name means in the current scope: the one of the
innermost scope around it that declares the name. -/
def find (s : Scopes) (name : String) : Option Nat :=
  (s.enclosing s.current).findSome? fun id => s.findIn id name

/-- The symbol itself that a name means in the current scope. -/
def lookup (s : Scopes) (name : String) : Option Symbol := (s.find name).bind s.symbol?

/-! ## Growth -/

/-- Opens a new scope inside the current one. -/
def enter (s : Scopes) : Scopes :=
  ⟨s.births ++ [.scope s.current], s.scopeCount⟩

/-- Closes the current scope. The global scope stays open. -/
def leave? (s : Scopes) : Option Scopes :=
  (s.parent? s.current).map fun p => { s with current := p }

/-- Declares a symbol in the current scope, unless it has one of that name.
The symbol's number is the count of symbols before it. -/
def declare? (s : Scopes) (x : Symbol) : Option Scopes :=
  if (s.findHere x.name).isSome then none
  else some { s with births := s.births ++ [.symbol s.current x] }

/-! ## Members -/

/-- What the births bring, each with the scope that it stands in. The first
scope among them is number `i`, and the first symbol is number `j`. -/
def numbered (i j : Nat) : List Birth → List (Nat × Member)
  | [] => []
  | .scope p :: bs => (p, .scope i) :: numbered (i + 1) j bs
  | .symbol h x :: bs => (h, .symbol j x) :: numbered i (j + 1) bs

/-- What stands in a scope, in the order of declaration. -/
def members (s : Scopes) (id : Nat) : List Member :=
  (numbered 1 0 s.births).filterMap fun m => if m.1 = id then some m.2 else none

/-- The scopes directly inside a scope. -/
def children (s : Scopes) (id : Nat) : List Nat :=
  (s.members id).filterMap fun
    | .scope c => some c
    | .symbol .. => none

/-- The symbols that a scope declares itself. -/
def symbolsIn (s : Scopes) (id : Nat) : List Nat :=
  (s.members id).filterMap fun
    | .scope _ => none
    | .symbol i _ => some i

/-! ## Laws of growth -/

@[simp] theorem parents_enter (s : Scopes) : s.enter.parents = s.parents ++ [s.current] := by
  simp [enter, parents]

@[simp] theorem scopeCount_enter (s : Scopes) : s.enter.scopeCount = s.scopeCount + 1 := by
  simp [scopeCount]

@[simp] theorem symbols_enter (s : Scopes) : s.enter.symbols = s.symbols := by
  simp [enter, symbols]

/-- A new scope gets the next number and is the current one. -/
@[simp] theorem current_enter (s : Scopes) : s.enter.current = s.scopeCount := rfl

/-- The scope around a new scope is the one that was current. -/
theorem parent?_current_enter (s : Scopes) :
    s.enter.parent? s.enter.current = some s.current := by
  simp [scopeCount, parent?]

/-- Closing a scope forgets nothing. -/
theorem births_leave? {s t : Scopes} (h : s.leave? = some t) : t.births = s.births := by
  obtain ⟨p, -, rfl⟩ := Option.map_eq_some_iff.1 h
  rfl

theorem declare?_eq_some_iff {s t : Scopes} {x : Symbol} :
    s.declare? x = some t ↔
      s.findHere x.name = none ∧ t = { s with births := s.births ++ [.symbol s.current x] } := by
  unfold declare?
  split
  · rename_i h
    obtain ⟨i, hi⟩ := Option.isSome_iff_exists.1 h
    simp [hi]
  · rename_i h
    simp [Option.not_isSome_iff_eq_none.1 h, eq_comm]

/-- A name is refused if the scope has it already. -/
theorem declare?_eq_none_iff {s : Scopes} {x : Symbol} :
    s.declare? x = none ↔ ∃ i, s.findHere x.name = some i := by
  unfold declare?
  split <;> simp_all [Option.isSome_iff_exists]

theorem symbols_declare? {s t : Scopes} {x : Symbol} (h : s.declare? x = some t) :
    t.symbols = s.symbols ++ [(s.current, x)] := by
  obtain ⟨-, rfl⟩ := declare?_eq_some_iff.1 h
  simp [symbols]

theorem parents_declare? {s t : Scopes} {x : Symbol} (h : s.declare? x = some t) :
    t.parents = s.parents := by
  obtain ⟨-, rfl⟩ := declare?_eq_some_iff.1 h
  simp [parents]

end Scopes

end OnePass
