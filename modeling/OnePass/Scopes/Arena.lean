-- The scopes in two arenas that refer to each other by number: a scope knows
-- the scope around it and what stands in it, and a symbol knows the scope
-- that it was declared in. So most things are written down twice. Nothing
-- keeps a number from pointing outside of its arena, or a way up from going
-- in circles; where that happens there is no answer.
import OnePass.Scopes.Outline

namespace OnePass

/-! ## Names -/

/-- A store of names, in which every name has a key of its own. -/
class Interner (ν : Type) (κ : outParam Type) where
  empty : ν
  /-- The key of a name that is in the store. -/
  key? : ν → String → Option κ
  /-- The key of a name, which is put into the store if it is not there. -/
  intern : ν → String → κ × ν
  key?_empty : ∀ name, key? empty name = none
  key?_intern : ∀ n name, key? (intern n name).2 name = some (intern n name).1
  key?_intern_of_ne : ∀ n name other, other ≠ name → key? (intern n name).2 other = key? n other
  /-- A name that is there keeps its key. -/
  intern_of_key? : ∀ n name k, key? n name = some k → (intern n name).1 = k
  key?_injective : ∀ n a b k, key? n a = some k → key? n b = some k → a = b

section
variable {names : List String} {name : String}

theorem idxOf?_append_self (h : names.idxOf? name = none) :
    (names ++ [name]).idxOf? name = some names.length := by
  unfold List.idxOf? at h ⊢
  rw [List.findIdx?_append, h]
  simp

theorem idxOf?_append_of_ne {other : String} (h : other ≠ name) :
    (names ++ [name]).idxOf? other = names.idxOf? other := by
  unfold List.idxOf?
  rw [List.findIdx?_append]
  simp [h.symm]

end

/-- Names in a row, each with its place as its key. -/
instance : Interner (List String) Nat where
  empty := []
  key? names name := names.idxOf? name
  intern names name :=
    match names.idxOf? name with
    | some k => (k, names)
    | none => (names.length, names ++ [name])
  key?_empty _ := rfl
  key?_intern names name := by
    split
    · assumption
    · exact idxOf?_append_self ‹_›
  key?_intern_of_ne names name other h := by
    split
    · rfl
    · exact idxOf?_append_of_ne h
  intern_of_key? names name k h := by simp [h]
  key?_injective names a b k ha hb := by
    obtain ⟨_, rfl, -⟩ := List.idxOf?_eq_some_iff.1 ha
    obtain ⟨_, rfl, -⟩ := List.idxOf?_eq_some_iff.1 hb
    rfl

/-! ## Arenas -/

/-- What stands in a scope, by its number. -/
inductive NodeItem where
  | symbol (id : Nat)
  | scope (id : Nat)
deriving DecidableEq

/-- A scope in its arena. -/
structure Node where
  parent : Option Nat
  items : Array NodeItem

/-- A symbol in its arena, with the key of its name. -/
structure Entry (κ : Type) where
  key : κ
  scope : Nat
  symbol : Symbol

/-- The arenas, and the scope that is open innermost. -/
structure Arenas (ν κ : Type) where
  names : ν
  scopes : Array Node
  symbols : Array (Entry κ)
  current : Nat

namespace Arenas

variable {ν κ : Type}

/-! ## Questions -/

/-- The scope around a scope. -/
def parentOf (t : Arenas ν κ) (id : Nat) : Option (Option Nat) := t.scopes[id]?.map (·.parent)

/-- What stands in a scope. -/
def itemsOf (t : Arenas ν κ) (id : Nat) : Option (List NodeItem) :=
  t.scopes[id]?.map (·.items.toList)

def childrenOf (t : Arenas ν κ) (id : Nat) : Option (List Nat) :=
  (t.itemsOf id).map fun items => items.filterMap fun
    | .scope c => some c
    | .symbol _ => none

def symbolsIn (t : Arenas ν κ) (id : Nat) : Option (List Nat) :=
  (t.itemsOf id).map fun items => items.filterMap fun
    | .scope _ => none
    | .symbol i => some i

def symbolOf (t : Arenas ν κ) (id : Nat) : Option Symbol := t.symbols[id]?.map (·.symbol)

/-- The scope that a symbol was declared in. -/
def scopeOf (t : Arenas ν κ) (id : Nat) : Option Nat := t.symbols[id]?.map (·.scope)

/-- How many scopes there are from one on outwards, if there are at most `n`. -/
def height (t : Arenas ν κ) : Nat → Option Nat → Option Nat
  | _, none => some 0
  | 0, some _ => none
  | n + 1, some id => do return (← t.height n (← t.parentOf id)) + 1

/-- How many scopes are around a scope. A way of more scopes than there are
would lead in a circle, and have no end. -/
def depth (t : Arenas ν κ) (id : Nat) : Option Nat := do t.height t.scopes.size (← t.parentOf id)

/-- A walk through some things that stand in one scope, each scope followed by
what is inside it. There are at most `n` scopes inside one another. -/
def walkItems (t : Arenas ν κ) (depth : Nat) : Nat → List NodeItem → Option (List Scopes.Visit)
  | _, [] => some []
  | n, .symbol i :: items => do
    let x ← t.symbolOf i
    return ⟨depth, .symbol i x⟩ :: (← t.walkItems depth n items)
  | 0, .scope _ :: _ => none
  | n + 1, .scope c :: items => do
    let inside ← t.walkItems (depth + 1) n (← t.itemsOf c)
    return ⟨depth, .scope c⟩ :: (inside ++ (← t.walkItems depth (n + 1) items))
termination_by n items => (n, items.length)

/-- A walk through everything. A way inwards that leads in a circle would have
no end. -/
def walk (t : Arenas ν κ) : Option (List Scopes.Visit) := do
  t.walkItems 1 t.scopes.size (← t.itemsOf 0)

/-- The outline of all scopes. -/
def outline (t : Arenas ν κ) : Option String := do
  return "[Global]\n" ++ String.join ((← t.walk).map fun v => v.line ++ "\n")

/-! ## Scopes -/

/-- Puts something behind all else in a scope. -/
def put (t : Arenas ν κ) (id : Nat) (item : NodeItem) : Option (Arenas ν κ) :=
  if id < t.scopes.size then
    some { t with scopes := t.scopes.modify id fun n => { n with items := n.items.push item } }
  else none

/-- Opens a new scope inside the current one. -/
def enter (t : Arenas ν κ) : Option (Nat × Arenas ν κ) := do
  let id := t.scopes.size
  let u ← { t with scopes := t.scopes.push ⟨some t.current, #[]⟩ }.put t.current (.scope id)
  return (id, { u with current := id })

/-- Closes the current scope. The global scope stays open. -/
def leave (t : Arenas ν κ) : Option (Bool × Arenas ν κ) := do
  match ← t.parentOf t.current with
  | some p => return (true, { t with current := p })
  | none => return (false, t)

/-! ## Names in scopes -/

variable [Interner ν κ]

/-- Only the global scope, with nothing in it. -/
def empty : Arenas ν κ := ⟨Interner.empty, #[⟨none, #[]⟩], #[], 0⟩

variable [DecidableEq κ]

/-- The first of some symbols whose name has the key. -/
def firstWith (t : Arenas ν κ) (key : κ) : List Nat → Option (Option Nat)
  | [] => some none
  | i :: is => do
    let e ← t.symbols[i]?
    if e.key = key then return some i else t.firstWith key is

/-- The symbol of a scope whose name has the key. -/
def findIn (t : Arenas ν κ) (id : Nat) (key : κ) : Option (Option Nat) := do
  t.firstWith key (← t.symbolsIn id)

/-- The symbol of a name that the current scope itself declares. -/
def findHere (t : Arenas ν κ) (name : String) : Option (Option Nat) :=
  match Interner.key? t.names name with
  | none => some none
  | some key => t.findIn t.current key

/-- The symbol whose name has the key, in the first of the scopes from one on
outwards that has such a symbol. At most `n` scopes are looked at. -/
def findFrom (t : Arenas ν κ) (key : κ) : Nat → Nat → Option (Option Nat)
  | 0, _ => none
  | n + 1, id => do
    match ← t.findIn id key with
    | some i => return some i
    | none =>
      match ← t.parentOf id with
      | some p => t.findFrom key n p
      | none => return none

/-- The symbol that a name means in the current scope. A way outwards that
leads in a circle would have no end. -/
def find (t : Arenas ν κ) (name : String) : Option (Option Nat) :=
  match Interner.key? t.names name with
  | none => some none
  | some key => t.findFrom key t.scopes.size t.current

/-- Declares a symbol in the current scope, unless it has one of that name. -/
def declare (t : Arenas ν κ) (x : Symbol) : Option (Option Nat × Arenas ν κ) := do
  match ← t.findHere x.name with
  | some _ => return (none, t)
  | none =>
    let (key, names) := Interner.intern t.names x.name
    let id := t.symbols.size
    let entry := ⟨key, t.current, x⟩
    let u ← { t with names, symbols := t.symbols.push entry }.put t.current (.symbol id)
    return (some id, u)

end Arenas

end OnePass
