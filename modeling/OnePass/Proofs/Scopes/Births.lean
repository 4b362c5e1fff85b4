-- What a list of births says of scopes, symbols and members. Births that are
-- put at the end bring members at the ends of their scopes and change nothing
-- else, and every scope and every symbol is a member in one place.
import Mathlib.Data.List.Nodup
import OnePass.Proofs.Scopes.Acts

namespace OnePass

/-- The number of a scope. -/
def Member.scope? : Member → Option Nat
  | .scope c => some c
  | .symbol .. => none

/-- The number of a symbol. -/
def Member.symbol? : Member → Option Nat
  | .scope _ => none
  | .symbol i _ => some i

@[simp] theorem Member.scope?_scope (c : Nat) : (scope c).scope? = some c := rfl

@[simp] theorem Member.scope?_symbol (i : Nat) (x : Symbol) : (symbol i x).scope? = none := rfl

@[simp] theorem Member.symbol?_scope (c : Nat) : (scope c).symbol? = none := rfl

@[simp] theorem Member.symbol?_symbol (i : Nat) (x : Symbol) : (symbol i x).symbol? = some i := rfl

namespace Scopes

/-! ## Births one after another -/

section
variable {s t : Scopes} {bs : List Birth} {i : Nat} {x : Symbol}

@[simp] theorem parents_cons_scope : parents ⟨.scope i :: bs, 0⟩ = i :: parents ⟨bs, 0⟩ := rfl

@[simp] theorem parents_cons_symbol : parents ⟨.symbol i x :: bs, 0⟩ = parents ⟨bs, 0⟩ := rfl

@[simp] theorem symbols_cons_scope : symbols ⟨.scope i :: bs, 0⟩ = symbols ⟨bs, 0⟩ := rfl

@[simp] theorem symbols_cons_symbol :
    symbols ⟨.symbol i x :: bs, 0⟩ = (i, x) :: symbols ⟨bs, 0⟩ := rfl

theorem births_enter (s : Scopes) : s.enter.births = s.births ++ [.scope s.current] := rfl

theorem births_declare? (h : s.declare? x = some t) :
    t.births = s.births ++ [.symbol s.current x] := by
  obtain ⟨-, rfl⟩ := declare?_eq_some_iff.1 h
  rfl

/-- Births at the end bring their parents and their symbols. -/
theorem parents_append (h : t.births = s.births ++ bs) :
    t.parents = s.parents ++ parents ⟨bs, 0⟩ := by
  simp [parents, h]

theorem symbols_append (h : t.births = s.births ++ bs) :
    t.symbols = s.symbols ++ symbols ⟨bs, 0⟩ := by
  simp [symbols, h]

/-- A birth is that of a scope or that of a symbol, and the global scope has
none. -/
theorem length_births (s : Scopes) : s.births.length + 1 = s.scopeCount + s.symbolCount := by
  obtain ⟨bs, c⟩ := s
  induction bs with
  | nil => rfl
  | cons b bs ih =>
    cases b <;> simp [scopeCount, symbolCount, parents, symbols] at ih ⊢ <;> omega

theorem numbered_append (i j : Nat) (bs cs : List Birth) :
    numbered i j (bs ++ cs) = numbered i j bs ++
      numbered (i + (parents ⟨bs, 0⟩).length) (j + (symbols ⟨bs, 0⟩).length) cs := by
  induction bs generalizing i j with
  | nil => rfl
  | cons b bs ih =>
    cases b <;> simp [numbered, ih] <;> congr 1 <;> omega

@[simp] theorem length_numbered (i j : Nat) (bs : List Birth) :
    (numbered i j bs).length = bs.length := by
  induction bs generalizing i j with
  | nil => rfl
  | cons b bs ih => cases b <;> simp [numbered, ih]

/-- The numbers go on where they ended. -/
theorem numbered_births_append (h : t.births = s.births ++ bs) :
    numbered 1 0 t.births = numbered 1 0 s.births ++ numbered s.scopeCount s.symbolCount bs := by
  have hi : 1 + (parents ⟨s.births, 0⟩).length = s.scopeCount := Nat.add_comm 1 _
  have hj : 0 + (symbols ⟨s.births, 0⟩).length = s.symbolCount := Nat.zero_add _
  rw [h, numbered_append, hi, hj]

/-- New members stand behind the old ones. -/
theorem members_append (h : t.births = s.births ++ bs) (id : Nat) :
    t.members id = s.members id ++ (numbered s.scopeCount s.symbolCount bs).filterMap fun m =>
      if m.1 = id then some m.2 else none := by
  unfold members
  rw [numbered_births_append h, List.filterMap_append]

end

/-! ## The numbers of members -/

/-- The scopes are numbered from `i` on, by age. -/
theorem mem_numbered_scope {i j p c : Nat} {bs : List Birth} :
    (p, .scope c) ∈ numbered i j bs ↔ i ≤ c ∧ (parents ⟨bs, 0⟩)[c - i]? = some p := by
  induction bs generalizing i j with
  | nil => simp [numbered, parents]
  | cons b bs ih =>
    cases b with
    | scope q =>
      rw [numbered, List.mem_cons, ih, parents_cons_scope, List.getElem?_cons]
      grind
    | symbol h x =>
      rw [numbered, List.mem_cons, ih, parents_cons_symbol]
      simp

/-- The symbols are numbered from `j` on, by age. -/
theorem mem_numbered_symbol {i j h k : Nat} {x : Symbol} {bs : List Birth} :
    (h, .symbol k x) ∈ numbered i j bs ↔ j ≤ k ∧ (symbols ⟨bs, 0⟩)[k - j]? = some (h, x) := by
  induction bs generalizing i j with
  | nil => simp [numbered, symbols]
  | cons b bs ih =>
    cases b with
    | symbol g y =>
      rw [numbered, List.mem_cons, ih, symbols_cons_symbol, List.getElem?_cons]
      grind
    | scope q =>
      rw [numbered, List.mem_cons, ih, symbols_cons_scope]
      simp

/-- No member is there twice. -/
theorem nodup_numbered (i j : Nat) (bs : List Birth) :
    ((numbered i j bs).map Prod.snd).Nodup := by
  induction bs generalizing i j with
  | nil => exact List.nodup_nil
  | cons b bs ih =>
    cases b with
    | scope p =>
      refine List.nodup_cons.2 ⟨?_, ih (i + 1) j⟩
      intro hm
      obtain ⟨⟨q, -⟩, hq, rfl⟩ := List.mem_map.1 hm
      have hle := (mem_numbered_scope.1 hq).1
      omega
    | symbol h x =>
      refine List.nodup_cons.2 ⟨?_, ih i (j + 1)⟩
      intro hm
      obtain ⟨⟨g, -⟩, hg, rfl⟩ := List.mem_map.1 hm
      have hle := (mem_numbered_symbol.1 hg).1
      omega

theorem scopes_numbered (i j : Nat) (bs : List Birth) :
    ((numbered i j bs).map Prod.snd).filterMap Member.scope? =
      List.range' i (parents ⟨bs, 0⟩).length := by
  induction bs generalizing i j with
  | nil => rfl
  | cons b bs ih =>
    cases b <;> simp [numbered, List.filterMap_cons, ih, List.range'_succ]

theorem symbols_numbered (i j : Nat) (bs : List Birth) :
    ((numbered i j bs).map Prod.snd).filterMap Member.symbol? =
      List.range' j (symbols ⟨bs, 0⟩).length := by
  induction bs generalizing i j with
  | nil => rfl
  | cons b bs ih =>
    cases b <;> simp [numbered, List.filterMap_cons, ih, List.range'_succ]

/-! ## Members -/

section
variable {s : Scopes} {p c h i id : Nat} {x : Symbol} {m : Member}

theorem members_eq (s : Scopes) (id : Nat) :
    s.members id = ((numbered 1 0 s.births).filter (·.1 = id)).map Prod.snd := by
  unfold members
  induction numbered 1 0 s.births with
  | nil => rfl
  | cons m ms ih => by_cases hm : m.1 = id <;> simp [hm, ih]

theorem mem_members : m ∈ s.members id ↔ (id, m) ∈ numbered 1 0 s.births := by
  rw [members_eq, List.mem_map]
  simp [List.mem_filter]

theorem members_sublist (s : Scopes) (id : Nat) :
    (s.members id).Sublist ((numbered 1 0 s.births).map Prod.snd) := by
  rw [members_eq]
  exact List.filter_sublist.map Prod.snd

theorem nodup_members (s : Scopes) (id : Nat) : (s.members id).Nodup :=
  (nodup_numbered 1 0 s.births).sublist (s.members_sublist id)

/-- A scope stands in the scope around it. -/
theorem scope_mem_members : .scope c ∈ s.members p ↔ s.parent? c = some p := by
  rw [mem_members, mem_numbered_scope]
  cases c with
  | zero => simp [parent?]
  | succ c => simp [parent?, parents]

/-- A symbol stands in the scope in which it was declared. -/
theorem symbol_mem_members : .symbol i x ∈ s.members h ↔ s.symbols[i]? = some (h, x) := by
  rw [mem_members, mem_numbered_symbol]
  simp [symbols]

theorem children_eq (s : Scopes) (id : Nat) :
    s.children id = (s.members id).filterMap Member.scope? := rfl

theorem symbolsIn_eq (s : Scopes) (id : Nat) :
    s.symbolsIn id = (s.members id).filterMap Member.symbol? := rfl

theorem mem_children : c ∈ s.children p ↔ s.parent? c = some p := by
  rw [children_eq, List.mem_filterMap, ← scope_mem_members]
  constructor
  · rintro ⟨m, hm, hc⟩
    cases m <;> cases hc
    exact hm
  · intro hm
    exact ⟨_, hm, rfl⟩

theorem mem_symbolsIn : i ∈ s.symbolsIn h ↔ s.home? i = some h := by
  rw [symbolsIn_eq, List.mem_filterMap, home?, Option.map_eq_some_iff]
  constructor
  · rintro ⟨m, hm, hi⟩
    cases m with
    | scope c => cases hi
    | symbol k x =>
      cases hi
      exact ⟨_, symbol_mem_members.1 hm, rfl⟩
  · rintro ⟨⟨g, x⟩, hx, rfl⟩
    exact ⟨_, symbol_mem_members.2 hx, rfl⟩

theorem getElem?_symbols (hh : s.home? i = some h) (hx : s.symbol? i = some x) :
    s.symbols[i]? = some (h, x) := by
  obtain ⟨y, hy, rfl⟩ := Option.map_eq_some_iff.1 hh
  obtain ⟨z, hz, rfl⟩ := Option.map_eq_some_iff.1 hx
  cases hy.symm.trans hz
  exact hy

/-- A scope other than the global one is a member once: in its parent. -/
theorem count_children (s : Scopes) (p c : Nat) :
    (s.children p).count c = if s.parent? c = some p then 1 else 0 := by
  have hn : (s.children p).Nodup := by
    have hs := (s.members_sublist p).filterMap Member.scope?
    rw [scopes_numbered] at hs
    exact (List.nodup_range' ..).sublist hs
  rw [hn.count]
  simp only [mem_children]

/-- A symbol is a member once: in the scope in which it was declared. -/
theorem count_symbolsIn (s : Scopes) (h i : Nat) :
    (s.symbolsIn h).count i = if s.home? i = some h then 1 else 0 := by
  have hn : (s.symbolsIn h).Nodup := by
    have hs := (s.members_sublist h).filterMap Member.symbol?
    rw [symbols_numbered] at hs
    exact (List.nodup_range' ..).sublist hs
  rw [hn.count]
  simp only [mem_symbolsIn]

end

/-! ## Names -/

section
variable {s t : Scopes} {xs : List (Nat × Symbol)} {x : Symbol} {id : Nat} {name : String}

theorem findIn_eq_none_iff {id : Nat} {name : String} :
    s.findIn id name = none ↔ ∀ y ∈ s.symbols, y.1 = id → y.2.name ≠ name := by
  unfold findIn
  rw [List.findIdx?_eq_none_iff]
  simp

/-- Symbols of other scopes are nothing to the search in one scope. -/
theorem findIn_of_symbols (h : t.symbols = s.symbols ++ xs) (hx : ∀ x ∈ xs, x.1 ≠ id) :
    t.findIn id name = s.findIn id name := by
  have hnone : xs.findIdx? (fun x => x.1 = id ∧ x.2.name = name) = none := by
    rw [List.findIdx?_eq_none_iff]
    intro x hmem
    simp [hx x hmem]
  unfold findIn
  rw [h, List.findIdx?_append, hnone, Option.map_none, Option.or_none]

/-- A new symbol is found in its scope under its name. -/
theorem findIn_declare? (h : s.declare? x = some t) (name : String) :
    t.findIn s.current name =
      if name = x.name then some s.symbolCount else s.findIn s.current name := by
  have hfree := (declare?_eq_some_iff.1 h).1
  unfold findHere findIn at hfree
  unfold findIn
  rw [symbols_declare? h, List.findIdx?_append]
  by_cases hname : name = x.name
  · subst hname
    rw [hfree, if_pos rfl]
    simp [symbolCount]
  · simp [hname, Ne.symm hname]

end

end Scopes

end OnePass
