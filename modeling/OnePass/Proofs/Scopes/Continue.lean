-- Scopes that go on where others end. The two global scopes become one, and
-- the scopes and symbols of the second table are numbered behind those of
-- the first. What is looked up in the second table means the same in both
-- together, unless the first one has the name.
import OnePass.Proofs.Scopes.Walk

namespace OnePass

/-! ## Numbers behind others -/

/-- The number of a scope behind `n` inner scopes. The global scope stays the
global one. -/
def scopeBehind (n : Nat) : Nat → Nat
  | 0 => 0
  | id + 1 => id + 1 + n

@[simp] theorem scopeBehind_zero (n : Nat) : scopeBehind n 0 = 0 := rfl

theorem scopeBehind_of_ne_zero {id : Nat} (n : Nat) (h : id ≠ 0) : scopeBehind n id = id + n := by
  cases id with
  | zero => exact absurd rfl h
  | succ id => rfl

theorem scopeBehind_injective (n : Nat) : Function.Injective (scopeBehind n) := by
  intro a b h
  cases a <;> cases b <;> simp [scopeBehind] at h ⊢ <;> omega

def Birth.behind (n : Nat) : Birth → Birth
  | .scope p => .scope (scopeBehind n p)
  | .symbol h x => .symbol (scopeBehind n h) x

/-- A member behind `n` inner scopes and `k` symbols. -/
def Member.behind (n k : Nat) : Member → Member
  | .scope c => .scope (scopeBehind n c)
  | .symbol i x => .symbol (i + k) x

namespace Scopes

/-- The scopes `t` behind the scopes `s`. -/
def continuedBy (s t : Scopes) : Scopes :=
  ⟨s.births ++ t.births.map (Birth.behind s.parents.length), scopeBehind s.parents.length t.current⟩

variable {s t u : Scopes} {id p i j : Nat} {x : Symbol} {name : String}

/-! ## Parents and symbols -/

theorem parents_behind (n c : Nat) (bs : List Birth) :
    parents ⟨bs.map (Birth.behind n), c⟩ = (parents ⟨bs, c⟩).map (scopeBehind n) := by
  induction bs with
  | nil => rfl
  | cons b bs ih =>
    cases b with
    | scope p => exact congrArg (scopeBehind n p :: ·) ih
    | symbol h x => exact ih

theorem symbols_behind (n c : Nat) (bs : List Birth) :
    symbols ⟨bs.map (Birth.behind n), c⟩ =
      (symbols ⟨bs, c⟩).map fun x => (scopeBehind n x.1, x.2) := by
  induction bs with
  | nil => rfl
  | cons b bs ih =>
    cases b with
    | scope p => exact ih
    | symbol h x => exact congrArg ((scopeBehind n h, x) :: ·) ih

theorem parents_continuedBy (s t : Scopes) :
    (s.continuedBy t).parents = s.parents ++ t.parents.map (scopeBehind s.parents.length) := by
  rw [parents_append (s := s) (t := s.continuedBy t) rfl, parents_behind]
  rfl

theorem symbols_continuedBy (s t : Scopes) :
    (s.continuedBy t).symbols =
      s.symbols ++ t.symbols.map fun x => (scopeBehind s.parents.length x.1, x.2) := by
  rw [symbols_append (s := s) (t := s.continuedBy t) rfl, symbols_behind]
  rfl

/-- The global scope is not there twice. -/
theorem scopeCount_continuedBy (s t : Scopes) :
    (s.continuedBy t).scopeCount + 1 = s.scopeCount + t.scopeCount := by
  rw [scopeCount_of_parents (s.parents_continuedBy t), List.length_map]
  simp only [scopeCount]
  omega

theorem symbolCount_continuedBy (s t : Scopes) :
    (s.continuedBy t).symbolCount = s.symbolCount + t.symbolCount := by
  simp only [symbolCount, symbols_continuedBy, List.length_append, List.length_map]

theorem getElem?_symbols_continuedBy (s t : Scopes) (j : Nat) :
    (s.continuedBy t).symbols[j + s.symbolCount]? =
      t.symbols[j]?.map fun x => (scopeBehind s.parents.length x.1, x.2) := by
  have hlen : s.symbols.length ≤ j + s.symbolCount := Nat.le_add_left _ _
  rw [symbols_continuedBy, List.getElem?_append_right hlen, List.getElem?_map]
  congr 2
  exact Nat.add_sub_cancel j s.symbolCount

theorem symbol?_continuedBy (s t : Scopes) (j : Nat) :
    (s.continuedBy t).symbol? (j + s.symbolCount) = t.symbol? j := by
  simp only [symbol?, getElem?_symbols_continuedBy, Option.map_map, Function.comp_def]

theorem home?_continuedBy (s t : Scopes) (j : Nat) :
    (s.continuedBy t).home? (j + s.symbolCount) =
      (t.home? j).map (scopeBehind s.parents.length) := by
  simp only [home?, getElem?_symbols_continuedBy, Option.map_map, Function.comp_def]

/-- The scope around a scope stays around it. -/
theorem parent?_continuedBy (s t : Scopes) (id : Nat) :
    (s.continuedBy t).parent? (scopeBehind s.parents.length id) =
      (t.parent? id).map (scopeBehind s.parents.length) := by
  cases id with
  | zero => rfl
  | succ id =>
    have hid : scopeBehind s.parents.length (id + 1) = id + s.parents.length + 1 := by
      simp only [scopeBehind]
      omega
    rw [hid]
    show (s.continuedBy t).parents[id + s.parents.length]? = _
    rw [parents_continuedBy, List.getElem?_append_right (Nat.le_add_left _ _),
      Nat.add_sub_cancel, List.getElem?_map]
    rfl

/-! ## Order -/

theorem scopeBehind_lt (hid : id < t.scopeCount) :
    scopeBehind s.parents.length id < (s.continuedBy t).scopeCount := by
  have hcount := s.scopeCount_continuedBy t
  rcases eq_or_ne id 0 with rfl | hne
  · exact Nat.zero_lt_succ _
  · rw [scopeBehind_of_ne_zero _ hne]
    simp only [scopeCount] at hid hcount ⊢
    omega

/-- An inner scope of the second table is younger than all of the first. -/
theorem le_scopeBehind (hid : id ≠ 0) : s.scopeCount ≤ scopeBehind s.parents.length id := by
  rw [scopeBehind_of_ne_zero _ hid, scopeCount]
  omega

theorem Ordered.continuedBy (hs : s.Ordered) (ht : t.Ordered) : (s.continuedBy t).Ordered := by
  have hcount := s.scopeCount_continuedBy t
  have hpos : 0 < t.scopeCount := Nat.zero_lt_succ _
  refine ⟨?_, ?_, scopeBehind_lt ht.current_lt⟩
  · intro id p hp
    rcases Nat.lt_or_ge id s.scopeCount with hlt | hge
    · rw [parent?_of_parents (s.parents_continuedBy t) hlt] at hp
      exact hs.parent_lt hp
    · obtain ⟨i, rfl⟩ : ∃ i, id = i + 1 + s.parents.length := by
        simp only [scopeCount] at hge
        exact ⟨id - 1 - s.parents.length, by omega⟩
      rw [← scopeBehind_of_ne_zero _ (Nat.succ_ne_zero i), parent?_continuedBy] at hp
      obtain ⟨q, hq, rfl⟩ := Option.map_eq_some_iff.1 hp
      have hlt := ht.parent_lt hq
      cases q <;> simp only [scopeBehind] <;> omega
  · intro x hx
    rw [symbols_continuedBy, List.mem_append, List.mem_map] at hx
    rcases hx with hx | ⟨y, hy, rfl⟩
    · have hlt := hs.home_lt x hx
      omega
    · exact scopeBehind_lt (ht.home_lt y hy)

/-- The way up stays the same. -/
theorem Ordered.enclosing_continuedBy (hs : s.Ordered) (ht : t.Ordered) :
    ∀ id < t.scopeCount, (s.continuedBy t).enclosing (scopeBehind s.parents.length id) =
      (t.enclosing id).map (scopeBehind s.parents.length) := by
  refine ht.induction (by simp) ?_
  intro id p hp _ ih
  have hp' : (s.continuedBy t).parent? (scopeBehind s.parents.length id) =
      some (scopeBehind s.parents.length p) := by
    rw [parent?_continuedBy, hp]
    rfl
  rw [(hs.continuedBy ht).enclosing_of_parent? hp', ht.enclosing_of_parent? hp, ih, List.map_cons]

/-! ## Names -/

/-- The symbols of the global scope, in the order of their declaration. -/
def globals (s : Scopes) : List Symbol := (s.symbols.filter (·.1 = 0)).map (·.2)

theorem mem_globals : x ∈ s.globals ↔ (0, x) ∈ s.symbols := by
  unfold globals
  simp

theorem findIn_zero_eq_none_iff : s.findIn 0 name = none ↔ ∀ x ∈ s.globals, x.name ≠ name := by
  rw [findIn_eq_none_iff]
  constructor
  · intro h x hx
    exact h _ (mem_globals.1 hx) rfl
  · rintro h ⟨home, x⟩ hx rfl
    exact h x (mem_globals.2 hx)

/-- Nothing of one global scope has the name of something in the other. -/
def Apart (s t : Scopes) : Prop := ∀ x ∈ s.globals, ∀ y ∈ t.globals, x.name ≠ y.name

/-- What the first table has comes before what the second one has. -/
theorem findIn_continuedBy (s t : Scopes) (id : Nat) (name : String) :
    (s.continuedBy t).findIn (scopeBehind s.parents.length id) name =
      (s.findIn (scopeBehind s.parents.length id) name).or
        ((t.findIn id name).map (· + s.symbolCount)) := by
  have hsecond : (t.symbols.map fun x => (scopeBehind s.parents.length x.1, x.2)).findIdx?
      (fun x => x.1 = scopeBehind s.parents.length id ∧ x.2.name = name) = t.findIn id name := by
    unfold findIn
    rw [List.findIdx?_map]
    congr 1
    funext x
    simp [(scopeBehind_injective s.parents.length).eq_iff]
  unfold findIn at hsecond ⊢
  rw [symbols_continuedBy, List.findIdx?_append, hsecond]
  rfl

/-- Inside the second table nothing of the first one is found. -/
theorem Ordered.findIn_continuedBy (hs : s.Ordered) (t : Scopes) (hid : id ≠ 0) :
    (s.continuedBy t).findIn (scopeBehind s.parents.length id) name =
      (t.findIn id name).map (· + s.symbolCount) := by
  have hnone : s.findIn (scopeBehind s.parents.length id) name = none := by
    rw [findIn_eq_none_iff]
    intro x hx heq
    have hlt := hs.home_lt x hx
    have hle := le_scopeBehind (s := s) hid
    omega
  rw [Scopes.findIn_continuedBy, hnone, Option.none_or]

theorem Apart.findIn_continuedBy (h : s.Apart t) (hj : t.findIn 0 name = some j) :
    (s.continuedBy t).findIn 0 name = some (j + s.symbolCount) := by
  have hnone : s.findIn 0 name = none := by
    rw [findIn_zero_eq_none_iff]
    intro x hx hname
    have hsome : t.findIn 0 name ≠ none := by simp [hj]
    rw [ne_eq, findIn_zero_eq_none_iff, not_forall] at hsome
    obtain ⟨y, hy⟩ := hsome
    rw [Classical.not_imp, not_ne_iff] at hy
    exact h x hx y hy.1 (hname.trans hy.2.symm)
  have hfind := s.findIn_continuedBy t 0 name
  rwa [scopeBehind_zero, hnone, hj] at hfind

/-- A name that means something in the second table means the same in both
together. -/
theorem Ordered.find_continuedBy (hs : s.Ordered) (ht : t.Ordered) (h : s.Apart t)
    (hj : t.find name = some j) : (s.continuedBy t).find name = some (j + s.symbolCount) := by
  have hfrom : ∀ id < t.scopeCount, ∀ j,
      (t.enclosing id).findSome? (fun c => t.findIn c name) = some j →
        ((s.continuedBy t).enclosing (scopeBehind s.parents.length id)).findSome?
          (fun c => (s.continuedBy t).findIn c name) = some (j + s.symbolCount) := by
    refine ht.induction ?_ ?_
    · intro j hj
      have hzero : t.findIn 0 name = some j := by simpa using hj
      simp [h.findIn_continuedBy hzero]
    · intro id p hp hlt ih j hj
      have hne : id ≠ 0 := by
        rintro rfl
        cases hp
      have hid := lt_scopeCount_of_parent? hp
      rw [hs.enclosing_continuedBy ht id hid, ht.enclosing_of_parent? hp, List.map_cons,
        List.findSome?_cons, hs.findIn_continuedBy t hne, ← hs.enclosing_continuedBy ht p hlt]
      rw [ht.enclosing_of_parent? hp, List.findSome?_cons] at hj
      cases hf : t.findIn id name with
      | some i =>
        rw [hf] at hj
        cases hj
        rfl
      | none =>
        rw [hf] at hj
        exact ih j hj
  exact hfrom _ ht.current_lt j hj

theorem Ordered.lookup_continuedBy (hs : s.Ordered) (ht : t.Ordered) (h : s.Apart t)
    (hx : t.lookup name = some x) : (s.continuedBy t).lookup name = some x := by
  obtain ⟨j, hj, hx⟩ := Option.bind_eq_some_iff.1 hx
  unfold lookup
  rw [hs.find_continuedBy ht h hj, Option.bind_some, symbol?_continuedBy, hx]

/-! ## Growth -/

/-- Nothing is added by a table that is empty. -/
theorem continuedBy_empty (h : s.current = 0) : s.continuedBy empty = s := by
  obtain ⟨births, current⟩ := s
  cases h
  simp [continuedBy, empty]

/-- A scope that is opened in the second table is opened in both together. -/
theorem enter_continuedBy (s t : Scopes) : (s.continuedBy t).enter = s.continuedBy t.enter := by
  have hcount := s.scopeCount_continuedBy t
  have hcur : (s.continuedBy t).scopeCount = scopeBehind s.parents.length t.scopeCount := by
    have hne : t.scopeCount ≠ 0 := Nat.succ_ne_zero _
    rw [scopeBehind_of_ne_zero _ hne]
    simp only [scopeCount] at hcount ⊢
    omega
  unfold enter
  rw [hcur]
  simp [continuedBy, Birth.behind]

theorem leave?_continuedBy (s t : Scopes) :
    (s.continuedBy t).leave? = t.leave?.map s.continuedBy := by
  have hparent : (s.continuedBy t).parent? (s.continuedBy t).current =
      (t.parent? t.current).map (scopeBehind s.parents.length) := s.parent?_continuedBy t t.current
  unfold leave?
  rw [hparent, Option.map_map, Option.map_map]
  rfl

/-- A symbol that is declared in the second table is declared in both
together, if the first one leaves its name free. -/
theorem Ordered.declare?_continuedBy (hs : s.Ordered) (hu : t.declare? x = some u)
    (h : t.current = 0 → s.findIn 0 x.name = none) :
    (s.continuedBy t).declare? x = some (s.continuedBy u) := by
  obtain ⟨hfree, rfl⟩ := declare?_eq_some_iff.1 hu
  have hhere : (s.continuedBy t).findHere x.name = none := by
    show (s.continuedBy t).findIn (scopeBehind s.parents.length t.current) x.name = none
    unfold findHere at hfree
    rcases eq_or_ne t.current 0 with hzero | hne
    · rw [Scopes.findIn_continuedBy, hzero, scopeBehind_zero, h hzero]
      rw [hzero] at hfree
      rw [hfree]
      rfl
    · rw [hs.findIn_continuedBy t hne, hfree]
      rfl
  refine declare?_eq_some_iff.2 ⟨hhere, ?_⟩
  simp [Scopes.continuedBy, Birth.behind]

/-- A global name that the first table has cannot be declared again. -/
theorem declare?_continuedBy_of_clash (hcur : t.current = 0) (h : s.findIn 0 x.name ≠ none) :
    (s.continuedBy t).declare? x = none := by
  obtain ⟨i, hi⟩ := Option.ne_none_iff_exists'.1 h
  refine declare?_eq_none_iff.2 ⟨i, ?_⟩
  show (s.continuedBy t).findIn (scopeBehind s.parents.length t.current) x.name = _
  rw [Scopes.findIn_continuedBy, hcur, scopeBehind_zero, hi]
  rfl

/-! ## Members -/

theorem numbered_behind (n k i j : Nat) (bs : List Birth) :
    numbered (i + 1 + n) (j + k) (bs.map (Birth.behind n)) =
      (numbered (i + 1) j bs).map fun m => (scopeBehind n m.1, m.2.behind n k) := by
  induction bs generalizing i j with
  | nil => rfl
  | cons b bs ih =>
    cases b with
    | scope p =>
      rw [List.map_cons, Birth.behind, numbered, numbered, List.map_cons, ← ih (i + 1) j]
      congr 2
      omega
    | symbol h x =>
      rw [List.map_cons, Birth.behind, numbered, numbered, List.map_cons, ← ih i (j + 1)]
      congr 2
      omega

theorem numbered_continuedBy (s t : Scopes) :
    numbered 1 0 (s.continuedBy t).births = numbered 1 0 s.births ++
      (numbered 1 0 t.births).map fun m =>
        (scopeBehind s.parents.length m.1, m.2.behind s.parents.length s.symbolCount) := by
  have hnumbers := numbered_behind s.parents.length s.symbolCount 0 0 t.births
  have hfirst : 0 + 1 + s.parents.length = s.scopeCount := by
    rw [scopeCount]
    omega
  rw [hfirst, Nat.zero_add] at hnumbers
  rw [numbered_births_append (s := s) (t := s.continuedBy t) rfl, hnumbers]

theorem members_continuedBy (s t : Scopes) (id : Nat) :
    (s.continuedBy t).members (scopeBehind s.parents.length id) =
      s.members (scopeBehind s.parents.length id) ++
        (t.members id).map (Member.behind s.parents.length s.symbolCount) := by
  unfold members
  rw [numbered_continuedBy, List.filterMap_append, List.filterMap_map, List.map_filterMap]
  congr 2
  funext m
  rcases eq_or_ne m.1 id with rfl | hne
  · simp
  · simp [hne, (scopeBehind_injective s.parents.length).eq_iff]

/-- The members of the inner scopes of the first table stay the same. -/
theorem members_continuedBy_of_lt (s t : Scopes) (hid : id ≠ 0) (hlt : id < s.scopeCount) :
    (s.continuedBy t).members id = s.members id := by
  unfold members
  rw [numbered_continuedBy, List.filterMap_append, List.filterMap_map]
  refine List.append_right_eq_self.2 (List.filterMap_eq_nil_iff.2 ?_)
  intro m _
  rcases eq_or_ne m.1 0 with hzero | hne
  · simp [hzero, Ne.symm hid]
  · have hle := le_scopeBehind (s := s) hne
    simp [show scopeBehind s.parents.length m.1 ≠ id by omega]

/-! ## The outline -/

/-- The numbers are not told in the outline. -/
theorem Visit.line_behind (d n k : Nat) (m : Member) :
    Visit.line ⟨d, m.behind n k⟩ = Visit.line ⟨d, m⟩ := by
  cases m <;> rfl

/-- The lines of the members, without that of the global scope. -/
def lines (s : Scopes) : List String := s.walk.map Visit.line

theorem outline_eq (s : Scopes) :
    s.outline = "[Global]\n" ++ String.join (s.lines.map (· ++ "\n")) := by
  unfold outline lines
  rw [List.map_map]
  rfl

theorem Grown.lines_continuedBy (hs : s.Grown) (ht : t.Grown) (hu : (s.continuedBy t).Grown) :
    (s.continuedBy t).lines = s.lines ++ t.lines := by
  have hso := hs.ordered
  have hto := ht.ordered
  unfold lines
  rw [hu.walk_eq, hs.walk_eq, ht.walk_eq, numbered_continuedBy, List.map_append, List.map_append,
    List.map_map, List.map_map, List.map_map, List.map_map, List.map_map]
  congr 1
  · apply List.map_congr_left
    intro m hm
    have hlt := hso.place_lt m hm
    have hdepth : (s.continuedBy t).depth m.1 = s.depth m.1 := by
      unfold depth
      rw [hso.enclosing_of_parents hu.ordered (s.parents_continuedBy t) _ hlt]
    simp only [Function.comp_apply, visit, hdepth]
  · apply List.map_congr_left
    intro m hm
    have hlt := hto.place_lt m hm
    have hdepth : (s.continuedBy t).depth (scopeBehind s.parents.length m.1) = t.depth m.1 := by
      unfold depth
      rw [hso.enclosing_continuedBy hto _ hlt, List.length_map]
    simp only [Function.comp_apply, visit, hdepth, Visit.line_behind]

/-! ## One table and the next -/

/-- The scopes `u` are `s`, and then `t`: nothing of `s` has changed, and what
is in `t` is there with other numbers. -/
structure Continues (u s t : Scopes) : Prop where
  current : u.current = 0
  /-- The global scope is not there twice. -/
  scopeCount : u.scopeCount + 1 = s.scopeCount + t.scopeCount
  symbolCount : u.symbolCount = s.symbolCount + t.symbolCount
  globals : u.members 0 =
    s.members 0 ++ (t.members 0).map (.behind (s.scopeCount - 1) s.symbolCount)
  first_members : ∀ id, 0 < id → id < s.scopeCount → u.members id = s.members id
  members : ∀ id, 0 < id → u.members (id + (s.scopeCount - 1)) =
    (t.members id).map (.behind (s.scopeCount - 1) s.symbolCount)
  first_parent : ∀ id < s.scopeCount, u.parent? id = s.parent? id
  parent : ∀ id, 0 < id →
    u.parent? (id + (s.scopeCount - 1)) = (t.parent? id).map (scopeBehind (s.scopeCount - 1))
  first_symbol : ∀ i < s.symbolCount, u.symbol? i = s.symbol? i ∧ u.home? i = s.home? i
  symbol : ∀ i, u.symbol? (i + s.symbolCount) = t.symbol? i ∧
    u.home? (i + s.symbolCount) = (t.home? i).map (scopeBehind (s.scopeCount - 1))
  /-- The outline goes on without another line for the global scope. -/
  outline : ∃ rest, t.outline = "[Global]\n" ++ rest ∧ u.outline = s.outline ++ rest

theorem Grown.continues (hs : s.Grown) (ht : t.Grown) (hu : (s.continuedBy t).Grown)
    (hcur : t.current = 0) : (s.continuedBy t).Continues s t := by
  have hn : s.scopeCount - 1 = s.parents.length := rfl
  have hbehind : ∀ id, 0 < id → id + (s.scopeCount - 1) = scopeBehind s.parents.length id := by
    intro id hid
    rw [hn, scopeBehind_of_ne_zero _ (Nat.ne_of_gt hid)]
  refine ⟨?_, s.scopeCount_continuedBy t, s.symbolCount_continuedBy t, ?_, ?_, ?_, ?_, ?_, ?_, ?_, ?_⟩
  · show scopeBehind s.parents.length t.current = 0
    rw [hcur, scopeBehind_zero]
  · exact s.members_continuedBy t 0
  · intro id hid hlt
    exact s.members_continuedBy_of_lt t (Nat.ne_of_gt hid) hlt
  · intro id hid
    rw [hbehind id hid, members_continuedBy,
      hs.ordered.members_eq_nil (le_scopeBehind (Nat.ne_of_gt hid)), List.nil_append, hn]
  · intro id hlt
    exact parent?_of_parents (s.parents_continuedBy t) hlt
  · intro id hid
    rw [hbehind id hid, parent?_continuedBy, hn]
  · intro i hi
    have hsymbols : (s.continuedBy t).symbols[i]? = s.symbols[i]? := by
      rw [symbols_continuedBy, List.getElem?_append_left hi]
    unfold symbol? home?
    rw [hsymbols]
    exact ⟨rfl, rfl⟩
  · intro i
    exact ⟨s.symbol?_continuedBy t i, s.home?_continuedBy t i⟩
  · refine ⟨String.join (t.lines.map (· ++ "\n")), t.outline_eq, ?_⟩
    rw [outline_eq, outline_eq, hs.lines_continuedBy ht hu, ← String.toList_inj]
    simp

end Scopes

end OnePass
