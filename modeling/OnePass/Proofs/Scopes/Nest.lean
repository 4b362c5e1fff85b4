-- Scopes are a stack of maps from names to symbols. The table keeps the
-- scopes that were left and all that was declared in them, but what it finds
-- is what a stack finds that forgets a map when it is taken off.
import Mathlib.Data.List.Induction
import Mathlib.Logic.Function.Basic
import OnePass.Proofs.Scopes.Chains

namespace OnePass

/-! ## The stack -/

/-- The numbers of symbols by their names. -/
abbrev NameMap : Type := String → Option Nat

/-- A map for each open scope, and how many scopes and symbols there were so
far. -/
structure Nest where
  /-- The map of the innermost scope. -/
  top : NameMap
  /-- The maps of the scopes around it, from the inside out. -/
  below : List NameMap
  scopeCount : Nat
  symbolCount : Nat

namespace Nest

/-- Only the map of the global scope, with nothing in it. -/
def empty : Nest := ⟨fun _ => none, [], 1, 0⟩

/-- How many maps there are. -/
def height (n : Nest) : Nat := n.below.length + 1

/-- An act on a stack, with its answer. -/
def act (n : Nest) : Act → Answer × Nest
  | .enter =>
    (.entered n.scopeCount,
      { n with top := fun _ => none, below := n.top :: n.below, scopeCount := n.scopeCount + 1 })
  | .leave =>
    match n.below with
    | [] => (.left false, n)
    | m :: ms => (.left true, { n with top := m, below := ms })
  | .declare x =>
    match n.top x.name with
    | some _ => (.declared none, n)
    | none =>
      (.declared (some n.symbolCount),
        { n with
          top := Function.update n.top x.name (some n.symbolCount)
          symbolCount := n.symbolCount + 1 })

/-- The symbol of a name in the topmost map that has one. -/
def find (n : Nest) (name : String) : Option Nat :=
  (n.top :: n.below).findSome? fun m => m name

end Nest

namespace Scopes

variable {s t : Scopes} {n : Nest} {x : Symbol}

/-! ## The maps of the open scopes -/

/-- What the open scopes declare, from the inside out. -/
def openMaps (s : Scopes) : List NameMap := (s.enclosing s.current).map s.findIn

/-- A name means what the innermost map says that has it. -/
theorem find_eq (s : Scopes) (name : String) :
    s.find name = s.openMaps.findSome? fun m => m name := by
  unfold find openMaps
  rw [List.findSome?_map]
  rfl

namespace Ordered

/-- The current scope is the innermost one. -/
theorem openMaps_eq (hs : s.Ordered) : ∃ ms, s.openMaps = s.findIn s.current :: ms := by
  obtain ⟨l, hl⟩ := hs.exists_enclosing_eq _ hs.current_lt
  exact ⟨l.map s.findIn, by rw [openMaps, hl, List.map_cons]⟩

theorem openMaps_enter (hs : s.Ordered) :
    s.enter.openMaps = (fun _ => none) :: s.openMaps := by
  have hnew : s.enter.findIn s.scopeCount = fun _ => none := by
    funext name
    rw [findIn_eq_none_iff]
    intro y hy hhome
    rw [symbols_enter] at hy
    have hlt := hs.home_lt y hy
    omega
  have hold : s.enter.findIn = s.findIn := by
    funext id name
    unfold findIn
    rw [symbols_enter]
  unfold openMaps
  rw [current_enter, hs.enclosing_enter, List.map_cons, hnew, hold]

theorem openMaps_leave? (hs : s.Ordered) (ht : s.leave? = some t) :
    s.openMaps = s.findIn s.current :: t.openMaps := by
  obtain ⟨p, hp, rfl⟩ := leave?_eq_some_iff.1 ht
  unfold openMaps
  rw [hs.enclosing_of_parent? hp]
  rfl

/-- The global scope has no other scope around it. -/
theorem openMaps_of_leave? (hs : s.Ordered) (h : s.leave? = none) :
    s.openMaps = [s.findIn s.current] := by
  have hzero : s.current = 0 := by
    by_contra hne
    obtain ⟨p, hp⟩ := exists_parent? (Nat.pos_of_ne_zero hne) hs.current_lt
    rw [leave?, hp] at h
    cases h
  unfold openMaps
  rw [hzero, enclosing_zero, List.map_singleton]

/-- A new name comes into the innermost map, and into no other. -/
theorem openMaps_declare? (hs : s.Ordered) (ht : s.declare? x = some t) {ms : List NameMap}
    (h : s.openMaps = s.findIn s.current :: ms) :
    t.openMaps = Function.update (s.findIn s.current) x.name (some s.symbolCount) :: ms := by
  obtain ⟨l, hl⟩ := hs.exists_enclosing_eq _ hs.current_lt
  have hlt := hs.lt_of_enclosing_eq hs.current_lt hl
  have hhere : t.findIn s.current =
      Function.update (s.findIn s.current) x.name (some s.symbolCount) := by
    funext name
    rw [findIn_declare? ht, Function.update_apply]
  have haround : l.map t.findIn = l.map s.findIn := by
    apply List.map_congr_left
    intro id hid
    funext name
    apply findIn_of_symbols (symbols_declare? ht)
    intro y hy
    rw [List.mem_singleton.1 hy]
    exact Nat.ne_of_gt (hlt id hid)
  unfold openMaps at h ⊢
  rw [hl, List.map_cons, List.cons.injEq] at h
  rw [current_declare? ht, enclosing_congr (parents_declare? ht), hl, List.map_cons, hhere,
    haround, h.2]

end Ordered

/-! ## In step -/

/-- The maps of a stack are those of the open scopes. -/
structure Sees (s : Scopes) (n : Nest) : Prop where
  maps : s.openMaps = n.top :: n.below
  scopeCount : s.scopeCount = n.scopeCount
  symbolCount : s.symbolCount = n.symbolCount

theorem sees_empty : empty.Sees Nest.empty := by
  refine ⟨?_, rfl, rfl⟩
  show (empty.enclosing 0).map empty.findIn = _
  rw [enclosing_zero]
  rfl

namespace Sees

/-- The map on top is that of the current scope. -/
theorem top (h : s.Sees n) (hs : s.Ordered) : s.findIn s.current = n.top := by
  obtain ⟨ms, hms⟩ := hs.openMaps_eq
  exact (List.cons.inj (hms.symm.trans h.maps)).1

/-- Names are found in both alike. -/
theorem find (h : s.Sees n) (name : String) : s.find name = n.find name := by
  rw [find_eq, h.maps]
  rfl

/-- The scopes around the current one are those below the top. -/
theorem depth (h : s.Sees n) : s.depth s.current = n.height - 1 := by
  have hlength := congrArg List.length h.maps
  rw [openMaps, List.length_map] at hlength
  unfold Scopes.depth
  rw [hlength]
  rfl

/-- A new scope is a new map. -/
theorem enter (h : s.Sees n) (hs : s.Ordered) : s.enter.Sees (n.act .enter).2 := by
  refine ⟨?_, ?_, ?_⟩
  · exact hs.openMaps_enter.trans (congrArg _ h.maps)
  · exact s.scopeCount_enter.trans (congrArg Nat.succ h.scopeCount)
  · exact (congrArg List.length s.symbols_enter).trans h.symbolCount

/-- The global scope is left as little as the last map is taken off. -/
theorem leave (h : s.Sees n) (hs : s.Ordered) :
    (s.act .leave).1 = (n.act .leave).1 ∧ (s.act .leave).2.Sees (n.act .leave).2 := by
  have hmaps := h.maps
  unfold Scopes.act Nest.act
  cases hl : s.leave? with
  | none =>
    rw [hs.openMaps_of_leave? hl] at hmaps
    obtain ⟨-, hbelow⟩ := List.cons.inj hmaps
    simp only [← hbelow]
    exact ⟨trivial, h⟩
  | some t =>
    rw [hs.openMaps_leave? hl] at hmaps
    obtain ⟨-, hbelow⟩ := List.cons.inj hmaps
    obtain ⟨ms, hms⟩ := (hs.leave hl).openMaps_eq
    rw [hms] at hbelow
    obtain ⟨p, -, rfl⟩ := leave?_eq_some_iff.1 hl
    simp only [← hbelow]
    exact ⟨trivial, hms, h.scopeCount, h.symbolCount⟩

/-- A name is free in the scope when it is free in the map on top. -/
theorem declare (h : s.Sees n) (hs : s.Ordered) (x : Symbol) :
    (s.act (.declare x)).1 = (n.act (.declare x)).1 ∧
      (s.act (.declare x)).2.Sees (n.act (.declare x)).2 := by
  have htop := congrFun (h.top hs) x.name
  cases hd : s.declare? x with
  | none =>
    obtain ⟨i, hi⟩ := declare?_eq_none_iff.1 hd
    have hx : n.top x.name = some i := htop.symm.trans hi
    simp only [Scopes.act, Nest.act, hd, hx]
    exact ⟨trivial, h⟩
  | some t =>
    have hx : n.top x.name = none := htop.symm.trans (declare?_eq_some_iff.1 hd).1
    have hmaps := h.maps
    rw [← h.top hs] at hmaps
    have hsymbols := congrArg List.length (symbols_declare? hd)
    rw [List.length_append] at hsymbols
    simp only [Scopes.act, Nest.act, hd, hx]
    refine ⟨by rw [h.symbolCount], ?_, ?_, ?_⟩
    · show t.openMaps = _
      rw [hs.openMaps_declare? hd hmaps, h.top hs, h.symbolCount]
    · exact (congrArg (·.length + 1) (parents_declare? hd)).trans h.scopeCount
    · exact hsymbols.trans (congrArg Nat.succ h.symbolCount)

/-- An act is answered alike, and what comes of it is alike. -/
theorem act (h : s.Sees n) (hs : s.Ordered) (a : Act) :
    (s.act a).1 = (n.act a).1 ∧ (s.act a).2.Sees (n.act a).2 := by
  cases a with
  | enter => exact ⟨congrArg Answer.entered h.scopeCount, h.enter hs⟩
  | leave => exact h.leave hs
  | declare x => exact h.declare hs x

/-- So are all acts, one after another. -/
theorem actAll (h : s.Sees n) (hs : s.Grown) (acts : List Act) :
    (OnePass.actAll Scopes.act s acts).1 = (OnePass.actAll Nest.act n acts).1 ∧
      (OnePass.actAll Scopes.act s acts).2.Sees (OnePass.actAll Nest.act n acts).2 := by
  induction acts generalizing s n with
  | nil => exact ⟨rfl, h⟩
  | cons a acts ih =>
    obtain ⟨hanswer, hnext⟩ := h.act hs.ordered a
    obtain ⟨hanswers, hlast⟩ := ih hnext (hs.act a)
    exact ⟨congrArg₂ List.cons hanswer hanswers, hlast⟩

end Sees

/-! ## Inside a scope -/

theorem exists_parents_act (s : Scopes) (a : Act) :
    ∃ ps, (s.act a).2.parents = s.parents ++ ps := by
  rcases s.act_cases a with ht | ht | ht | ⟨x, ht⟩
  · exact ⟨[], by rw [ht, List.append_nil]⟩
  · exact ⟨_, by rw [ht, parents_enter]⟩
  · refine ⟨[], ?_⟩
    unfold parents
    rw [births_leave? ht, List.append_nil]
  · exact ⟨[], by rw [parents_declare? ht, List.append_nil]⟩

/-- Scopes stay where they are. -/
theorem exists_parents_after (s : Scopes) (acts : List Act) :
    ∃ ps, (s.after acts).parents = s.parents ++ ps := by
  induction acts generalizing s with
  | nil => exact ⟨[], by simp [after, actAll]⟩
  | cons a acts ih =>
    obtain ⟨ps, hps⟩ := s.exists_parents_act a
    obtain ⟨qs, hqs⟩ := ih (s.act a).2
    exact ⟨ps ++ qs, by rw [← List.append_assoc, ← hps, ← hqs]; rfl⟩

/-- A scope that is open after an act, and was there before, was open before,
and nothing but scopes from this one on has got a new symbol. -/
theorem Ordered.act_inside (hs : s.Ordered) {id : Nat} (hid : id < s.scopeCount) (a : Act)
    (h : id ∈ (s.act a).2.enclosing (s.act a).2.current) :
    id ∈ s.enclosing s.current ∧
      ∃ xs, (s.act a).2.symbols = s.symbols ++ xs ∧ ∀ x ∈ xs, id ≤ x.1 := by
  rcases s.act_cases a with ht | ht | ht | ⟨x, ht⟩
  · rw [ht] at h ⊢
    exact ⟨h, [], (List.append_nil _).symm, nofun⟩
  · rw [ht] at h ⊢
    rw [current_enter, hs.enclosing_enter] at h
    refine ⟨List.mem_of_ne_of_mem (Nat.ne_of_lt hid) h, [], ?_, nofun⟩
    rw [symbols_enter, List.append_nil]
  · obtain ⟨p, hp, hleft⟩ := leave?_eq_some_iff.1 ht
    rw [hleft] at h ⊢
    refine ⟨?_, [], (List.append_nil _).symm, nofun⟩
    rw [hs.enclosing_of_parent? hp]
    exact List.mem_cons_of_mem _ h
  · rw [current_declare? ht, enclosing_congr (parents_declare? ht)] at h
    refine ⟨h, [(s.current, x)], symbols_declare? ht, ?_⟩
    intro y hy
    rw [List.mem_singleton.1 hy]
    exact hs.le_of_mem_enclosing _ hs.current_lt id h

/-- As long as a scope is open, no scope from before it gets a symbol. -/
theorem Grown.symbols_inside (hs : s.Grown) (acts : List Act)
    (h : s.scopeCount ∈ (s.enter.after acts).enclosing (s.enter.after acts).current) :
    ∃ xs, (s.enter.after acts).symbols = s.symbols ++ xs ∧ ∀ x ∈ xs, s.scopeCount ≤ x.1 := by
  induction acts using List.reverseRecOn with
  | nil => exact ⟨[], s.symbols_enter.trans (List.append_nil _).symm, nofun⟩
  | append_singleton acts a ih =>
    have ht : (s.enter.after acts).Grown := hs.enter.after acts
    obtain ⟨ps, hps⟩ := s.enter.exists_parents_after acts
    have hlt : s.scopeCount < (s.enter.after acts).scopeCount := by
      rw [scopeCount_of_parents hps, scopeCount_enter]
      omega
    rw [after_append] at h ⊢
    obtain ⟨hopen, ys, hys, hyle⟩ := ht.ordered.act_inside hlt a h
    obtain ⟨xs, hxs, hxle⟩ := ih hopen
    refine ⟨xs ++ ys, ?_, ?_⟩
    · rw [← List.append_assoc, ← hxs]
      exact hys
    · intro x hx
      exact (List.mem_append.1 hx).elim (hxle x) (hyle x)

/-- What was found before a scope was entered is found again when it was
left. -/
theorem Grown.restored (hs : s.Grown) (acts : List Act)
    (hcur : (s.enter.after acts).current = s.scopeCount)
    (ht : (s.enter.after acts).leave? = some t) :
    t.current = s.current ∧ t.openMaps = s.openMaps := by
  have hgrown : (s.enter.after acts).Grown := hs.enter.after acts
  obtain ⟨ps, hps⟩ := s.enter.exists_parents_after acts
  rw [parents_enter, List.append_assoc] at hps
  obtain ⟨xs, hxs, hle⟩ := hs.symbols_inside acts <| by
    have hself := hgrown.ordered.self_mem_enclosing hgrown.ordered.current_lt
    rwa [hcur] at hself ⊢
  obtain ⟨p, hp, rfl⟩ := leave?_eq_some_iff.1 ht
  have hpcur : p = s.current := by
    have hnew : (s.enter.after acts).parent? s.scopeCount = some s.current := by
      show (s.enter.after acts).parents[s.parents.length]? = _
      rw [hps, List.getElem?_append_right (Nat.le_refl _)]
      simp
    rw [hcur] at hp
    exact Option.some.inj (hp.symm.trans hnew)
  subst hpcur
  refine ⟨rfl, ?_⟩
  have ho := hs.ordered
  show (Scopes.enclosing _ s.current).map _ = (s.enclosing s.current).map s.findIn
  rw [ho.enclosing_of_parents (hgrown.leave ht).ordered hps _ ho.current_lt]
  apply List.map_congr_left
  intro id hid
  funext name
  apply findIn_of_symbols hxs
  intro x hx
  have hxle := hle x hx
  have hidle := ho.le_of_mem_enclosing _ ho.current_lt id hid
  have hlt := ho.current_lt
  omega

/-! ## The law -/

/-- The scopes behave as a stack of maps from names to symbols: they answer
all acts alike, are equally deep, and find the same symbol for each name. A
scope that was entered and is left again takes all its names with it. -/
theorem scopes_are_a_stack_of_names (acts : List Act) :
    (actAll act empty acts).1 = (actAll Nest.act .empty acts).1 ∧
    (let s := (actAll act empty acts).2
      let n := (actAll Nest.act .empty acts).2
      s.depth s.current = n.height - 1 ∧
      (∀ name, s.find name = n.find name ∧ s.findHere name = n.top name) ∧
      ∀ inner t, (s.enter.after inner).current = s.enter.current →
        (s.enter.after inner).leave? = some t →
        t.current = s.current ∧
          ∀ name, t.find name = s.find name ∧ t.findHere name = s.findHere name) := by
  have hs : (empty.after acts).Grown := grown_after acts
  obtain ⟨hanswers, hsees⟩ := sees_empty.actAll .empty acts
  refine ⟨hanswers, hsees.depth, ?_, ?_⟩
  · intro name
    exact ⟨hsees.find name, congrFun (hsees.top hs.ordered) name⟩
  · intro inner t hcur ht
    obtain ⟨hback, hmaps⟩ := hs.restored inner hcur ht
    obtain ⟨ms, hms⟩ := ((hs.enter.after inner).leave ht).ordered.openMaps_eq
    obtain ⟨ns, hns⟩ := hs.ordered.openMaps_eq
    obtain ⟨htop, -⟩ := List.cons.inj (hms.symm.trans (hmaps.trans hns))
    refine ⟨hback, fun name => ⟨?_, congrFun htop name⟩⟩
    rw [find_eq, find_eq, hmaps]
    rfl

/-- A name that is declared again further inside means what it meant before as
soon as the scope is left. -/
theorem a_shadow_ends_with_its_scope :
    let s := empty.after [.declare ⟨"x", .value .int⟩]
    let inside := s.enter.after [.declare ⟨"x", .value .double⟩]
    s.find "x" = some 0 ∧ inside.find "x" = some 1 ∧
      ∃ t, inside.leave? = some t ∧ t.find "x" = some 0 := by
  intro s inside
  have hs : s.find "x" = some 0 := by decide +kernel
  refine ⟨hs, by decide +kernel, { inside with current := 0 }, rfl, ?_⟩
  obtain ⟨-, -, -, hrestored⟩ := scopes_are_a_stack_of_names [.declare ⟨"x", .value .int⟩]
  have hback := hrestored [.declare ⟨"x", .value .double⟩] { inside with current := 0 }
    (by rfl) (by rfl)
  exact (hback.2 "x").1.trans hs

end Scopes

end OnePass
