-- The way from a scope to the global one. It leads from each scope to an
-- older one, so it comes to an end, and scopes that are born later are not on
-- it. Every table of scopes that has grown is ordered in this way.
import OnePass.Proofs.Scopes.Births

namespace OnePass.Scopes

/-! ## The order of ages -/

/-- A scope is younger than the scope around it, and whatever is there is
in a scope that is there. -/
structure Ordered (s : Scopes) : Prop where
  parent_lt : ∀ {id p : Nat}, s.parent? id = some p → p < id
  home_lt : ∀ x ∈ s.symbols, x.1 < s.scopeCount
  current_lt : s.current < s.scopeCount

section
variable {s t : Scopes} {ps : List Nat} {id p c : Nat}

theorem lt_scopeCount_of_parent? (h : s.parent? id = some p) : id < s.scopeCount := by
  cases id with
  | zero => cases h
  | succ id => exact Nat.succ_lt_succ (List.getElem?_eq_some_iff.1 h).1

/-- Only the global scope has no scope around it. -/
theorem exists_parent? (h : 0 < id) (hid : id < s.scopeCount) : ∃ p, s.parent? id = some p := by
  obtain ⟨i, rfl⟩ : ∃ i, id = i + 1 := ⟨id - 1, by omega⟩
  exact ⟨_, List.getElem?_eq_getElem (Nat.lt_of_succ_lt_succ hid)⟩

theorem parent?_congr (h : t.parents = s.parents) : t.parent? = s.parent? := by
  funext id
  cases id with
  | zero => rfl
  | succ id => exact congrArg (·[id]?) h

/-- A scope keeps the scope around it. -/
theorem parent?_of_parents (h : t.parents = s.parents ++ ps) (hid : id < s.scopeCount) :
    t.parent? id = s.parent? id := by
  cases id with
  | zero => rfl
  | succ id =>
    show t.parents[id]? = s.parents[id]?
    rw [h, List.getElem?_append_left (Nat.lt_of_succ_lt_succ hid)]

theorem scopeCount_of_parents (h : t.parents = s.parents ++ ps) :
    t.scopeCount = s.scopeCount + ps.length := by
  simp only [scopeCount, h, List.length_append]
  omega

theorem current_declare? {x : Symbol} (h : s.declare? x = some t) : t.current = s.current := by
  obtain ⟨-, rfl⟩ := declare?_eq_some_iff.1 h
  rfl

/-- The last scope stands in the scope that was current. -/
theorem parent?_enter (s : Scopes) (id : Nat) :
    s.enter.parent? id = if id = s.scopeCount then some s.current else s.parent? id := by
  split
  · rename_i hid
    rw [hid]
    exact s.parent?_current_enter
  · rename_i hid
    cases id with
    | zero => rfl
    | succ id =>
      have hne : id ≠ s.parents.length := fun h => hid (congrArg Nat.succ h)
      show s.enter.parents[id]? = s.parents[id]?
      rw [parents_enter, List.getElem?_append]
      split
      · rfl
      · rename_i hlt
        rw [List.getElem?_eq_none (by simpa using by omega), List.getElem?_eq_none (by omega)]

end

/-! ## The way up -/

section
variable {s t : Scopes} {ps : List Nat} {id p c : Nat}

@[simp] theorem enclosing_zero (s : Scopes) : s.enclosing 0 = [0] := by
  simp [enclosing, climb]

@[simp] theorem depth_zero (s : Scopes) : s.depth 0 = 0 := by
  simp [depth]

theorem enclosing_congr (h : t.parents = s.parents) : t.enclosing = s.enclosing := by
  funext id
  unfold enclosing
  rw [h]

namespace Ordered

/-- Around a scope there are the scope around it and the scopes around
that. -/
theorem enclosing_of_parent? (hs : s.Ordered) (h : s.parent? id = some p) :
    s.enclosing id = id :: s.enclosing p := by
  have hlt := hs.parent_lt h
  cases id with
  | zero => cases h
  | succ id =>
    have harray : s.parents.toArray[id]? = some p := by
      rw [List.getElem?_toArray]
      exact h
    unfold enclosing
    rw [climb, harray]
    exact if_pos (Nat.le_of_lt_succ hlt)

/-- What holds of the global scope, and of a scope if it holds of the scope
around it, holds of all scopes. -/
theorem induction (hs : s.Ordered) {P : Nat → Prop} (root : P 0)
    (inner : ∀ id p, s.parent? id = some p → p < s.scopeCount → P p → P id) :
    ∀ id < s.scopeCount, P id := by
  intro id
  induction id using Nat.strongRecOn with
  | ind id ih =>
    intro hid
    rcases Nat.eq_zero_or_pos id with rfl | hpos
    · exact root
    · obtain ⟨p, hp⟩ := exists_parent? hpos hid
      have hlt := hs.parent_lt hp
      have hpid := Nat.lt_trans hlt hid
      exact inner id p hp hpid (ih p hlt hpid)

/-- What holds of a scope if it holds of all scopes directly inside it holds
of all scopes. -/
theorem downward (hs : s.Ordered) {P : Nat → Prop}
    (step : ∀ id < s.scopeCount, (∀ c, s.parent? c = some id → P c) → P id) :
    ∀ id < s.scopeCount, P id := by
  intro id
  induction hn : s.scopeCount - id using Nat.strongRecOn generalizing id with
  | ind n ih =>
    intro hid
    apply step id hid
    intro c hc
    have hlt := hs.parent_lt hc
    exact ih _ (by omega) c rfl (lt_scopeCount_of_parent? hc)

/-- The way up from a scope starts there. -/
theorem exists_enclosing_eq (hs : s.Ordered) :
    ∀ id < s.scopeCount, ∃ l, s.enclosing id = id :: l := by
  refine hs.induction ⟨[], s.enclosing_zero⟩ ?_
  intro id p hp _ _
  exact ⟨_, hs.enclosing_of_parent? hp⟩

theorem self_mem_enclosing (hs : s.Ordered) (hid : id < s.scopeCount) : id ∈ s.enclosing id := by
  obtain ⟨l, hl⟩ := hs.exists_enclosing_eq id hid
  rw [hl]
  exact List.mem_cons_self

/-- All ways up end at the global scope. -/
theorem zero_mem_enclosing (hs : s.Ordered) : ∀ id < s.scopeCount, 0 ∈ s.enclosing id := by
  refine hs.induction (by simp) ?_
  intro id p hp _ ih
  rw [hs.enclosing_of_parent? hp]
  exact List.mem_cons_of_mem _ ih

theorem le_of_mem_enclosing (hs : s.Ordered) :
    ∀ id < s.scopeCount, ∀ c ∈ s.enclosing id, c ≤ id := by
  refine hs.induction (by simp) ?_
  intro id p hp _ ih c hc
  rw [hs.enclosing_of_parent? hp, List.mem_cons] at hc
  rcases hc with rfl | hc
  · exact Nat.le_refl _
  · exact Nat.le_of_lt (Nat.lt_of_le_of_lt (ih c hc) (hs.parent_lt hp))

/-- All scopes around a scope are older. -/
theorem lt_of_enclosing_eq (hs : s.Ordered) {l : List Nat} (hid : id < s.scopeCount)
    (h : s.enclosing id = id :: l) : ∀ c ∈ l, c < id := by
  rcases Nat.eq_zero_or_pos id with rfl | hpos
  · rw [enclosing_zero] at h
    cases h
    nofun
  · obtain ⟨p, hp⟩ := exists_parent? hpos hid
    have hlt := hs.parent_lt hp
    rw [hs.enclosing_of_parent? hp] at h
    cases h
    intro c hc
    exact Nat.lt_of_le_of_lt (hs.le_of_mem_enclosing p (Nat.lt_trans hlt hid) c hc) hlt

/-- Around a scope that is on the way there is one that is on the way too. -/
theorem mem_enclosing_of_parent? (hs : s.Ordered) :
    ∀ id < s.scopeCount, ∀ c ∈ s.enclosing id, ∀ p, s.parent? c = some p →
      p ∈ s.enclosing id := by
  refine hs.induction ?_ ?_
  · intro c hc p hp
    rw [enclosing_zero, List.mem_singleton] at hc
    rw [hc] at hp
    cases hp
  · intro id q hq hlt ih c hc p hp
    rw [hs.enclosing_of_parent? hq, List.mem_cons] at hc ⊢
    rcases hc with rfl | hc
    · cases hq.symm.trans hp
      exact Or.inr (hs.self_mem_enclosing hlt)
    · exact Or.inr (ih c hc p hp)

/-- A scope on the way up is where the way starts, or around another scope on
the way. -/
theorem eq_or_exists_child (hs : s.Ordered) :
    ∀ id < s.scopeCount, ∀ p ∈ s.enclosing id,
      p = id ∨ ∃ c ∈ s.enclosing id, s.parent? c = some p := by
  refine hs.induction (by simp) ?_
  intro id q hq hlt ih p hp
  have hself := hs.self_mem_enclosing (lt_scopeCount_of_parent? hq)
  rw [hs.enclosing_of_parent? hq] at hp hself ⊢
  rcases List.mem_cons.1 hp with rfl | hp
  · exact Or.inl rfl
  · rcases ih p hp with rfl | ⟨c, hc, hpc⟩
    · exact Or.inr ⟨id, hself, hq⟩
    · exact Or.inr ⟨c, List.mem_cons_of_mem _ hc, hpc⟩

/-- Births do not change the way up from a scope that is there. -/
theorem enclosing_of_parents (hs : s.Ordered) (ht : t.Ordered) (h : t.parents = s.parents ++ ps) :
    ∀ id < s.scopeCount, t.enclosing id = s.enclosing id := by
  refine hs.induction (by simp) ?_
  intro id p hp _ ih
  have hp' := (parent?_of_parents h (lt_scopeCount_of_parent? hp)).trans hp
  rw [hs.enclosing_of_parent? hp, ht.enclosing_of_parent? hp', ih]

/-- A scope has one scope more around it than the scope around it has. -/
theorem depth_of_parent? (hs : s.Ordered) (h : s.parent? id = some p) :
    s.depth id = s.depth p + 1 := by
  have hp : p < s.scopeCount := Nat.lt_trans (hs.parent_lt h) (lt_scopeCount_of_parent? h)
  obtain ⟨l, hl⟩ := hs.exists_enclosing_eq p hp
  unfold depth
  rw [hs.enclosing_of_parent? h, hl]
  rfl

/-! ## Growth in order -/

theorem empty : Scopes.empty.Ordered := by
  refine ⟨?_, ?_, Nat.zero_lt_one⟩
  · intro id p h
    cases id <;> cases h
  · intro x hx
    cases hx

theorem enter (h : s.Ordered) : s.enter.Ordered := by
  refine ⟨?_, ?_, ?_⟩
  · intro id p hp
    rw [parent?_enter] at hp
    split at hp
    · rename_i hid
      cases hp
      rw [hid]
      exact h.current_lt
    · exact h.parent_lt hp
  · intro x hx
    rw [symbols_enter] at hx
    rw [scopeCount_enter]
    exact Nat.lt_succ_of_lt (h.home_lt x hx)
  · rw [scopeCount_enter]
    exact Nat.lt_succ_self _

theorem leave (h : s.Ordered) (ht : s.leave? = some t) : t.Ordered := by
  obtain ⟨p, hp, rfl⟩ := leave?_eq_some_iff.1 ht
  exact ⟨h.parent_lt, h.home_lt, Nat.lt_trans (h.parent_lt hp) (lt_scopeCount_of_parent? hp)⟩

theorem declare {x : Symbol} (h : s.Ordered) (ht : s.declare? x = some t) : t.Ordered := by
  have hparents := parents_declare? ht
  have hcount : t.scopeCount = s.scopeCount := congrArg (·.length + 1) hparents
  refine ⟨?_, ?_, ?_⟩
  · intro id p hp
    rw [parent?_congr hparents] at hp
    exact h.parent_lt hp
  · intro y hy
    rw [symbols_declare? ht, List.mem_append, List.mem_singleton] at hy
    rw [hcount]
    rcases hy with hy | rfl
    · exact h.home_lt y hy
    · exact h.current_lt
  · rw [hcount, current_declare? ht]
    exact h.current_lt

end Ordered

theorem Grown.ordered (h : s.Grown) : s.Ordered := by
  induction h with
  | empty => exact .empty
  | enter _ ih => exact ih.enter
  | leave _ ht ih => exact ih.leave ht
  | declare _ ht ih => exact ih.declare ht

/-- Around a new scope there are those that are around the current one. -/
theorem Ordered.enclosing_enter (h : s.Ordered) :
    s.enter.enclosing s.scopeCount = s.scopeCount :: s.enclosing s.current := by
  rw [← s.current_enter, h.enter.enclosing_of_parent? s.parent?_current_enter,
    h.enclosing_of_parents h.enter s.parents_enter _ h.current_lt]

end

end OnePass.Scopes
