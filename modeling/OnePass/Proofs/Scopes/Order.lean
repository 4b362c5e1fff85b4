-- The order in scopes that have grown: no name is in one scope twice, and the
-- outline goes through everything in the order of the numbers, with a line for
-- each.
import OnePass.Proofs.Scopes.Walk

namespace OnePass

/-! ## Names in one scope -/

namespace Scopes

variable {s t : Scopes} {x : Symbol}

/-- No two symbols of one scope have one name. -/
def Distinct (s : Scopes) : Prop :=
  s.symbols.Pairwise fun x y => x.1 = y.1 → x.2.name ≠ y.2.name

theorem Grown.distinct (h : s.Grown) : s.Distinct := by
  induction h with
  | empty => exact List.Pairwise.nil
  | @enter s _ ih =>
    unfold Distinct
    rwa [symbols_enter]
  | @leave s t _ ht ih =>
    unfold Distinct symbols
    rwa [births_leave? ht]
  | @declare s t x _ ht ih =>
    have hfree := findIn_eq_none_iff.1 (declare?_eq_some_iff.1 ht).1
    unfold Distinct
    rw [symbols_declare? ht, List.pairwise_append]
    refine ⟨ih, List.pairwise_singleton _ _, ?_⟩
    intro y hy z hz
    rw [List.mem_singleton.1 hz]
    exact hfree y hy

/-- In a scope there is only one symbol of a name. -/
theorem Distinct.eq (h : s.Distinct) {i j home : Nat} {x y : Symbol}
    (hi : s.symbols[i]? = some (home, x)) (hj : s.symbols[j]? = some (home, y))
    (hname : x.name = y.name) : i = j := by
  obtain ⟨hilt, hi⟩ := List.getElem?_eq_some_iff.1 hi
  obtain ⟨hjlt, hj⟩ := List.getElem?_eq_some_iff.1 hj
  have hpairs := List.pairwise_iff_getElem.1 h
  rcases Nat.lt_trichotomy i j with hlt | heq | hlt
  · have hne := hpairs i j hilt hjlt hlt
    rw [hi, hj] at hne
    exact absurd hname (hne rfl)
  · exact heq
  · have hne := hpairs j i hjlt hilt hlt
    rw [hi, hj] at hne
    exact absurd hname.symm (hne rfl)

/-- The symbol has the name. -/
def bears (s : Scopes) (name : String) (i : Nat) : Bool := (s.symbol? i).any (·.name = name)

variable {id i : Nat} {name : String}

theorem bears_iff : s.bears name i = true ↔ ∃ x, s.symbol? i = some x ∧ x.name = name := by
  simp [bears, Option.any_eq_true]

theorem exists_of_findIn (h : s.findIn id name = some i) :
    ∃ x, s.symbols[i]? = some (id, x) ∧ x.name = name := by
  obtain ⟨hlt, hi, -⟩ := List.findIdx?_eq_some_iff_getElem.1 h
  obtain ⟨rfl, hname⟩ := of_decide_eq_true hi
  exact ⟨_, List.getElem?_eq_getElem hlt, hname⟩

/-- The symbols that a scope declares itself are enough to find a name in it. -/
theorem Grown.find?_symbolsIn (h : s.Grown) :
    (s.symbolsIn id).find? (s.bears name) = s.findIn id name := by
  cases hfound : s.findIn id name with
  | none =>
    rw [List.find?_eq_none]
    intro i hi hbears
    obtain ⟨x, hx, hname⟩ := bears_iff.1 hbears
    have hmem := List.mem_of_getElem? (getElem?_symbols (mem_symbolsIn.1 hi) hx)
    exact findIn_eq_none_iff.1 hfound _ hmem rfl hname
  | some j =>
    obtain ⟨y, hy, hname⟩ := exists_of_findIn hfound
    have hmem : j ∈ s.symbolsIn id := mem_symbolsIn.2 (by rw [home?, hy]; rfl)
    have hj : s.bears name j = true := bears_iff.2 ⟨y, by rw [symbol?, hy]; rfl, hname⟩
    obtain ⟨i, hfirst⟩ := Option.isSome_iff_exists.1 (List.find?_isSome.2 ⟨j, hmem, hj⟩)
    obtain ⟨x, hx, hxname⟩ := bears_iff.1 (List.find?_some hfirst)
    have hi := getElem?_symbols (mem_symbolsIn.1 (List.mem_of_find?_eq_some hfirst)) hx
    rw [hfirst, h.distinct.eq hi hy (hxname.trans hname.symm)]

end Scopes

/-! ## The lines of an outline -/

theorem not_mem_intercalate {α : Type} {c : α} {sep : List α} {l : List (List α)}
    (hsep : c ∉ sep) (hl : ∀ x ∈ l, c ∉ x) : c ∉ sep.intercalate l := by
  induction l with
  | nil => simp
  | cons x l ih =>
    obtain ⟨hx, hl⟩ := List.forall_mem_cons.1 hl
    cases l with
    | nil => simpa [List.intercalate] using hx
    | cons y l =>
      have ih := ih hl
      simp only [List.intercalate, List.intersperse_cons_cons, List.flatten_cons,
        List.mem_append, not_or] at ih ⊢
      exact ⟨hx, hsep, ih⟩

theorem ValueType.newline_not_mem_name (t : ValueType) : '\n' ∉ t.name.toList := by
  cases t <;> decide

/-- A symbol is told on one line. -/
theorem Symbol.newline_not_mem_shown {x : Symbol} (h : ∀ n ∈ x.names, '\n' ∉ n.toList) :
    '\n' ∉ x.shown.toList := by
  have hname : '\n' ∉ x.name.toList := h _ List.mem_cons_self
  obtain ⟨name, t | t | ⟨t, ps⟩⟩ := x
  · simp [shown, hname, t.newline_not_mem_name]
  · simp [shown, hname, t.newline_not_mem_name]
  · have hps : '\n' ∉ (", ".intercalate (ps.map fun p => p.type.name ++ " " ++ p.name)).toList := by
      rw [String.toList_intercalate]
      apply not_mem_intercalate (by decide)
      intro l hl
      simp only [List.map_map, List.mem_map, Function.comp_apply] at hl
      obtain ⟨p, hp, rfl⟩ := hl
      have hname := h p.name (List.mem_cons_of_mem _ (List.mem_map_of_mem hp))
      simp [p.type.newline_not_mem_name, hname]
    simp only [shown, String.toList_append, List.mem_append, not_or]
    exact ⟨⟨⟨⟨⟨hname, by decide⟩, t.newline_not_mem_name⟩, by decide⟩, hps⟩, by decide⟩

namespace Scopes

variable {s : Scopes}

/-- The line of a member, at any depth. -/
theorem Visit.newline_not_mem_line {v : Visit}
    (h : ∀ i x, v.member = .symbol i x → '\n' ∉ x.shown.toList) : '\n' ∉ v.line.toList := by
  obtain ⟨d, c | ⟨i, x⟩⟩ := v
  · simp [line]
  · have hx := h i x rfl
    simp [line, hx]

/-- The outline has a line for everything. -/
theorem Grown.exists_lines (h : s.Grown) : ∃ ls : List String,
    s.outline = String.join (ls.map (· ++ "\n")) ∧ ls.length = s.scopeCount + s.symbolCount ∧
    ((∀ x ∈ s.symbols, ∀ n ∈ x.2.names, '\n' ∉ n.toList) → ∀ l ∈ ls, '\n' ∉ l.toList) := by
  refine ⟨"[Global]" :: s.walk.map Visit.line, ?_, ?_, ?_⟩
  · unfold outline
    rw [List.map_cons, List.map_map, ← String.toList_inj]
    simp [Function.comp_def]
  · have hlength := s.length_births
    rw [List.length_cons, List.length_map, h.walk_eq, List.length_map, length_numbered]
    omega
  · intro hnames l hl
    rcases List.mem_cons.1 hl with rfl | hl
    · decide
    · obtain ⟨v, hv, rfl⟩ := List.mem_map.1 hl
      rw [h.walk_eq] at hv
      obtain ⟨⟨home, m⟩, hm, rfl⟩ := List.mem_map.1 hv
      apply Visit.newline_not_mem_line
      rintro i x rfl
      apply Symbol.newline_not_mem_shown
      exact hnames _ (List.mem_of_getElem? (symbol_mem_members.1 (mem_members.2 hm)))

/-! ## The order of a walk -/

/-- What a walk tells of the symbols alone. -/
def symbolsInOrder (s : Scopes) : List Nat := s.walk.filterMap fun v => v.member.symbol?

theorem Grown.map_member_walk (h : s.Grown) :
    s.walk.map Visit.member = (numbered 1 0 s.births).map Prod.snd := by
  rw [h.walk_eq, List.map_map]
  rfl

theorem Grown.inOrder_eq (h : s.Grown) : s.inOrder = List.range s.scopeCount := by
  show 0 :: s.walk.filterMap (Member.scope? ∘ Visit.member) = List.range (s.parents.length + 1)
  rw [← List.filterMap_map, h.map_member_walk, scopes_numbered, List.range_eq_range',
    List.range'_succ]
  rfl

theorem Grown.symbolsInOrder_eq (h : s.Grown) :
    s.symbolsInOrder = List.range s.symbolCount := by
  show s.walk.filterMap (Member.symbol? ∘ Visit.member) = List.range s.symbols.length
  rw [← List.filterMap_map, h.map_member_walk, symbols_numbered, List.range_eq_range']
  rfl

end Scopes

end OnePass
