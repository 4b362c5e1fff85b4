-- The history of scopes. Whatever is done to scopes, what is there stays as it
-- is and where it is: something new comes to the ends of scopes that are open,
-- and a scope that was left gets nothing any more. An act that is refused
-- changes nothing at all.
import OnePass.Proofs.Scopes.Nest

namespace OnePass

/-- Whether an act was refused. -/
def Answer.isRefusal : Answer → Bool
  | .entered _ => false
  | .left done => !done
  | .declared symbol => symbol.isNone

namespace Scopes

variable {s t : Scopes}

/-! ## Births along the way -/

/-- What an act brings stands in the scope that was current. -/
theorem exists_births_act (s : Scopes) (a : Act) :
    ∃ bs, (s.act a).2.births = s.births ++ bs ∧ ∀ b ∈ bs, b.place = s.current := by
  rcases s.act_cases a with ht | ht | ht | ⟨x, ht⟩
  · exact ⟨[], by rw [ht, List.append_nil], nofun⟩
  · refine ⟨[.scope s.current], by rw [ht, births_enter], ?_⟩
    intro b hb
    rw [List.mem_singleton.1 hb]
    rfl
  · exact ⟨[], by rw [births_leave? ht, List.append_nil], nofun⟩
  · refine ⟨[.symbol s.current x], births_declare? ht, ?_⟩
    intro b hb
    rw [List.mem_singleton.1 hb]
    rfl

/-- The scopes `t` are the scopes `s` at a later time. -/
structure Later (s t : Scopes) : Prop where
  /-- What came between is in scopes that were open, or new themselves. -/
  births : ∃ bs, t.births = s.births ++ bs ∧
    ∀ b ∈ bs, b.place ∈ s.enclosing s.current ∨ s.scopeCount ≤ b.place
  /-- A scope that was left is not opened again. -/
  opened : ∀ id < s.scopeCount, id ∈ t.enclosing t.current → id ∈ s.enclosing s.current

namespace Later

theorem refl (s : Scopes) : s.Later s :=
  ⟨⟨[], (List.append_nil _).symm, nofun⟩, fun _ _ h => h⟩

theorem scopeCount_le (h : s.Later t) : s.scopeCount ≤ t.scopeCount := by
  obtain ⟨bs, hbs, -⟩ := h.births
  rw [scopeCount_of_parents (parents_append hbs)]
  exact Nat.le_add_right _ _

/-- One act more. -/
theorem act (h : s.Later t) (ht : t.Ordered) (a : Act) : s.Later (t.act a).2 := by
  refine ⟨?_, ?_⟩
  · obtain ⟨bs, hbs, hplaces⟩ := h.births
    obtain ⟨cs, hcs, hnew⟩ := t.exists_births_act a
    refine ⟨bs ++ cs, by rw [hcs, hbs, List.append_assoc], ?_⟩
    intro b hb
    rcases List.mem_append.1 hb with hb | hb
    · exact hplaces b hb
    · rw [hnew b hb]
      by_cases hlt : t.current < s.scopeCount
      · exact Or.inl (h.opened _ hlt (ht.self_mem_enclosing ht.current_lt))
      · exact Or.inr (Nat.le_of_not_lt hlt)
  · intro id hid hopen
    have hlt : id < t.scopeCount := Nat.lt_of_lt_of_le hid h.scopeCount_le
    obtain ⟨hwas, -⟩ := ht.act_inside hlt a hopen
    exact h.opened id hid hwas

/-- Any number of acts more. -/
theorem after (h : s.Later t) (ht : t.Grown) (acts : List Act) : s.Later (t.after acts) := by
  induction acts generalizing t with
  | nil => exact h
  | cons a acts ih => exact ih (h.act ht.ordered a) (ht.act a)

end Later

/-! ## What stays -/

/-- A member stands where it was born. -/
theorem place_of_mem_numbered {i j : Nat} {bs : List Birth} {m : Nat × Member}
    (h : m ∈ numbered i j bs) : ∃ b ∈ bs, b.place = m.1 := by
  induction bs generalizing i j with
  | nil => cases h
  | cons b bs ih =>
    have hrest : ∀ {i j}, m ∈ numbered i j bs → ∃ c ∈ b :: bs, c.place = m.1 := by
      intro i j hm
      obtain ⟨c, hc, hplace⟩ := ih hm
      exact ⟨c, List.mem_cons_of_mem _ hc, hplace⟩
    cases b with
    | scope p =>
      rcases List.mem_cons.1 h with rfl | hm
      · exact ⟨_, List.mem_cons_self, rfl⟩
      · exact hrest hm
    | symbol g x =>
      rcases List.mem_cons.1 h with rfl | hm
      · exact ⟨_, List.mem_cons_self, rfl⟩
      · exact hrest hm

/-- Births elsewhere bring nothing to a scope. -/
theorem members_eq_of_births {bs : List Birth} (h : t.births = s.births ++ bs) {id : Nat}
    (hne : ∀ b ∈ bs, b.place ≠ id) : t.members id = s.members id := by
  have hnone : ∀ m ∈ numbered s.scopeCount s.symbolCount bs,
      (if m.1 = id then some m.2 else none) = none := by
    intro m hm
    obtain ⟨b, hb, hplace⟩ := place_of_mem_numbered hm
    exact if_neg (hplace ▸ hne b hb)
  rw [members_append h, List.filterMap_eq_nil_iff.2 hnone, List.append_nil]

/-- What scopes keep of what they were. -/
structure Keep (s t : Scopes) : Prop where
  /-- A symbol is the same and stands in the same scope. -/
  symbol : ∀ i < s.symbolCount,
    i < t.symbolCount ∧ t.symbol? i = s.symbol? i ∧ t.home? i = s.home? i
  /-- A scope is in the same scope, and as deep. -/
  scope : ∀ id < s.scopeCount,
    id < t.scopeCount ∧ t.parent? id = s.parent? id ∧ t.depth id = s.depth id
  /-- What stands in a scope stands in front of what came later. -/
  grown : ∀ id < s.scopeCount, s.members id <+: t.members id ∧
    s.symbolsIn id <+: t.symbolsIn id ∧ s.children id <+: t.children id
  /-- A scope that is not open gets nothing any more. -/
  frozen : ∀ id < s.scopeCount, id ∉ s.enclosing s.current → t.members id = s.members id ∧
    t.symbolsIn id = s.symbolsIn id ∧ t.children id = s.children id

theorem Later.keep (h : s.Later t) (hs : s.Ordered) (ht : t.Ordered) : s.Keep t := by
  obtain ⟨bs, hbs, hplaces⟩ := h.births
  have hparents := parents_append hbs
  have hsymbols := symbols_append hbs
  refine ⟨?_, ?_, ?_, ?_⟩
  · intro i hi
    have hsame : t.symbols[i]? = s.symbols[i]? := by
      rw [hsymbols, List.getElem?_append_left hi]
    refine ⟨?_, congrArg _ hsame, congrArg _ hsame⟩
    unfold symbolCount
    rw [hsymbols, List.length_append]
    exact Nat.lt_add_right _ hi
  · intro id hid
    refine ⟨Nat.lt_of_lt_of_le hid h.scopeCount_le, parent?_of_parents hparents hid, ?_⟩
    unfold depth
    rw [hs.enclosing_of_parents ht hparents id hid]
  · intro id _
    have hfront : s.members id <+: t.members id := ⟨_, (members_append hbs id).symm⟩
    exact ⟨hfront, hfront.filterMap _, hfront.filterMap _⟩
  · intro id hid hleft
    have hmembers : t.members id = s.members id := by
      apply members_eq_of_births hbs
      rintro b hb rfl
      exact (hplaces b hb).elim hleft (Nat.not_le_of_lt hid)
    refine ⟨hmembers, ?_, ?_⟩
    · rw [symbolsIn_eq, symbolsIn_eq, hmembers]
    · rw [children_eq, children_eq, hmembers]

/-! ## Refusals -/

/-- Only what is refused changes nothing. -/
theorem Ordered.isRefusal_iff (hs : s.Ordered) (a : Act) :
    (s.act a).1.isRefusal = true ↔ (s.act a).2 = s := by
  cases a with
  | enter =>
    have hne : s.enter ≠ s := fun h => by
      have hcount := congrArg scopeCount h
      rw [scopeCount_enter] at hcount
      omega
    simp [Scopes.act, Answer.isRefusal, hne]
  | leave =>
    cases hl : s.leave? with
    | none => simp [Scopes.act, hl, Answer.isRefusal]
    | some t =>
      obtain ⟨p, hp, rfl⟩ := leave?_eq_some_iff.1 hl
      have hlt := hs.parent_lt hp
      have hne : { s with current := p } ≠ s := fun h => by
        have hcurrent := congrArg current h
        exact Nat.ne_of_lt hlt hcurrent
      simp [Scopes.act, hl, Answer.isRefusal, hne]
  | declare x =>
    cases hd : s.declare? x with
    | none => simp [Scopes.act, hd, Answer.isRefusal]
    | some t =>
      have hne : t ≠ s := fun h => by
        have hlength := congrArg List.length (births_declare? hd)
        rw [h, List.length_append, List.length_singleton] at hlength
        omega
      simp [Scopes.act, hd, Answer.isRefusal, hne]

/-- Only the global scope cannot be left. -/
theorem Ordered.left_false_iff (hs : s.Ordered) :
    (s.act .leave).1 = .left false ↔ s.current = 0 := by
  rcases Nat.eq_zero_or_pos s.current with hzero | hpos
  · simp [Scopes.act, leave?, hzero, parent?]
  · obtain ⟨p, hp⟩ := exists_parent? hpos hs.current_lt
    simp [Scopes.act, leave?, hp, Nat.ne_of_gt hpos]

/-- Only a name that the current scope has is refused. -/
theorem declared_none_iff (s : Scopes) (x : Symbol) :
    (s.act (.declare x)).1 = .declared none ↔
      ∃ i ∈ s.symbolsIn s.current, ∃ y, s.symbol? i = some y ∧ y.name = x.name := by
  have hanswer : (s.act (.declare x)).1 = .declared none ↔ s.findIn s.current x.name ≠ none := by
    cases hd : s.declare? x with
    | none =>
      obtain ⟨i, hi⟩ := declare?_eq_none_iff.1 hd
      unfold findHere at hi
      simp [Scopes.act, hd, hi]
    | some t =>
      have hfree := (declare?_eq_some_iff.1 hd).1
      unfold findHere at hfree
      simp [Scopes.act, hd, hfree]
  rw [hanswer, Ne, findIn_eq_none_iff]
  constructor
  · intro h
    push Not at h
    obtain ⟨⟨home, y⟩, hy, rfl, hname⟩ := h
    obtain ⟨i, hi⟩ := List.mem_iff_getElem?.1 hy
    refine ⟨i, mem_symbolsIn.2 ?_, y, ?_, hname⟩
    · rw [home?, hi]
      rfl
    · rw [symbol?, hi]
      rfl
  · rintro ⟨i, hi, y, hy, hname⟩ hnone
    have hmem := List.mem_of_getElem? (getElem?_symbols (mem_symbolsIn.1 hi) hy)
    exact hnone _ hmem rfl hname

/-! ## The law -/

/-- Whatever is done to scopes, nothing that stands in them is changed, moved
or taken away, and a scope that was left gets nothing new. An act that is
refused, as leaving the global scope or taking a name twice, changes nothing
at all. -/
theorem what_stands_in_scopes_stays (acts more : List Act) :
    let s := empty.after acts
    s.Keep (s.after more) ∧
    (∀ a, (s.act a).1.isRefusal = true ↔ (s.act a).2 = s) ∧
    ((s.act .leave).1 = .left false ↔ s.current = 0) ∧
    ∀ x, (s.act (.declare x)).1 = .declared none ↔
      ∃ i ∈ s.symbolsIn s.current, ∃ y, s.symbol? i = some y ∧ y.name = x.name := by
  intro s
  have hs : s.Grown := grown_after acts
  have hlater : s.Later (s.after more) := (Later.refl s).after hs more
  exact ⟨hlater.keep hs.ordered (hs.after more).ordered, hs.ordered.isRefusal_iff,
    hs.ordered.left_false_iff, s.declared_none_iff⟩

end Scopes

end OnePass
