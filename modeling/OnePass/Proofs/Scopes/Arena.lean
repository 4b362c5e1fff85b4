-- The arenas say what the births say. Both sides of everything that is
-- written down twice agree after any acts, no number points outside of its
-- arena, and every way up and every walk comes to an end.
import OnePass.Proofs.Scopes.Order
import OnePass.Scopes.Arena

namespace OnePass

/-- A member by its number. -/
def Member.item : Member → NodeItem
  | .scope c => .scope c
  | .symbol i _ => .symbol i

theorem Member.count_scope (ms : List Member) (c : Nat) :
    (ms.map Member.item).count (.scope c) = (ms.filterMap Member.scope?).count c := by
  induction ms with
  | nil => rfl
  | cons m ms ih => cases m <;> simp [Member.item, List.count_cons, List.filterMap_cons, ih]

theorem Member.count_symbol (ms : List Member) (i : Nat) :
    (ms.map Member.item).count (.symbol i) = (ms.filterMap Member.symbol?).count i := by
  induction ms with
  | nil => rfl
  | cons m ms ih => cases m <;> simp [Member.item, List.count_cons, List.filterMap_cons, ih]

namespace Arenas

/-! ## What the arenas say -/

variable {ν κ : Type}

theorem put_eq {t : Arenas ν κ} {id : Nat} {item : NodeItem} (h : id < t.scopes.size) :
    t.put id item =
      some { t with scopes := t.scopes.modify id fun n => { n with items := n.items.push item } } :=
  if_pos h

variable [Interner ν κ]

/-- The arenas say of every scope and of every symbol what the births say. -/
structure Represents (t : Arenas ν κ) (s : Scopes) : Prop where
  size_scopes : t.scopes.size = s.scopeCount
  parent : ∀ {id n}, t.scopes[id]? = some n → n.parent = s.parent? id
  items : ∀ {id n}, t.scopes[id]? = some n → n.items.toList = (s.members id).map Member.item
  symbols : t.symbols.toList.map (fun e => (e.scope, e.symbol)) = s.symbols
  key : ∀ e ∈ t.symbols, Interner.key? t.names e.symbol.name = some e.key
  current : t.current = s.current

variable {t u : Arenas ν κ} {s : Scopes} {id i c : Nat} {x : Symbol} {name : String} {key : κ}

namespace Represents

theorem exists_node (h : t.Represents s) (hid : id < s.scopeCount) :
    ∃ n, t.scopes[id]? = some n :=
  ⟨_, Array.getElem?_eq_getElem (h.size_scopes ▸ hid)⟩

theorem lt_of_getElem? (h : t.Represents s) {n : Node} (hn : t.scopes[id]? = some n) :
    id < s.scopeCount :=
  h.size_scopes ▸ (Array.getElem?_eq_some_iff.1 hn).1

theorem parentOf (h : t.Represents s) (hid : id < s.scopeCount) :
    t.parentOf id = some (s.parent? id) := by
  obtain ⟨n, hn⟩ := h.exists_node hid
  rw [Arenas.parentOf, hn, Option.map_some, h.parent hn]

theorem parentOf_eq_some_iff (h : t.Represents s) {p : Option Nat} :
    t.parentOf id = some p ↔ id < s.scopeCount ∧ s.parent? id = p := by
  constructor
  · intro hp
    obtain ⟨n, hn, rfl⟩ := Option.map_eq_some_iff.1 hp
    exact ⟨h.lt_of_getElem? hn, (h.parent hn).symm⟩
  · rintro ⟨hid, rfl⟩
    exact h.parentOf hid

theorem itemsOf_eq_some_iff (h : t.Represents s) {items : List NodeItem} :
    t.itemsOf id = some items ↔ id < s.scopeCount ∧ (s.members id).map Member.item = items := by
  constructor
  · intro hi
    obtain ⟨n, hn, rfl⟩ := Option.map_eq_some_iff.1 hi
    exact ⟨h.lt_of_getElem? hn, (h.items hn).symm⟩
  · rintro ⟨hid, rfl⟩
    obtain ⟨n, hn⟩ := h.exists_node hid
    rw [itemsOf, hn, Option.map_some, h.items hn]

theorem itemsOf (h : t.Represents s) (hid : id < s.scopeCount) :
    t.itemsOf id = some ((s.members id).map Member.item) :=
  h.itemsOf_eq_some_iff.2 ⟨hid, rfl⟩

theorem symbolsIn (h : t.Represents s) (hid : id < s.scopeCount) :
    t.symbolsIn id = some (s.symbolsIn id) := by
  rw [Arenas.symbolsIn, h.itemsOf hid, Option.map_some, List.filterMap_map]
  congr 2
  funext m
  cases m <;> rfl

theorem childrenOf (h : t.Represents s) (hid : id < s.scopeCount) :
    t.childrenOf id = some (s.children id) := by
  rw [Arenas.childrenOf, h.itemsOf hid, Option.map_some, List.filterMap_map]
  congr 2
  funext m
  cases m <;> rfl

theorem getElem?_symbols (h : t.Represents s) :
    t.symbols[i]?.map (fun e => (e.scope, e.symbol)) = s.symbols[i]? := by
  rw [← h.symbols, List.getElem?_map, Array.getElem?_toList]

theorem symbolOf (h : t.Represents s) : t.symbolOf i = s.symbol? i := by
  rw [Arenas.symbolOf, Scopes.symbol?, ← h.getElem?_symbols, Option.map_map]
  rfl

theorem scopeOf (h : t.Represents s) : t.scopeOf i = s.home? i := by
  rw [Arenas.scopeOf, Scopes.home?, ← h.getElem?_symbols, Option.map_map]
  rfl

theorem size_symbols (h : t.Represents s) : t.symbols.size = s.symbolCount := by
  rw [Scopes.symbolCount, ← h.symbols, List.length_map, Array.length_toList]

/-! ## Ways up and walks -/

/-- Around a scope there are older ones only, so there are not more of them than
are older. -/
theorem height (h : t.Represents s) (hs : s.Ordered) : ∀ id < s.scopeCount, ∀ n, id ≤ n →
    t.height (n + 1) (some id) = some (s.enclosing id).length := by
  refine hs.induction ?_ ?_
  · intro n _
    rw [Arenas.height, h.parentOf (Nat.zero_lt_succ _)]
    simp [Scopes.parent?, Arenas.height]
  · intro id p hp _ ih n hn
    have hlt := hs.parent_lt hp
    obtain ⟨m, rfl⟩ : ∃ m, n = m + 1 := ⟨n - 1, by omega⟩
    rw [Arenas.height, h.parentOf (Scopes.lt_scopeCount_of_parent? hp), hp]
    simp [ih m (by omega), hs.enclosing_of_parent? hp]

theorem depth (h : t.Represents s) (hs : s.Ordered) (hid : id < s.scopeCount) :
    t.depth id = some (s.depth id) := by
  have hheight := h.height hs id hid t.scopes.size (h.size_scopes ▸ Nat.le_of_lt hid)
  rw [Arenas.height] at hheight
  obtain ⟨p, hp, hrest⟩ := Option.bind_eq_some_iff.1 hheight
  obtain ⟨d, hd, hlength⟩ := Option.bind_eq_some_iff.1 hrest
  have hcount : s.depth id = d := by
    rw [Scopes.depth, ← Option.some.inj hlength]
    rfl
  rw [Arenas.depth, hp, hcount]
  exact hd

/-- Inside a scope there are younger ones only, so there are not more of them
inside one another than are younger. -/
theorem walkItems (h : t.Represents s) (hs : s.Ordered) : ∀ id < s.scopeCount, ∀ depth n,
    s.scopeCount ≤ id + n →
      t.walkItems depth n ((s.members id).map Member.item) = some (s.walkFrom id depth) := by
  refine hs.downward ?_
  intro id hid ih depth n hn
  have hpart : ∀ ms : List Member, (∀ m ∈ ms, m ∈ s.members id) →
      t.walkItems depth n (ms.map Member.item) = some (ms.flatMap (s.walkAt depth)) := by
    intro ms
    induction ms with
    | nil =>
      intro _
      rw [List.map_nil, Arenas.walkItems]
      rfl
    | cons m ms ihms =>
      intro hall
      obtain ⟨hm, hms⟩ := List.forall_mem_cons.1 hall
      cases m with
      | symbol i x =>
        have hx : t.symbolOf i = some x := by
          rw [h.symbolOf, Scopes.symbol?, Scopes.symbol_mem_members.1 hm]
          rfl
        rw [List.map_cons, Member.item, Arenas.walkItems, hx, ihms hms]
        rfl
      | scope c =>
        have hc := Scopes.scope_mem_members.1 hm
        have hlt := hs.parent_lt hc
        have hitems := h.itemsOf (Scopes.lt_scopeCount_of_parent? hc)
        obtain ⟨n, rfl⟩ : ∃ k, n = k + 1 := ⟨n - 1, by omega⟩
        rw [List.map_cons, Member.item, Arenas.walkItems, hitems, ihms hms]
        simp [ih c hc (depth + 1) n (by omega), Scopes.walkAt]
  rw [hs.walkFrom_eq]
  exact hpart _ fun _ hm => hm

theorem walk (h : t.Represents s) (hs : s.Ordered) : t.walk = some s.walk := by
  rw [Arenas.walk, h.itemsOf (Nat.zero_lt_succ _), h.size_scopes]
  exact h.walkItems hs 0 (Nat.zero_lt_succ _) 1 _ (by omega)

theorem outline (h : t.Represents s) (hs : s.Ordered) : t.outline = some s.outline := by
  rw [Arenas.outline, h.walk hs]
  rfl

/-! ## Names -/

theorem key_eq_iff (h : t.Represents s) {e : Entry κ} (he : e ∈ t.symbols)
    (hkey : Interner.key? t.names name = some key) : e.key = key ↔ e.symbol.name = name := by
  have hown := h.key e he
  constructor
  · rintro rfl
    exact Interner.key?_injective _ _ _ _ hown hkey
  · rintro rfl
    exact Option.some.inj (hown.symm.trans hkey)

/-- A name without a key is nowhere. -/
theorem findIn_of_key? (h : t.Represents s) (hkey : Interner.key? t.names name = none) :
    s.findIn id name = none := by
  rw [Scopes.findIn_eq_none_iff, ← h.symbols, List.forall_mem_map]
  intro e he _ hname
  have hown := h.key e (Array.mem_toList_iff.1 he)
  rw [hname, hkey] at hown
  cases hown

variable [DecidableEq κ]

/-- Some symbols are searched for a name by its key. -/
theorem firstWith (h : t.Represents s) (hkey : Interner.key? t.names name = some key)
    {is : List Nat} (his : ∀ i ∈ is, ∃ x, s.symbol? i = some x) :
    t.firstWith key is = some (is.find? (s.bears name)) := by
  induction is with
  | nil => rfl
  | cons i is ih =>
    obtain ⟨⟨x, hx⟩, his⟩ := List.forall_mem_cons.1 his
    obtain ⟨e, he, rfl⟩ := Option.map_eq_some_iff.1 (h.symbolOf.trans hx)
    have hiff := h.key_eq_iff (Array.mem_of_getElem? he) hkey
    rw [Arenas.firstWith, he, List.find?_cons, Scopes.bears, hx]
    by_cases hname : e.symbol.name = name
    · simp [hiff.2 hname, hname]
    · simp [mt hiff.1 hname, hname, ih his]

theorem findIn (h : t.Represents s) (hs : s.Grown) (hid : id < s.scopeCount)
    (hkey : Interner.key? t.names name = some key) :
    t.findIn id key = some (s.findIn id name) := by
  have hthere : ∀ i ∈ s.symbolsIn id, ∃ x, s.symbol? i = some x := by
    intro i hi
    obtain ⟨x, hx, -⟩ := Option.map_eq_some_iff.1 (Scopes.mem_symbolsIn.1 hi)
    exact ⟨x.2, by rw [Scopes.symbol?, hx]; rfl⟩
  rw [Arenas.findIn, h.symbolsIn hid, ← hs.find?_symbolsIn]
  exact h.firstWith hkey hthere

theorem findHere (h : t.Represents s) (hs : s.Grown) :
    t.findHere name = some (s.findHere name) := by
  unfold Arenas.findHere Scopes.findHere
  rw [h.current]
  split
  · rename_i hkey
    rw [h.findIn_of_key? hkey]
  · rename_i hkey
    exact h.findIn hs hs.ordered.current_lt hkey

theorem findFrom (h : t.Represents s) (hs : s.Grown)
    (hkey : Interner.key? t.names name = some key) : ∀ id < s.scopeCount, ∀ n, id ≤ n →
    t.findFrom key (n + 1) id = some ((s.enclosing id).findSome? fun c => s.findIn c name) := by
  refine hs.ordered.induction ?_ ?_
  · intro n _
    have hzero : 0 < s.scopeCount := Nat.zero_lt_succ _
    rw [Arenas.findFrom, h.findIn hs hzero hkey, h.parentOf hzero]
    cases hfound : s.findIn 0 name <;> simp [hfound, Scopes.parent?]
  · intro id p hp _ ih n hn
    have hid := Scopes.lt_scopeCount_of_parent? hp
    have hlt := hs.ordered.parent_lt hp
    obtain ⟨m, rfl⟩ : ∃ m, n = m + 1 := ⟨n - 1, by omega⟩
    rw [Arenas.findFrom, h.findIn hs hid hkey, h.parentOf hid, hp,
      hs.ordered.enclosing_of_parent? hp]
    cases hfound : s.findIn id name <;> simp [hfound, ih m (by omega)]

theorem find (h : t.Represents s) (hs : s.Grown) : t.find name = some (s.find name) := by
  unfold Arenas.find Scopes.find
  split
  · rename_i hkey
    have hnowhere : ∀ c ∈ s.enclosing s.current, s.findIn c name = none :=
      fun _ _ => h.findIn_of_key? hkey
    rw [List.findSome?_eq_none_iff.2 hnowhere]
  · rename_i hkey
    rw [h.current, h.size_scopes]
    exact h.findFrom hs hkey _ hs.ordered.current_lt _ (Nat.le_of_lt_succ hs.ordered.current_lt)

end Represents

/-! ## Growth -/

/-- What is put into a scope stands behind all else in it, and nothing else
changes. -/
theorem exists_of_getElem?_put {scopes : Array Node} {home : Nat} {item : NodeItem} {n : Node}
    (hn : (scopes.modify home fun n => { n with items := n.items.push item })[id]? = some n) :
    ∃ m, scopes[id]? = some m ∧ n.parent = m.parent ∧
      n.items.toList = m.items.toList ++ if home = id then [item] else [] := by
  rw [Array.getElem?_modify] at hn
  split at hn
  · rename_i hhome
    obtain ⟨m, hm, rfl⟩ := Option.map_eq_some_iff.1 hn
    exact ⟨m, hm, rfl, by rw [if_pos hhome, Array.toList_push]⟩
  · rename_i hhome
    exact ⟨n, hn, rfl, by rw [if_neg hhome, List.append_nil]⟩

namespace Represents

/-- A node with one more item for one more member. -/
theorem map_item_append {ms : List Member} {m : Member} {items : List NodeItem} {home : Nat}
    (h : items = ms.map Member.item) : items ++ (if home = id then [m.item] else []) =
      (ms ++ if home = id then [m] else []).map Member.item := by
  rw [h, List.map_append]
  split <;> rfl

theorem enter (h : t.Represents s) (hs : s.Ordered) :
    ∃ u, t.enter = some (s.scopeCount, u) ∧ u.Represents s.enter := by
  have hcurrent : t.current < (t.scopes.push ⟨some t.current, #[]⟩).size := by
    rw [h.current, Array.size_push, h.size_scopes]
    exact Nat.lt_succ_of_lt hs.current_lt
  have hnode : ∀ {id n}, (t.scopes.push ⟨some t.current, #[]⟩)[id]? = some n →
      n.parent = s.enter.parent? id ∧ n.items.toList = (s.members id).map Member.item := by
    intro id n hn
    rw [Array.getElem?_push] at hn
    rw [Scopes.parent?_enter, ← h.size_scopes]
    split at hn
    · rename_i hid
      cases hn
      rw [if_pos hid, h.current, hs.members_eq_nil (Nat.le_of_eq (by rw [hid, h.size_scopes]))]
      exact ⟨rfl, rfl⟩
    · rename_i hid
      rw [if_neg hid, h.parent hn, h.items hn]
      exact ⟨rfl, rfl⟩
  rw [Arenas.enter, put_eq hcurrent, ← h.size_scopes]
  refine ⟨_, rfl, ?_⟩
  constructor
  · simp [h.size_scopes]
  · intro id n hn
    obtain ⟨m, hm, hparent, -⟩ := exists_of_getElem?_put hn
    rw [hparent, (hnode hm).1]
  · intro id n hn
    obtain ⟨m, hm, -, hitems⟩ := exists_of_getElem?_put hn
    rw [hitems, Scopes.members_enter, ← h.current, ← h.size_scopes]
    exact map_item_append (m := .scope t.scopes.size) (hnode hm).2
  · rw [Scopes.symbols_enter]
    exact h.symbols
  · exact h.key
  · exact h.size_scopes

theorem leave (h : t.Represents s) (hs : s.Ordered) :
    ∃ u, t.leave = some ((s.leave?).isSome, u) ∧ u.Represents ((s.leave?).getD s) := by
  rw [Arenas.leave, h.current, h.parentOf hs.current_lt, Scopes.leave?]
  cases hp : s.parent? s.current with
  | none => exact ⟨t, rfl, h⟩
  | some p => exact ⟨_, rfl, h.size_scopes, h.parent, h.items, h.symbols, h.key, rfl⟩

/-- A new name gets a key, and all other names keep theirs. -/
theorem key_declare (h : t.Represents s) {e : Entry κ}
    (he : e ∈ t.symbols.push ⟨(Interner.intern t.names x.name).1, t.current, x⟩) :
    Interner.key? (Interner.intern t.names x.name).2 e.symbol.name = some e.key := by
  rcases Array.mem_push.1 he with he | rfl
  · by_cases hname : e.symbol.name = x.name
    · rw [hname, Interner.key?_intern,
        Interner.intern_of_key? _ _ _ (hname ▸ h.key e he)]
    · rw [Interner.key?_intern_of_ne _ _ _ hname]
      exact h.key e he
  · exact Interner.key?_intern _ _

theorem declare [DecidableEq κ] (h : t.Represents s) (hs : s.Grown) (x : Symbol) :
    ∃ u, t.declare x = some ((s.declare? x).map fun _ => s.symbolCount, u) ∧
      u.Represents ((s.declare? x).getD s) := by
  rw [Arenas.declare, h.findHere hs]
  cases hd : s.declare? x with
  | none =>
    obtain ⟨i, hi⟩ := Scopes.declare?_eq_none_iff.1 hd
    rw [hi]
    exact ⟨t, rfl, h⟩
  | some s' =>
    have hcurrent : t.current < t.scopes.size := by
      rw [h.current, h.size_scopes]
      exact hs.ordered.current_lt
    rw [(Scopes.declare?_eq_some_iff.1 hd).1]
    refine ⟨_, by simp [put_eq, hcurrent, h.size_symbols]; rfl, ?_⟩
    constructor
    · have hparents := Scopes.parents_declare? hd
      simp [h.size_scopes, Scopes.scopeCount, hparents]
    · intro id n hn
      obtain ⟨m, hm, hparent, -⟩ := exists_of_getElem?_put hn
      rw [hparent, h.parent hm]
      exact (congrFun (Scopes.parent?_congr (Scopes.parents_declare? hd)) id).symm
    · intro id n hn
      obtain ⟨m, hm, -, hitems⟩ := exists_of_getElem?_put hn
      rw [hitems, Option.getD_some, Scopes.members_declare hd, ← h.current]
      exact map_item_append (m := .symbol s.symbolCount x) (h.items hm)
    · simp [h.symbols, h.current, Scopes.symbols_declare? hd]
    · exact fun e he => h.key_declare he
    · rw [Option.getD_some, Scopes.current_declare? hd]
      exact h.current

end Represents

/-! ## Acts -/

variable [DecidableEq κ]

/-- An act on the arenas, with its answer. -/
def act (t : Arenas ν κ) : Act → Option (Answer × Arenas ν κ)
  | .enter => t.enter.map fun r => (.entered r.1, r.2)
  | .leave => t.leave.map fun r => (.left r.1, r.2)
  | .declare x => (t.declare x).map fun r => (.declared r.1, r.2)

/-- Acts one after another, with all their answers. -/
def perform (t : Arenas ν κ) : List Act → Option (List Answer × Arenas ν κ)
  | [] => some ([], t)
  | a :: acts => do
    let (answer, u) ← t.act a
    let (answers, v) ← u.perform acts
    return (answer :: answers, v)

namespace Represents

omit [DecidableEq κ] in
theorem empty : (Arenas.empty : Arenas ν κ).Represents Scopes.empty := by
  have hnode : ∀ {id n}, (#[⟨none, #[]⟩] : Array Node)[id]? = some n → id = 0 ∧ n = ⟨none, #[]⟩ := by
    intro id n hn
    cases id with
    | zero => exact ⟨rfl, (Option.some.inj hn).symm⟩
    | succ id => simp at hn
  refine ⟨rfl, ?_, ?_, rfl, nofun, rfl⟩
  · intro id n hn
    obtain ⟨rfl, rfl⟩ := hnode hn
    rfl
  · intro id n hn
    obtain ⟨rfl, rfl⟩ := hnode hn
    rfl

/-- What one act does to the arenas and to the births. -/
theorem act (h : t.Represents s) (hs : s.Grown) (a : Act) :
    ∃ u, t.act a = some ((s.act a).1, u) ∧ u.Represents (s.act a).2 := by
  cases a with
  | enter =>
    obtain ⟨u, hu, hrep⟩ := h.enter hs.ordered
    exact ⟨u, by rw [Arenas.act, hu]; rfl, hrep⟩
  | leave =>
    obtain ⟨u, hu, hrep⟩ := h.leave hs.ordered
    refine ⟨u, ?_, ?_⟩
    · rw [Arenas.act, hu, Scopes.act]
      cases s.leave? <;> rfl
    · rw [Scopes.act]
      cases hl : s.leave? <;> simpa [hl] using hrep
  | declare x =>
    obtain ⟨u, hu, hrep⟩ := h.declare hs x
    refine ⟨u, ?_, ?_⟩
    · rw [Arenas.act, hu, Scopes.act]
      cases s.declare? x <;> rfl
    · rw [Scopes.act]
      cases hd : s.declare? x <;> simpa [hd] using hrep

/-- What acts one after another do to them. -/
theorem perform (h : t.Represents s) (hs : s.Grown) (acts : List Act) :
    ∃ u, t.perform acts = some ((actAll Scopes.act s acts).1, u) ∧ u.Represents (s.after acts) := by
  induction acts generalizing t s with
  | nil => exact ⟨t, rfl, h⟩
  | cons a acts ih =>
    obtain ⟨u, hu, hrep⟩ := h.act hs a
    obtain ⟨v, hv, hafter⟩ := ih hrep (hs.act a)
    refine ⟨v, ?_, hafter⟩
    rw [Arenas.perform, hu]
    simp [hv, actAll]

end Represents

/-! ## The law -/

/-- Both sides of what is written down twice agree, every number means
something, every search comes to an end, and everything has its line. -/
structure Orderly (t : Arenas ν κ) : Prop where
  root : t.parentOf 0 = some none
  /-- Every other scope has an older scope around it. -/
  parent : ∀ id, 0 < id → id < t.scopes.size → ∃ p < id, t.parentOf id = some (some p)
  /-- A scope stands in the scope around it, once, and in no other. -/
  child : ∀ p items, t.itemsOf p = some items → ∀ c,
    items.count (.scope c) = if t.parentOf c = some (some p) then 1 else 0
  /-- A symbol stands in the scope in which it was declared, once, and in no
  other. -/
  declared : ∀ h items, t.itemsOf h = some items → ∀ i,
    items.count (.symbol i) = if t.scopeOf i = some h then 1 else 0
  distinct : ∀ h items, t.itemsOf h = some items → ∀ i j, .symbol i ∈ items → .symbol j ∈ items →
    ∀ x y, t.symbolOf i = some x → t.symbolOf j = some y → x.name = y.name → i = j
  depth_root : t.depth 0 = some 0
  depth_child : ∀ id p, t.parentOf id = some (some p) →
    ∃ d, t.depth p = some d ∧ t.depth id = some (d + 1)
  current : t.current < t.scopes.size
  /-- Whatever is referred to is there. -/
  parent_lt : ∀ id p, t.parentOf id = some (some p) → p < t.scopes.size
  scope_lt : ∀ p items c, t.itemsOf p = some items → .scope c ∈ items → c < t.scopes.size
  symbol_lt : ∀ h items i, t.itemsOf h = some items → .symbol i ∈ items → i < t.symbols.size
  home_lt : ∀ i h, t.scopeOf i = some h → h < t.scopes.size
  /-- Every name can be looked up, in the current scope and outwards. -/
  lookups : ∀ name, (∃ r, t.findHere name = some r) ∧ ∃ r, t.find name = some r
  /-- The walk of the outline meets everything in the order of the numbers. -/
  walk : ∃ vs, t.walk = some vs ∧
    0 :: vs.filterMap (fun v => v.member.scope?) = List.range t.scopes.size ∧
    vs.filterMap (fun v => v.member.symbol?) = List.range t.symbols.size
  lines : ∃ ls : List String, t.outline = some (String.join (ls.map (· ++ "\n"))) ∧
    ls.length = t.scopes.size + t.symbols.size ∧
    ((∀ e ∈ t.symbols, ∀ n ∈ e.symbol.names, '\n' ∉ n.toList) → ∀ l ∈ ls, '\n' ∉ l.toList)

theorem scope_mem_items {p : Nat} :
    .scope c ∈ (s.members p).map Member.item ↔ s.parent? c = some p := by
  rw [← Scopes.scope_mem_members, List.mem_map]
  constructor
  · rintro ⟨m, hm, hitem⟩
    cases m <;> cases hitem
    exact hm
  · exact fun hm => ⟨_, hm, rfl⟩

theorem symbol_mem_items {home : Nat} :
    .symbol i ∈ (s.members home).map Member.item ↔ s.home? i = some home := by
  rw [← Scopes.mem_symbolsIn, Scopes.symbolsIn_eq, List.mem_map, List.mem_filterMap]
  apply exists_congr
  intro m
  cases m <;> simp [Member.item]

theorem Represents.orderly (h : t.Represents s) (hs : s.Grown) : t.Orderly := by
  have hordered := hs.ordered
  have hparent : ∀ {id p}, t.parentOf id = some (some p) ↔ s.parent? id = some p := by
    intro id p
    rw [h.parentOf_eq_some_iff, and_iff_right_of_imp]
    exact Scopes.lt_scopeCount_of_parent?
  constructor
  · exact h.parentOf (Nat.zero_lt_succ _)
  · intro id hpos hid
    rw [h.size_scopes] at hid
    obtain ⟨p, hp⟩ := Scopes.exists_parent? hpos hid
    exact ⟨p, hordered.parent_lt hp, hparent.2 hp⟩
  · intro p items hitems c
    obtain ⟨-, rfl⟩ := h.itemsOf_eq_some_iff.1 hitems
    rw [Member.count_scope, ← Scopes.children_eq, s.count_children]
    simp only [hparent]
  · intro home items hitems i
    obtain ⟨-, rfl⟩ := h.itemsOf_eq_some_iff.1 hitems
    rw [Member.count_symbol, ← Scopes.symbolsIn_eq, s.count_symbolsIn, h.scopeOf]
  · intro home items hitems i j hi hj x y hx hy hname
    obtain ⟨-, rfl⟩ := h.itemsOf_eq_some_iff.1 hitems
    rw [h.symbolOf] at hx hy
    have hi := Scopes.getElem?_symbols (symbol_mem_items.1 hi) hx
    have hj := Scopes.getElem?_symbols (symbol_mem_items.1 hj) hy
    exact hs.distinct.eq hi hj hname
  · rw [h.depth hordered (Nat.zero_lt_succ _), s.depth_zero]
  · intro id p hp
    have hp := hparent.1 hp
    have hid := Scopes.lt_scopeCount_of_parent? hp
    have hlt := Nat.lt_trans (hordered.parent_lt hp) hid
    refine ⟨_, h.depth hordered hlt, ?_⟩
    rw [h.depth hordered hid, hordered.depth_of_parent? hp]
  · rw [h.current, h.size_scopes]
    exact hordered.current_lt
  · intro id p hp
    have hp := hparent.1 hp
    rw [h.size_scopes]
    exact Nat.lt_trans (hordered.parent_lt hp) (Scopes.lt_scopeCount_of_parent? hp)
  · intro p items c hitems hc
    obtain ⟨-, rfl⟩ := h.itemsOf_eq_some_iff.1 hitems
    rw [h.size_scopes]
    exact Scopes.lt_scopeCount_of_parent? (scope_mem_items.1 hc)
  · intro home items i hitems hi
    obtain ⟨-, rfl⟩ := h.itemsOf_eq_some_iff.1 hitems
    obtain ⟨x, hx, -⟩ := Option.map_eq_some_iff.1 (symbol_mem_items.1 hi)
    rw [h.size_symbols]
    exact (List.getElem?_eq_some_iff.1 hx).1
  · intro i home hhome
    rw [h.scopeOf] at hhome
    obtain ⟨x, hx, rfl⟩ := Option.map_eq_some_iff.1 hhome
    rw [h.size_scopes]
    exact hordered.home_lt x (List.mem_of_getElem? hx)
  · exact fun name => ⟨⟨_, h.findHere hs⟩, _, h.find hs⟩
  · refine ⟨s.walk, h.walk hordered, ?_, ?_⟩
    · rw [h.size_scopes, ← hs.inOrder_eq]
      rfl
    · rw [h.size_symbols]
      exact hs.symbolsInOrder_eq
  · obtain ⟨ls, hls, hlength, hnewline⟩ := hs.exists_lines
    refine ⟨ls, ?_, ?_, ?_⟩
    · rw [h.outline hordered, hls]
    · rw [hlength, h.size_scopes, h.size_symbols]
    · intro hnames
      apply hnewline
      rw [← h.symbols, List.forall_mem_map]
      exact fun e he => hnames e (Array.mem_toList_iff.1 he)

end Arenas

/-- Whatever is done to the arenas, one act after another, can be done; it gives
the answers that the births give, and everything stays in order. -/
theorem Arenas.scopes_stay_in_order {ν κ : Type} [Interner ν κ] [DecidableEq κ]
    (acts : List Act) : ∃ t : Arenas ν κ,
      Arenas.empty.perform acts = some ((actAll Scopes.act .empty acts).1, t) ∧
        t.Represents (Scopes.empty.after acts) ∧ t.Orderly := by
  have hempty : (Arenas.empty : Arenas ν κ).Represents Scopes.empty := Represents.empty
  obtain ⟨t, ht, hrep⟩ := hempty.perform .empty acts
  exact ⟨t, ht, hrep, hrep.orderly (Scopes.grown_after acts)⟩

/-- Names in a row as the store. A name is declared in three scopes, and once
too often; all scopes are left, and the global one is not. -/
theorem three_scopes_of_one_name_are_in_order : ∃ t : Arenas (List String) Nat,
    Arenas.empty.perform [.declare ⟨"a", .function .void [⟨"a", .int⟩]⟩, .enter,
      .declare ⟨"a", .parameter .int⟩, .enter, .declare ⟨"a", .value .char⟩,
      .declare ⟨"a", .value .int⟩, .leave, .leave, .leave, .declare ⟨"b", .value .long⟩] =
      some ([.declared (some 0), .entered 1, .declared (some 1), .entered 2, .declared (some 2),
        .declared none, .left true, .left true, .left false, .declared (some 3)], t) ∧
      t.Orderly := by
  have h : ∃ t : Arenas (List String) Nat, _ := Arenas.scopes_stay_in_order
    [.declare ⟨"a", .function .void [⟨"a", .int⟩]⟩, .enter,
      .declare ⟨"a", .parameter .int⟩, .enter, .declare ⟨"a", .value .char⟩,
      .declare ⟨"a", .value .int⟩, .leave, .leave, .leave, .declare ⟨"b", .value .long⟩]
  obtain ⟨t, ht, -, horderly⟩ := h
  exact ⟨t, ht, horderly⟩

end OnePass
