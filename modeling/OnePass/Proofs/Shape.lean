-- The shape of the scopes of a program that is accepted: variables and
-- functions in the global scope, behind each function the scope of its body,
-- in that its parameters, and anywhere else variables alone.
import OnePass.Proofs.Blame
import OnePass.Proofs.Grammar.Effects
import OnePass.Proofs.Scopes.Order

namespace OnePass

open Grammar

/-! ## Shapes -/

/-- A variable, or a scope. -/
def Member.IsPlain : Member → Prop
  | .scope _ => True
  | .symbol _ x => x.IsVariable

/-- The symbol of a parameter. -/
def Parameter.symbol (p : Parameter) : Symbol := ⟨p.name, .parameter p.type⟩

namespace Scopes

/-- The scope of a body: the parameters in front, numbered from `i` on, each
with a name of its own, and nothing but variables and scopes behind them. -/
structure IsBody (s : Scopes) (c i : Nat) (ps : List Parameter) : Prop where
  members : ∃ rest, s.members c =
    (ps.zipIdx i).map (fun p => .symbol p.2 p.1.symbol) ++ rest ∧ ∀ m ∈ rest, m.IsPlain
  distinct : (ps.map Parameter.name).Nodup

/-- Variables and functions in a row. The scope of its body stands right
behind a function, and there are no other scopes. -/
inductive Globals (s : Scopes) : List Member → Prop
  | nil : s.Globals []
  | value {i : Nat} {x : Symbol} {ms : List Member} (hx : x.IsVariable) (h : s.Globals ms) :
    s.Globals (.symbol i x :: ms)
  | function {i c : Nat} {name : String} {ps : List Parameter} {ms : List Member}
    (body : s.IsBody c (i + 1) ps) (h : s.Globals ms) :
    s.Globals (.symbol i ⟨name, .function .void ps⟩ :: .scope c :: ms)

/-- Functions and parameters stand only where they should. -/
structure Shaped (s : Scopes) : Prop where
  current : s.current = 0
  globals : s.Globals (s.members 0)
  /-- What is in neither the global scope nor the scope of a body. -/
  inner : ∀ id, id ≠ 0 → s.parent? id ≠ some 0 → ∀ m ∈ s.members id, m.IsPlain

variable {s t u : Scopes} {c i : Nat} {ps : List Parameter} {ms ns : List Member}

theorem Globals.append (hm : s.Globals ms) (hn : s.Globals ns) : s.Globals (ms ++ ns) := by
  induction hm with
  | nil => exact hn
  | value hx _ ih => exact .value hx ih
  | function body _ ih => exact .function body ih

/-- Only the scopes of the bodies play a part. -/
theorem Globals.mono (hm : s.Globals ms)
    (h : ∀ c, .scope c ∈ ms → t.members c = s.members c) : t.Globals ms := by
  induction hm with
  | nil => exact .nil
  | value hx _ ih => exact .value hx (ih fun c hc => h c (List.mem_cons_of_mem _ hc))
  | @function i c name ps ms body _ ih =>
    have hbody : t.members c = s.members c := h c (by simp)
    refine .function ⟨?_, body.distinct⟩ (ih fun c hc => h c (by simp [hc]))
    rw [hbody]
    exact body.members

/-! ## The births of a function -/

/-- The births of parameters in a scope. -/
def parameterBirths (c : Nat) (ps : List Parameter) : List Birth :=
  ps.map fun p => .symbol c p.symbol

theorem numbered_parameterBirths (i j c : Nat) (ps : List Parameter) :
    numbered i j (parameterBirths c ps) =
      (ps.zipIdx j).map fun p => (c, .symbol p.2 p.1.symbol) := by
  induction ps generalizing j with
  | nil => rfl
  | cons p ps ih =>
    rw [List.zipIdx_cons, List.map_cons, ← ih]
    rfl

theorem exists_birth {i j : Nat} {bs : List Birth} {q : Nat × Member}
    (h : q ∈ numbered i j bs) :
    ∃ b ∈ bs, b.place = q.1 ∧ (b.Brings Symbol.IsVariable → q.2.IsPlain) := by
  induction bs generalizing i j with
  | nil => cases h
  | cons b bs ih =>
    have hrest : ∀ {i j}, q ∈ numbered i j bs →
        ∃ b' ∈ b :: bs, b'.place = q.1 ∧ (b'.Brings Symbol.IsVariable → q.2.IsPlain) := by
      intro i j hq
      obtain ⟨b', hb', hq'⟩ := ih hq
      exact ⟨b', List.mem_cons_of_mem _ hb', hq'⟩
    cases b with
    | scope p =>
      rcases List.mem_cons.1 h with rfl | h
      · exact ⟨_, List.mem_cons_self, rfl, fun _ => trivial⟩
      · exact hrest h
    | symbol p x =>
      rcases List.mem_cons.1 h with rfl | h
      · exact ⟨_, List.mem_cons_self, rfl, id⟩
      · exact hrest h

/-- A function in the global scope, with its parameters and what is in its
body. -/
structure Gains (s t : Scopes) (name : String) (ps : List Parameter) (bs : List Birth) :
    Prop where
  births : t.births = s.births ++ .symbol 0 ⟨name, .function .void ps⟩ :: .scope 0 ::
    (parameterBirths s.scopeCount ps ++ bs)
  inside : ∀ b ∈ bs, s.scopeCount ≤ b.place ∧ b.Brings Symbol.IsVariable

namespace Gains

variable {name : String} {bs : List Birth}

/-- What the body brings to a scope. -/
def found (s : Scopes) (ps : List Parameter) (bs : List Birth) (id : Nat) : List Member :=
  (numbered (s.scopeCount + 1) (s.symbolCount + 1 + ps.length) bs).filterMap fun m =>
    if m.1 = id then some m.2 else none

theorem members (h : s.Gains t name ps bs) (id : Nat) :
    t.members id = s.members id ++
      ((if 0 = id then
          [.symbol s.symbolCount ⟨name, .function .void ps⟩, .scope s.scopeCount] else []) ++
        ((if s.scopeCount = id then
          (ps.zipIdx (s.symbolCount + 1)).map fun p => .symbol p.2 p.1.symbol else []) ++
          found s ps bs id)) := by
  have hsymbols : (symbols ⟨parameterBirths s.scopeCount ps, 0⟩).length = ps.length := by
    simp [parameterBirths, symbols, List.filterMap_map]
  have hparents : (parents ⟨parameterBirths s.scopeCount ps, 0⟩).length = 0 := by
    simp [parameterBirths, parents]
  have hparams : ((ps.zipIdx (s.symbolCount + 1)).map fun p =>
      (s.scopeCount, Member.symbol p.2 p.1.symbol)).filterMap
        (fun m => if m.1 = id then some m.2 else none) =
      if s.scopeCount = id then
        (ps.zipIdx (s.symbolCount + 1)).map fun p => .symbol p.2 p.1.symbol else [] := by
    by_cases hid : s.scopeCount = id <;> simp [hid, List.filterMap_map]
  rw [members_append h.births, numbered, numbered, numbered_append, numbered_parameterBirths,
    hsymbols, hparents, Nat.add_zero]
  rcases eq_or_ne 0 id with rfl | hid
  · simp [hparams, found]
  · simp [hid, hparams, found]

theorem plain_found (h : s.Gains t name ps bs) {id : Nat} :
    ∀ m ∈ found s ps bs id, s.scopeCount ≤ id ∧ m.IsPlain := by
  intro m hm
  obtain ⟨q, hq, hqm⟩ := List.mem_filterMap.1 hm
  obtain ⟨b, hb, hplace, hplain⟩ := exists_birth hq
  obtain ⟨hle, hbrings⟩ := h.inside b hb
  split at hqm
  · cases hqm
    exact ⟨by omega, hplain hbrings⟩
  · cases hqm

theorem found_eq_nil (h : s.Gains t name ps bs) {id : Nat} (hid : id < s.scopeCount) :
    found s ps bs id = [] := by
  rw [List.eq_nil_iff_forall_not_mem]
  intro m hm
  have hle := (h.plain_found m hm).1
  omega

end Gains

/-! ## Growth in shape -/

theorem shaped_empty : empty.Shaped := ⟨rfl, .nil, nofun⟩

/-- A variable in the global scope. -/
theorem Shaped.declare {x : Symbol} (hs : s.Shaped) (hx : x.IsVariable)
    (ht : s.declare? x = some t) : t.Shaped := by
  have hm := members_declare ht
  have hinner : ∀ id, id ≠ 0 → t.members id = s.members id := by
    intro id hid
    rw [hm, hs.current, if_neg (Ne.symm hid), List.append_nil]
  refine ⟨(current_declare? ht).trans hs.current, ?_, ?_⟩
  · have hold : t.Globals (s.members 0) := by
      refine hs.globals.mono fun c hc => hinner c ?_
      rintro rfl
      cases scope_mem_members.1 hc
    rw [hm, hs.current, if_pos rfl]
    exact hold.append (.value hx .nil)
  · intro id hid hp
    rw [parent?_congr (parents_declare? ht)] at hp
    rw [hinner id hid]
    exact hs.inner id hid hp

/-- The parameters of a function do not share names. -/
theorem Gains.distinct {name : String} {bs : List Birth} (h : s.Gains t name ps bs)
    (ht : t.Distinct) : (ps.map Parameter.name).Nodup := by
  have hsymbols : t.symbols = s.symbols ++ (0, ⟨name, .function .void ps⟩) ::
      (ps.map (fun p => (s.scopeCount, p.symbol)) ++ symbols ⟨bs, 0⟩) := by
    rw [symbols_append h.births, symbols_cons_symbol, symbols_cons_scope]
    simp [parameterBirths, symbols, List.filterMap_map]
  have hsub : (ps.map fun p => (s.scopeCount, p.symbol)).Sublist t.symbols := by
    rw [hsymbols]
    refine .trans ?_ (List.sublist_append_right _ _)
    exact .trans (List.sublist_append_left _ _) (List.sublist_cons_self _ _)
  have hpairs := List.pairwise_map.1 (List.Pairwise.sublist hsub ht)
  exact List.pairwise_map.2 (hpairs.imp fun hne => hne rfl)

/-- A function in the global scope, and the scope of its body. -/
theorem Shaped.gains {name : String} {bs : List Birth} (hs : s.Shaped) (ho : s.Ordered)
    (h : s.Gains t name ps bs) (hd : t.Distinct) (hcur : t.current = 0) : t.Shaped := by
  have hpos : 0 < s.scopeCount := Nat.zero_lt_succ _
  have hold : ∀ id, id ≠ 0 → id < s.scopeCount → t.members id = s.members id := by
    intro id hid hlt
    rw [h.members, if_neg (Ne.symm hid), if_neg (by omega), h.found_eq_nil hlt]
    simp
  have hbody : t.IsBody s.scopeCount (s.symbolCount + 1) ps := by
    refine ⟨⟨Gains.found s ps bs s.scopeCount, ?_, fun m hm => (h.plain_found m hm).2⟩,
      h.distinct hd⟩
    rw [h.members, ho.members_eq_nil (Nat.le_refl _), if_neg (by omega), if_pos rfl]
    rfl
  refine ⟨hcur, ?_, ?_⟩
  · have hglobals : t.Globals (s.members 0) := by
      refine hs.globals.mono fun c hc => ?_
      have hp := scope_mem_members.1 hc
      exact hold c (Nat.ne_of_gt (ho.parent_lt hp)) (lt_scopeCount_of_parent? hp)
    rw [h.members, if_pos rfl, if_neg (by omega), h.found_eq_nil hpos]
    exact hglobals.append (.function hbody .nil)
  · intro id hid hp m hm
    have hparents : t.parents = s.parents ++ 0 :: parents ⟨bs, 0⟩ := by
      rw [parents_append h.births, parents_cons_symbol, parents_cons_scope]
      simp [parameterBirths, parents, List.filterMap_map]
    rcases Nat.lt_trichotomy id s.scopeCount with hlt | rfl | hgt
    · rw [parent?_of_parents hparents hlt] at hp
      rw [hold id hid hlt] at hm
      exact hs.inner id hid hp m hm
    · -- This scope is the body, which stands in the global one.
      refine absurd ?_ hp
      show t.parents[s.parents.length]? = some 0
      rw [hparents]
      simp
    · rw [h.members, ho.members_eq_nil (by omega), if_neg (Ne.symm hid), if_neg (by omega)] at hm
      exact (h.plain_found m hm).2

/-! ## The checks -/

/-- Parameters that can all be declared come one after another. -/
theorem births_of_parameters {xs : List (Parameter × Token)}
    (h : (forM xs fun p => Check.declare ⟨p.1.name, .parameter p.1.type⟩ p.2).run s = .ok ((), t)) :
    t.current = s.current ∧ t.births = s.births ++ parameterBirths s.current (xs.map (·.1)) := by
  induction xs generalizing s with
  | nil =>
    cases h
    exact ⟨rfl, (List.append_nil _).symm⟩
  | cons p xs ih =>
    rw [List.forM_cons] at h
    obtain ⟨_, u, hp, hxs⟩ := Check.run_bind_eq_ok_iff.1 h
    obtain ⟨-, rfl⟩ := declare?_eq_some_iff.1 (Check.run_declare_eq_ok_iff.1 hp)
    obtain ⟨hcur, hbirths⟩ := ih hxs
    refine ⟨hcur, ?_⟩
    rw [hbirths]
    simp [parameterBirths, Parameter.symbol]

/-- A function that goes well is gained. -/
theorem exists_gains (f : Function) (hcur : s.current = 0)
    (h : f.global.check.run s = .ok ((), t)) :
    t.current = 0 ∧ ∃ name ps bs, s.Gains t name ps bs := by
  obtain ⟨u, hd, hrest⟩ := Global.run_check_eq_ok_iff.1 h
  have hcount : u.scopeCount = s.scopeCount := congrArg (·.length + 1) (parents_declare? hd)
  obtain ⟨v, hinside, hleave⟩ := Check.run_within_eq_ok_iff.1 hrest
  rw [(f.steady_inside.adds hinside).leave?_of_enter] at hleave
  obtain ⟨_, w, hparams, hbody⟩ := Check.run_bind_eq_ok_iff.1 hinside
  obtain ⟨hwcur, hw⟩ := births_of_parameters hparams
  rw [current_enter, hcount] at hwcur hw
  obtain ⟨-, bs, hbs, hplace⟩ := (steady_checkBody f.body).adds hbody
  refine ⟨?_, f.name.1.text, (parameterList f.parameters).map (·.1), bs, ?_, ?_⟩
  · rw [← hleave]
    exact (current_declare? hd).trans hcur
  · obtain ⟨-, rfl⟩ := declare?_eq_some_iff.1 hd
    rw [← hleave]
    show v.births = _
    rw [hbs, hw, enter, hcur]
    simp [Function.global]
  · intro b hb
    obtain ⟨hp, hbrings⟩ := hplace b hb
    have hle := scopeCount_le_of_births hw
    rw [scopeCount_enter, hcount] at hle
    rw [hwcur] at hp
    exact ⟨by omega, hbrings⟩

/-- A global name keeps the scopes in shape. -/
theorem Shaped.global {x : Program} {g : Global} (hs : s.Shaped) (hg : s.Grown)
    (hmem : g ∈ x.globalNames) (h : g.check.run s = .ok ((), t)) : t.Shaped := by
  have ht := (x.steady_global hmem).grown h hg
  rcases x.global_cases hmem with ⟨hx, hrest⟩ | ⟨f, rfl⟩
  · obtain ⟨u, hd, hu⟩ := Global.run_check_eq_ok_iff.1 h
    rw [hrest.run hu]
    exact hs.declare hx hd
  · obtain ⟨hcur, name, ps, bs, hgains⟩ := exists_gains f hs.current h
    exact hs.gains hg.ordered hgains ht.distinct hcur

/-- So do all of them, one after another. -/
theorem Shaped.globalNames {x : Program} {gs : List Global} (hs : s.Shaped) (hg : s.Grown)
    (hmem : ∀ g ∈ gs, g ∈ x.globalNames) (h : (forM gs Global.check).run s = .ok ((), t)) :
    t.Shaped := by
  induction gs generalizing s with
  | nil =>
    cases h
    exact hs
  | cons g gs ih =>
    rw [List.forM_cons] at h
    obtain ⟨_, u, hu, ht⟩ := Check.run_bind_eq_ok_iff.1 h
    obtain ⟨hgmem, hmem⟩ := List.forall_mem_cons.1 hmem
    exact ih (hs.global hg hgmem hu) ((x.steady_global hgmem).grown hu hg) hmem ht

/-! ## The law -/

/-- A scope among the globals is that of a body. -/
theorem Globals.exists_isBody (hm : s.Globals ms) (hc : .scope c ∈ ms) :
    ∃ i name ps, .symbol i ⟨name, .function .void ps⟩ ∈ ms ∧ s.IsBody c (i + 1) ps := by
  induction hm with
  | nil => cases hc
  | value hx _ ih =>
    obtain ⟨i, name, ps, hmem, hbody⟩ := ih (List.mem_of_ne_of_mem (by simp) hc)
    exact ⟨i, name, ps, List.mem_cons_of_mem _ hmem, hbody⟩
  | @function i d name ps ms body _ ih =>
    rcases eq_or_ne c d with rfl | hne
    · exact ⟨i, name, ps, List.mem_cons_self, body⟩
    · obtain ⟨i, name, ps, hmem, hbody⟩ := ih (by simpa [hne] using hc)
      exact ⟨i, name, ps, List.mem_cons_of_mem _ (List.mem_cons_of_mem _ hmem), hbody⟩

theorem Member.IsPlain.not_isFunction {x : Symbol} (h : (Member.symbol i x).IsPlain) :
    x.role.isFunction = false := by
  obtain ⟨type, htype⟩ := h
  rw [htype]
  rfl

/-- The functions among the globals give nothing back. -/
theorem Globals.type_of_isFunction {x : Symbol} (hm : s.Globals ms) (hmem : .symbol i x ∈ ms)
    (hx : x.role.isFunction = true) : x.type = .void := by
  induction hm with
  | nil => cases hmem
  | value hvar _ ih =>
    rcases List.mem_cons.1 hmem with heq | hmem
    · obtain ⟨type, htype⟩ := hvar
      cases heq
      rw [htype] at hx
      cases hx
    · exact ih hmem
  | function _ _ ih =>
    rcases List.mem_cons.1 hmem with heq | hmem
    · cases heq
      rfl
    · exact ih (by simpa using hmem)

/-- Functions stand in the global scope only. -/
theorem Shaped.eq_zero_of_isFunction (hs : s.Shaped) {home : Nat} {x : Symbol}
    (hm : .symbol i x ∈ s.members home) (hx : x.role.isFunction = true) : home = 0 := by
  by_contra hhome
  have hplain : ¬(Member.symbol i x).IsPlain := by
    intro h
    rw [Member.IsPlain.not_isFunction h] at hx
    cases hx
  by_cases hp : s.parent? home = some 0
  · obtain ⟨j, name, ps, -, hbody⟩ := hs.globals.exists_isBody (scope_mem_members.2 hp)
    obtain ⟨rest, hrest, hall⟩ := hbody.members
    rw [hrest] at hm
    rcases List.mem_append.1 hm with hm | hm
    · obtain ⟨p, -, hpx⟩ := List.mem_map.1 hm
      cases hpx
      cases hx
    · exact hplain (hall _ hm)
  · exact hplain (hs.inner home hhome hp _ hm)

/-- The scopes of a program that is accepted have the shape of a program. Its
functions, which give nothing back, all stand in the global scope. -/
theorem accepted_scopes_are_shaped {source : String} {scopes : Scopes}
    (h : (analyze source).verdict = .ok scopes) :
    scopes.Shaped ∧
      ∀ home i x, .symbol i x ∈ scopes.members home → x.role.isFunction = true →
        home = 0 ∧ x.type = .void := by
  rw [← examine_reel] at h
  obtain ⟨x, -, hx⟩ := exists_program_of_ok h
  have hshaped := shaped_empty.globalNames .empty (fun _ hg => hg) (x.meaning_eq_ok_iff.1 hx)
  refine ⟨hshaped, ?_⟩
  intro home i y hm hy
  obtain rfl := hshaped.eq_zero_of_isFunction hm hy
  exact ⟨rfl, hshaped.globals.type_of_isFunction hm hy⟩

/-- A block inside a body that comes before a variable of the body. -/
theorem a_body_with_a_block_is_shaped :
    let source := "int a; void f(int x, double y) { { int x; } int z; } int b;"
    let scopes : Scopes :=
      ⟨[.symbol 0 ⟨"a", .value .int⟩,
        .symbol 0 ⟨"f", .function .void [⟨"x", .int⟩, ⟨"y", .double⟩]⟩, .scope 0,
        .symbol 1 ⟨"x", .parameter .int⟩, .symbol 1 ⟨"y", .parameter .double⟩, .scope 1,
        .symbol 2 ⟨"x", .value .int⟩, .symbol 1 ⟨"z", .value .int⟩, .symbol 0 ⟨"b", .value .int⟩],
        0⟩
    (analyze source).verdict = .ok scopes ∧ scopes.Shaped := by
  intro source scopes
  have h : (analyze source).verdict = .ok scopes := by decide +kernel
  exact ⟨h, (accepted_scopes_are_shaped h).1⟩

end Scopes

end OnePass
