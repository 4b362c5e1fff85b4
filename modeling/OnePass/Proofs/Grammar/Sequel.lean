-- A program behind another one. What went well in the second program on its
-- own goes well behind the first, and does the same there, up to the first
-- global name that the first program has taken.
import OnePass.Proofs.Grammar.Effects
import OnePass.Proofs.Scopes.Continue

namespace OnePass

/-! ## Global symbols -/

namespace Scopes

variable {s t u : Scopes} {x : Symbol} {bs : List Birth} {P : Symbol → Prop}

theorem globals_of_births (h : u.births = t.births ++ bs) :
    u.globals = t.globals ++ globals ⟨bs, 0⟩ := by
  unfold globals
  rw [symbols_append h, List.filter_append, List.map_append]

/-- What is born inside other scopes is not global. -/
theorem globals_of_births_inside (h : u.births = t.births ++ bs) (hbs : ∀ b ∈ bs, b.place ≠ 0) :
    u.globals = t.globals := by
  have hnil : globals ⟨bs, 0⟩ = [] := by
    unfold globals
    rw [List.map_eq_nil_iff, List.filter_eq_nil_iff]
    rintro ⟨home, y⟩ hy
    obtain ⟨b, hb, hby⟩ := List.mem_filterMap.1 hy
    cases b with
    | scope p => cases hby
    | symbol p z =>
      cases hby
      have hne : home ≠ 0 := hbs _ hb
      simpa using hne
  rw [globals_of_births h, hnil, List.append_nil]

theorem globals_enter (t : Scopes) : t.enter.globals = t.globals := by
  unfold globals
  rw [symbols_enter]

theorem globals_declare? (h : t.declare? x = some u) (hcur : t.current = 0) :
    u.globals = t.globals ++ [x] := by
  rw [globals_of_births (births_declare? h), hcur]
  rfl

/-- Inside other scopes nothing global is added. -/
theorem Adds.globals (h : t.Adds P u) (hcur : t.current ≠ 0) : u.globals = t.globals := by
  obtain ⟨bs, hbs, hp⟩ := h.births
  refine globals_of_births_inside hbs ?_
  intro b hb
  have hplace := (hp b hb).1
  have hpos : 0 < t.scopeCount := Nat.zero_lt_succ _
  omega

theorem Apart.of_globals (h : s.Apart t) (hg : u.globals = t.globals) : s.Apart u := by
  unfold Apart
  rwa [hg]

theorem Apart.concat (h : s.Apart t) (hg : u.globals = t.globals ++ [x])
    (hx : s.findIn 0 x.name = none) : s.Apart u := by
  intro y hy z hz
  rw [hg, List.mem_append, List.mem_singleton] at hz
  rcases hz with hz | rfl
  · exact h y hy z hz
  · exact findIn_zero_eq_none_iff.1 hx y hy

end Scopes

namespace Grammar

open Check

variable {α : Type} {s t u : Scopes} {P : Symbol → Prop}

/-! ## Checks behind other scopes -/

namespace Check

/-- What was found is found again. -/
theorem Calm.continuedBy {c : Check α} (h : Calm c) (hs : s.Ordered) (ht : t.Ordered)
    (ha : s.Apart t) {a : α} (hr : c.run t = .ok (a, u)) :
    c.run (s.continuedBy t) = .ok (a, s.continuedBy u) := by
  induction h generalizing t u with
  | pure b =>
    cases hr
    rfl
  | refuse v w => cases hr
  | known name v w =>
    obtain ⟨hx, rfl⟩ := run_known_eq_ok_iff.1 hr
    exact run_known_eq_ok_iff.2 ⟨hs.lookup_continuedBy ht ha hx, rfl⟩
  | bind hc hd ihc ihd =>
    obtain ⟨b, w, hb, hw⟩ := run_bind_eq_ok_iff.1 hr
    obtain rfl := hc.run hb
    rw [run_bind_of_ok (ihc ht ha hb)]
    exact ihd b ht ha hw

theorem run_within_continuedBy {c : Check Unit}
    (h : ∀ v, c.run t.enter = .ok ((), v) →
      c.run (s.continuedBy t.enter) = .ok ((), s.continuedBy v))
    (hr : (within c).run t = .ok ((), u)) :
    (within c).run (s.continuedBy t) = .ok ((), s.continuedBy u) := by
  obtain ⟨v, hv, rfl⟩ := run_within_eq_ok_iff.1 hr
  refine run_within_eq_ok_iff.2 ⟨s.continuedBy v, ?_, ?_⟩
  · rw [Scopes.enter_continuedBy]
    exact h v hv
  · rw [Scopes.leave?_continuedBy]
    cases v.leave? <;> rfl

/-- Inside a scope all names are as free as they were. -/
theorem Steady.continuedBy {c : Check α} (h : Steady P c) (hs : s.Ordered) (ht : t.Grown)
    (hcur : t.current ≠ 0) (ha : s.Apart t) {a : α} (hr : c.run t = .ok (a, u)) :
    c.run (s.continuedBy t) = .ok (a, s.continuedBy u) := by
  induction h generalizing t u with
  | calm h => exact h.continuedBy hs ht.ordered ha hr
  | @declare x hx w =>
    have hd := run_declare_eq_ok_iff.1 hr
    exact run_declare_eq_ok_iff.2 (hs.declare?_continuedBy hd fun hzero => absurd hzero hcur)
  | within _ ih =>
    refine run_within_continuedBy ?_ hr
    intro v hv
    exact ih ht.enter (Nat.succ_ne_zero _) (ha.of_globals t.globals_enter) hv
  | bind hc hd ihc ihd =>
    obtain ⟨b, w, hb, hw⟩ := run_bind_eq_ok_iff.1 hr
    have hadds := hc.adds hb
    rw [run_bind_of_ok (ihc ht hcur ha hb)]
    refine ihd b (hc.grown hb ht) ?_ (ha.of_globals (hadds.globals hcur)) hw
    rwa [hadds.current]

end Check

/-! ## The globals of a program -/

namespace Program

variable {x y : Program} {g : Global} {gs : List Global}

/-- What is looked at behind a global name adds nothing global. -/
theorem run_rest (hg : g ∈ x.globalNames) (hcur : t.current = 0)
    (hr : g.rest.run t = .ok ((), u)) : u.current = 0 ∧ u.globals = t.globals := by
  rcases x.global_cases hg with ⟨-, hrest⟩ | ⟨f, rfl⟩
  · rw [hrest.run hr]
    exact ⟨hcur, rfl⟩
  · obtain ⟨v, hv, rfl⟩ := run_within_eq_ok_iff.1 hr
    have hadds := f.steady_inside.adds hv
    rw [hadds.leave?_of_enter]
    exact ⟨hcur, (hadds.globals (Nat.succ_ne_zero _)).trans t.globals_enter⟩

theorem run_global (hg : g ∈ x.globalNames) (hcur : t.current = 0)
    (hr : g.check.run t = .ok ((), u)) :
    u.current = 0 ∧ u.globals = t.globals ++ [g.symbol] := by
  obtain ⟨v, hd, hrest⟩ := Global.run_check_eq_ok_iff.1 hr
  obtain ⟨hu, hglobals⟩ := run_rest hg ((Scopes.current_declare? hd).trans hcur) hrest
  exact ⟨hu, hglobals.trans (Scopes.globals_declare? hd hcur)⟩

/-- The global scope gets the global names, in their order. -/
theorem run_globals (hg : ∀ g ∈ gs, g ∈ x.globalNames) (hcur : t.current = 0)
    (hr : (forM gs Global.check).run t = .ok ((), u)) :
    u.current = 0 ∧ u.globals = t.globals ++ gs.map Global.symbol := by
  induction gs generalizing t with
  | nil =>
    cases hr
    exact ⟨hcur, (List.append_nil _).symm⟩
  | cons g gs ih =>
    rw [List.forM_cons] at hr
    obtain ⟨_, v, hv, hrest⟩ := run_bind_eq_ok_iff.1 hr
    obtain ⟨hgmem, hgs⟩ := List.forall_mem_cons.1 hg
    obtain ⟨hvcur, hvglobals⟩ := run_global hgmem hcur hv
    obtain ⟨hucur, huglobals⟩ := ih hgs hvcur hrest
    refine ⟨hucur, ?_⟩
    rw [huglobals, hvglobals, List.append_assoc]
    rfl

/-- The global symbols of a program are its global names. -/
theorem globals_of_meaning (h : x.meaning = .ok s) :
    s.current = 0 ∧ s.globals = x.globalNames.map Global.symbol := by
  obtain ⟨hcur, hglobals⟩ := run_globals (fun _ hg => hg) rfl (x.meaning_eq_ok_iff.1 h)
  exact ⟨hcur, hglobals⟩

/-! ## Globals behind other scopes -/

theorem rest_continuedBy (hg : g ∈ x.globalNames) (hs : s.Ordered) (ht : t.Grown)
    (ha : s.Apart t) (hr : g.rest.run t = .ok ((), u)) :
    g.rest.run (s.continuedBy t) = .ok ((), s.continuedBy u) := by
  rcases x.global_cases hg with ⟨-, hrest⟩ | ⟨f, rfl⟩
  · exact hrest.continuedBy hs ht.ordered ha hr
  · refine run_within_continuedBy ?_ hr
    intro v hv
    exact f.steady_inside.continuedBy hs ht.enter (Nat.succ_ne_zero _)
      (ha.of_globals t.globals_enter) hv

/-- A global name goes well behind other scopes if they leave it free. -/
theorem global_continuedBy (hg : g ∈ x.globalNames) (hs : s.Ordered) (ht : t.Grown)
    (hcur : t.current = 0) (ha : s.Apart t) (hfree : s.findIn 0 g.symbol.name = none)
    (hr : g.check.run t = .ok ((), u)) :
    g.check.run (s.continuedBy t) = .ok ((), s.continuedBy u) := by
  obtain ⟨v, hd, hrest⟩ := Global.run_check_eq_ok_iff.1 hr
  have hapart := ha.concat (Scopes.globals_declare? hd hcur) hfree
  exact Global.run_check_eq_ok_iff.2 ⟨s.continuedBy v, hs.declare?_continuedBy hd fun _ => hfree,
    rest_continuedBy hg hs (ht.declare hd) hapart hrest⟩

/-- If they do not, it is turned down. -/
theorem global_of_clash (hcur : t.current = 0) (hclash : s.findIn 0 g.symbol.name ≠ none) :
    g.check.run (s.continuedBy t) = .error (.redeclared g.symbol, g.token) := by
  have hdeclare : (declare g.symbol g.token).run (s.continuedBy t) =
      .error (.redeclared g.symbol, g.token) := by
    rw [run_declare, Scopes.declare?_continuedBy_of_clash hcur hclash]
  rw [Global.check, run_bind_of_error hdeclare]

/-- The first global name that the scopes have taken is to blame. If there is
none, all goes well behind them. -/
theorem globals_continuedBy (hg : ∀ g ∈ gs, g ∈ x.globalNames) (hs : s.Ordered) (ht : t.Grown)
    (hcur : t.current = 0) (ha : s.Apart t) (hr : (forM gs Global.check).run t = .ok ((), u)) :
    (forM gs Global.check).run (s.continuedBy t) =
      match gs.find? fun g => s.findIn 0 g.symbol.name ≠ none with
      | none => .ok ((), s.continuedBy u)
      | some g => .error (.redeclared g.symbol, g.token) := by
  induction gs generalizing t with
  | nil =>
    cases hr
    rfl
  | cons g gs ih =>
    rw [List.forM_cons] at hr ⊢
    obtain ⟨_, v, hv, hrest⟩ := run_bind_eq_ok_iff.1 hr
    obtain ⟨hgmem, hgs⟩ := List.forall_mem_cons.1 hg
    by_cases hfree : s.findIn 0 g.symbol.name = none
    · obtain ⟨hvcur, hvglobals⟩ := run_global hgmem hcur hv
      have hvgrown := (x.steady_global hgmem).grown hv ht
      rw [run_bind_of_ok (global_continuedBy hgmem hs ht hcur ha hfree hv),
        List.find?_cons_of_neg (by simpa using hfree)]
      exact ih hgs hvgrown hvcur (ha.concat hvglobals hfree) hrest
    · rw [run_bind_of_error (global_of_clash hcur hfree),
        List.find?_cons_of_pos (by simpa using hfree)]

/-! ## Two programs in a row -/

/-- The declarations of one program, and then those of another. -/
def followedBy (x y : Program) : Program := ⟨x.declarations ++ y.declarations, y.stop⟩

theorem spelling_followedBy (x y : Program) :
    (x.followedBy y).spelling = x.spelling.dropLast ++ y.spelling := by
  unfold spelling followedBy
  rw [List.flatMap_append, List.dropLast_concat, List.append_assoc]

theorem globalNames_followedBy (x y : Program) :
    (x.followedBy y).globalNames = x.globalNames ++ y.globalNames :=
  List.flatMap_append

/-- Where two programs go well on their own, the second goes well behind the
first, up to the first global name that both have. -/
theorem meaning_followedBy (hx : x.meaning = .ok s) (hy : y.meaning = .ok t) :
    (x.followedBy y).meaning =
      match y.globalNames.find? fun g => s.findIn 0 g.symbol.name ≠ none with
      | none => .ok (s.continuedBy t)
      | some g => .error ⟨.meaning (.redeclared g.symbol), g.token⟩ := by
  have hs := x.grown_of_meaning hx
  have hfirst := x.meaning_eq_ok_iff.1 hx
  have hcur := (globals_of_meaning hx).1
  have hempty : s.Apart .empty := fun _ _ _ hz => nomatch hz
  have hsecond := globals_continuedBy (fun _ hg => hg) hs.ordered .empty rfl hempty
    (y.meaning_eq_ok_iff.1 hy)
  rw [Scopes.continuedBy_empty hcur] at hsecond
  have hrun : (forM (x.followedBy y).globalNames Global.check).run .empty =
      (forM y.globalNames Global.check).run s := by
    rw [globalNames_followedBy, List.forM_append, run_bind_of_ok hfirst]
  unfold meaning
  rw [Program.check_eq, hrun, hsecond]
  cases y.globalNames.find? fun g => s.findIn 0 g.symbol.name ≠ none <;> rfl

end Program

end Grammar

end OnePass
