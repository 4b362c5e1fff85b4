-- What the checks of trees may do to scopes. Expressions only look at them.
-- Statements declare variables in the current scope, and open scopes of
-- their own that they close again. A program is a row of global names, each
-- with a check behind it that leaves the global scope alone.
import OnePass.Proofs.Grammar.Check
import OnePass.Proofs.Scopes.Chains

namespace OnePass

/-- A symbol that is neither a parameter nor a function. -/
def Symbol.IsVariable (x : Symbol) : Prop := ∃ type, x.role = .value type

/-! ## Additions to scopes -/

/-- The symbol that is born is of some sort. -/
def Birth.Brings (P : Symbol → Prop) : Birth → Prop
  | .scope _ => True
  | .symbol _ x => P x

namespace Scopes

/-- The current scope is current again. All that came since stands in it, or
in scopes that are new, and the symbols are of some sort. -/
structure Adds (P : Symbol → Prop) (s t : Scopes) : Prop where
  current : t.current = s.current
  births : ∃ bs, t.births = s.births ++ bs ∧
    ∀ b ∈ bs, (b.place = s.current ∨ s.scopeCount ≤ b.place) ∧ b.Brings P

variable {P : Symbol → Prop} {s t u : Scopes}

theorem scopeCount_le_of_births {bs : List Birth} (h : t.births = s.births ++ bs) :
    s.scopeCount ≤ t.scopeCount := by
  rw [scopeCount_of_parents (parents_append h)]
  exact Nat.le_add_right _ _

namespace Adds

theorem refl (s : Scopes) : s.Adds P s :=
  ⟨rfl, [], (List.append_nil _).symm, nofun⟩

theorem trans (h : s.Adds P t) (h' : t.Adds P u) : s.Adds P u := by
  obtain ⟨hc, bs, hbs, hp⟩ := h
  obtain ⟨hc', bs', hbs', hp'⟩ := h'
  refine ⟨hc'.trans hc, bs ++ bs', by rw [hbs', hbs, List.append_assoc], ?_⟩
  intro b hb
  rcases List.mem_append.1 hb with hb | hb
  · exact hp b hb
  · obtain ⟨hplace, hbrings⟩ := hp' b hb
    have hle := scopeCount_le_of_births hbs
    rw [hc] at hplace
    exact ⟨by omega, hbrings⟩

theorem declare {x : Symbol} (h : s.declare? x = some t) (hx : P x) : s.Adds P t := by
  obtain ⟨-, rfl⟩ := declare?_eq_some_iff.1 h
  refine ⟨rfl, [.symbol s.current x], rfl, ?_⟩
  intro b hb
  rw [List.mem_singleton.1 hb]
  exact ⟨Or.inl rfl, hx⟩

/-- The scope around the new one is the one that was current. -/
theorem leave?_of_enter (h : s.enter.Adds P u) :
    u.leave? = some { u with current := s.current } := by
  obtain ⟨hc, bs, hbs, -⟩ := h
  have hparent : u.parent? s.enter.current = s.enter.parent? s.enter.current := by
    apply parent?_of_parents (parents_append hbs)
    rw [current_enter, scopeCount_enter]
    exact Nat.lt_succ_self _
  rw [leave?, hc, hparent, parent?_current_enter]
  rfl

/-- What came inside a new scope came with the scope itself. -/
theorem within (h : s.enter.Adds P u) : s.Adds P { u with current := s.current } := by
  obtain ⟨-, bs, hbs, hp⟩ := h
  refine ⟨rfl, .scope s.current :: bs, ?_, ?_⟩
  · show u.births = _
    rw [hbs, births_enter, List.append_assoc]
    rfl
  · intro b hb
    rcases List.mem_cons.1 hb with rfl | hb
    · exact ⟨Or.inl rfl, trivial⟩
    · obtain ⟨hplace, hbrings⟩ := hp b hb
      rw [current_enter, scopeCount_enter] at hplace
      exact ⟨by omega, hbrings⟩

end Adds

end Scopes

namespace Grammar

open Check

variable {α β : Type} {s t : Scopes}

/-! ## Moves of a check -/

namespace Check

/-- What a name means, if it means something. -/
def known (name : String) (v : Violation) (t : Token) : Check Symbol := do
  match ← lookup name with
  | none => refuse v t
  | some x => return x

/-- A look at a name that may only go on if the name means something. -/
theorem lookup_bind {k : Option Symbol → Check α} {v : Violation} {t : Token} (name : String)
    (h : k none = refuse v t) :
    lookup name >>= k = known name v t >>= fun x => k (some x) := by
  unfold known
  rw [bind_assoc]
  refine congrArg (lookup name >>= ·) (funext fun o => ?_)
  cases o with
  | none => exact h
  | some x => rfl

theorem run_known_eq_ok_iff {name : String} {v : Violation} {w : Token} {x : Symbol} :
    (known name v w).run s = .ok (x, t) ↔ s.lookup name = some x ∧ t = s := by
  unfold known lookup
  simp only [StateT.run_bind, StateT.run_get, pure_bind]
  cases s.lookup name with
  | none =>
    constructor
    · intro h
      cases h
    · rintro ⟨h, -⟩
      cases h
  | some y =>
    constructor
    · intro h
      cases h
      exact ⟨rfl, rfl⟩
    · rintro ⟨h, rfl⟩
      cases h
      rfl

theorem run_declare (x : Symbol) (t : Token) (s : Scopes) :
    (declare x t).run s =
      match s.declare? x with
      | none => .error (.redeclared x, t)
      | some u => .ok ((), u) := by
  unfold declare
  simp only [StateT.run_bind, StateT.run_get, pure_bind]
  cases s.declare? x <;> rfl

theorem run_declare_eq_ok_iff {x : Symbol} {w : Token} :
    (declare x w).run s = .ok ((), t) ↔ s.declare? x = some t := by
  rw [run_declare]
  cases s.declare? x with
  | none => simp
  | some u => simp

theorem run_enter (s : Scopes) : enter.run s = .ok ((), s.enter) := rfl

theorem run_leave (s : Scopes) : leave.run s = .ok ((), s.leave?.getD s) := rfl

/-- A check in a scope of its own. -/
def within (c : Check Unit) : Check Unit := do
  enter
  c
  leave

/-- A check that went well did so step by step. -/
theorem run_bind_eq_ok_iff {c : Check α} {d : α → Check β} {b : β} :
    (c >>= d).run s = .ok (b, t) ↔ ∃ a u, c.run s = .ok (a, u) ∧ (d a).run u = .ok (b, t) := by
  rw [StateT.run_bind]
  cases h : c.run s with
  | error e => simp [bind, Except.bind]
  | ok r =>
    obtain ⟨a, u⟩ := r
    simp only [bind, Except.bind, Except.ok.injEq, Prod.mk.injEq]
    constructor
    · intro hd
      exact ⟨a, u, ⟨rfl, rfl⟩, hd⟩
    · rintro ⟨_, _, ⟨rfl, rfl⟩, hd⟩
      exact hd

/-- A check in a scope of its own goes well when it does inside the new scope,
and then the scope is left. -/
theorem run_within_eq_ok_iff {c : Check Unit} :
    (within c).run s = .ok ((), t) ↔ ∃ u, c.run s.enter = .ok ((), u) ∧ u.leave?.getD u = t := by
  unfold within
  simp only [run_bind_eq_ok_iff, run_enter, run_leave]
  constructor
  · rintro ⟨_, _, hu, _, u, hc, ht⟩
    cases hu
    cases ht
    exact ⟨u, hc, rfl⟩
  · rintro ⟨u, hc, rfl⟩
    exact ⟨_, _, rfl, _, u, hc, rfl⟩

/-- Nothing is done to the scopes. What is looked up has to mean something. -/
inductive Calm : {α : Type} → Check α → Prop
  | pure {α : Type} (a : α) : Calm (pure a : Check α)
  | refuse {α : Type} (v : Violation) (t : Token) : Calm (refuse v t : Check α)
  | known (name : String) (v : Violation) (t : Token) : Calm (known name v t)
  | bind {α β : Type} {c : Check α} {d : α → Check β} (hc : Calm c) (hd : ∀ a, Calm (d a)) :
    Calm (c >>= d)

/-- Only symbols of some sort are declared in the current scope, and scopes
are opened and closed. -/
inductive Steady (P : Symbol → Prop) : {α : Type} → Check α → Prop
  | calm {α : Type} {c : Check α} (h : Calm c) : Steady P c
  | declare {x : Symbol} (hx : P x) (t : Token) : Steady P (declare x t)
  | within {c : Check Unit} (h : Steady P c) : Steady P (within c)
  | bind {α β : Type} {c : Check α} {d : α → Check β} (hc : Steady P c)
    (hd : ∀ a, Steady P (d a)) : Steady P (c >>= d)

theorem Calm.demand (c : Except Violation α) (t : Token) : Calm (demand c t) := by
  cases c with
  | ok a => exact .pure a
  | error v => exact .refuse v t

theorem Calm.forM {c : β → Check Unit} {xs : List β} (h : ∀ x ∈ xs, Calm (c x)) :
    Calm (forM xs c) := by
  induction xs with
  | nil => exact .pure ()
  | cons x xs ih =>
    rw [List.forM_cons]
    exact .bind (h x List.mem_cons_self) fun _ => ih fun y hy => h y (List.mem_cons_of_mem _ hy)

variable {P Q : Symbol → Prop}

theorem Steady.forM {c : β → Check Unit} {xs : List β} (h : ∀ x ∈ xs, Steady P (c x)) :
    Steady P (forM xs c) := by
  induction xs with
  | nil => exact .calm (.pure ())
  | cons x xs ih =>
    rw [List.forM_cons]
    exact .bind (h x List.mem_cons_self) fun _ => ih fun y hy => h y (List.mem_cons_of_mem _ hy)

theorem Steady.mono {c : Check α} (h : Steady P c) (hPQ : ∀ x, P x → Q x) : Steady Q c := by
  induction h with
  | calm h => exact .calm h
  | declare hx t => exact .declare (hPQ _ hx) t
  | within _ ih => exact .within ih
  | bind _ _ ihc ihd => exact .bind ihc ihd

/-- What goes well calmly leaves the scopes as they are. -/
theorem Calm.run {c : Check α} (h : Calm c) {a : α} (hr : c.run s = .ok (a, t)) : t = s := by
  induction h generalizing s t with
  | pure b =>
    cases hr
    rfl
  | refuse v u => cases hr
  | known name v u => exact (run_known_eq_ok_iff.1 hr).2
  | bind _ _ ihc ihd =>
    obtain ⟨b, u, hc, hd⟩ := run_bind_eq_ok_iff.1 hr
    rw [ihd b hd, ihc hc]

/-- What goes well steadily adds to the scopes. -/
theorem Steady.adds {c : Check α} (h : Steady P c) {a : α} (hr : c.run s = .ok (a, t)) :
    s.Adds P t := by
  induction h generalizing s t with
  | calm h =>
    rw [h.run hr]
    exact .refl s
  | declare hx u => exact .declare (run_declare_eq_ok_iff.1 hr) hx
  | within _ ih =>
    obtain ⟨u, hu, rfl⟩ := run_within_eq_ok_iff.1 hr
    have hadds := ih hu
    rw [hadds.leave?_of_enter]
    exact hadds.within
  | bind _ _ ihc ihd =>
    obtain ⟨b, u, hc, hd⟩ := run_bind_eq_ok_iff.1 hr
    exact (ihc hc).trans (ihd b hd)

/-- Scopes that have grown go on growing. -/
theorem Steady.grown {c : Check α} (h : Steady P c) {a : α} (hr : c.run s = .ok (a, t))
    (hs : s.Grown) : t.Grown := by
  induction h generalizing s t with
  | calm h =>
    rwa [h.run hr]
  | declare _ u => exact hs.declare (run_declare_eq_ok_iff.1 hr)
  | within _ ih =>
    obtain ⟨u, hu, rfl⟩ := run_within_eq_ok_iff.1 hr
    have hu := ih hu hs.enter
    cases hl : u.leave? with
    | none => exact hu
    | some v => exact hu.leave hl
  | bind _ _ ihc ihd =>
    obtain ⟨b, u, hc, hd⟩ := run_bind_eq_ok_iff.1 hr
    exact ihd b hd (ihc hc hs)

end Check

/-! ## The checks of trees -/

mutual

theorem Primary.calm_check (x : Primary) : Calm x.check := by
  match x with
  | .name t =>
    rw [Primary.check, lookup_bind _ rfl]
    refine .bind (.known ..) fun x => ?_
    dsimp only
    split
    · exact .refuse ..
    · exact .pure _
  | .constant t =>
    rw [Primary.check]
    exact .pure _
  | .group _ x _ =>
    rw [Primary.check]
    exact x.calm_check

/-- An expression changes no scopes. -/
theorem Tiered.calm_check {tiers : List (List Operator)} (x : Tiered tiers) : Calm x.check := by
  match x with
  | .plain x =>
    rw [Tiered.check]
    exact x.calm_check
  | .signed sign x =>
    rw [Tiered.check]
    exact .bind x.calm_check fun _ => .demand ..
  | .lift x =>
    rw [Tiered.check]
    exact x.calm_check
  | .join l op r =>
    rw [Tiered.check]
    exact .bind l.calm_check fun _ => .bind r.calm_check fun _ => .demand ..

end

theorem calm_checkAssign (t : Token) (e : Expression) : Calm (checkAssign t e) := by
  rw [checkAssign, lookup_bind _ rfl]
  exact .bind (.known ..) fun _ => .bind e.calm_check fun _ => .demand ..

theorem calm_checkArguments (function : Symbol) (es : List Expression) :
    Calm (checkArguments function es) := by
  refine .forM fun x _ => ?_
  exact .bind x.1.calm_check fun _ => .demand ..

theorem calm_checkCall (t : Token) (es : List Expression) : Calm (checkCall t es) := by
  rw [checkCall, lookup_bind _ rfl]
  refine .bind (.known ..) fun f => ?_
  dsimp only
  split
  · exact .bind (calm_checkArguments f es) fun _ => .demand ..
  · exact .refuse ..

theorem Item.steady_check (type : ValueType) (i : Item) :
    Steady Symbol.IsVariable (i.check type) := by
  cases i with
  | bare t => exact .declare ⟨type, rfl⟩ _
  | valued t sign e =>
    refine .bind (.declare ⟨type, rfl⟩ _) fun _ => .calm ?_
    exact .bind e.calm_check fun _ => .demand ..

mutual

/-- A statement declares variables here, and what else it declares is inside
scopes that are closed at its end. -/
theorem Statement.steady_check (x : Statement) : Steady Symbol.IsVariable x.check := by
  match x with
  | .assign t _ e _ =>
    rw [Statement.check]
    exact .calm (calm_checkAssign t.1 e)
  | .call t _ args _ _ =>
    rw [Statement.check]
    exact .calm (calm_checkCall t.1 (argumentList args))
  | .block _ body _ =>
    rw [Statement.check]
    exact .within (steady_checkBody body)
  | .loop _ _ e _ body =>
    rw [Statement.check]
    exact .bind (.calm e.calm_check) fun _ => .bind (.calm (.demand ..)) fun _ => body.steady_check
  | .declare x =>
    rw [Statement.check]
    exact .forM fun i _ => i.steady_check _
  | .empty _ =>
    rw [Statement.check]
    exact .calm (.pure ())

theorem steady_checkBody (xs : List Statement) : Steady Symbol.IsVariable (checkBody xs) := by
  match xs with
  | [] =>
    rw [checkBody]
    exact .calm (.pure ())
  | x :: xs =>
    rw [checkBody]
    exact .bind x.steady_check fun _ => steady_checkBody xs

end

/-! ## Globals -/

/-- A global name, the token that holds it, and what is looked at after it
was declared. -/
structure Global where
  symbol : Symbol
  token : Token
  rest : Check Unit

def Global.check (g : Global) : Check Unit := do
  declare g.symbol g.token
  g.rest

/-- A global name that goes well was free, and comes first. -/
theorem Global.run_check_eq_ok_iff {g : Global} :
    g.check.run s = .ok ((), t) ↔
      ∃ u, s.declare? g.symbol = some u ∧ g.rest.run u = .ok ((), t) := by
  unfold Global.check
  rw [run_bind_eq_ok_iff]
  constructor
  · rintro ⟨_, u, hd, hrest⟩
    exact ⟨u, run_declare_eq_ok_iff.1 hd, hrest⟩
  · rintro ⟨u, hd, hrest⟩
    exact ⟨(), u, run_declare_eq_ok_iff.2 hd, hrest⟩

/-- The value of a variable is looked at when the variable is there. -/
def Item.global (type : ValueType) : Item → Global
  | .bare t => ⟨⟨t.1.text, .value type⟩, t.1, pure ()⟩
  | .valued t _ e => ⟨⟨t.1.text, .value type⟩, t.1, do
      let value ← e.check
      demand (checkAssignment ⟨t.1.text, .value type⟩ value) t.1⟩

theorem Item.check_eq (type : ValueType) (i : Item) : i.check type = (i.global type).check := by
  cases i with
  | bare t => exact (bind_pure _).symm
  | valued t sign e => rfl

theorem Item.calm_rest (type : ValueType) (i : Item) : Calm (i.global type).rest := by
  cases i with
  | bare t => exact .pure ()
  | valued t sign e => exact .bind e.calm_check fun _ => .demand ..

/-- The parameters stand in the scope of the body. -/
def Function.inside (x : Function) : Check Unit := do
  forM (parameterList x.parameters) fun p => declare ⟨p.1.name, .parameter p.1.type⟩ p.2
  checkBody x.body

/-- A function is declared before its parameters and its body are looked at. -/
def Function.global (x : Function) : Global :=
  ⟨⟨x.name.1.text, .function .void ((parameterList x.parameters).map (·.1))⟩, x.name.1,
    within x.inside⟩

theorem Function.check_eq (x : Function) : x.check = x.global.check := by
  unfold Function.check Global.check Function.global within Function.inside
  simp only [bind_assoc]

/-- Inside a function only its own scope gets anything. -/
theorem Function.steady_inside (x : Function) : Steady (fun _ => True) x.inside := by
  refine .bind (.forM fun p _ => .declare trivial _) fun _ => ?_
  exact (steady_checkBody x.body).mono fun _ _ => trivial

/-- The global names of a program, in the order in which they are declared. -/
def Declaration.globalNames : Declaration → List Global
  | .globals x => x.items.toList.map (Item.global x.word.1.kind.wordType)
  | .function x => [x.global]

theorem Declaration.check_eq (d : Declaration) : d.check = forM d.globalNames Global.check := by
  cases d with
  | globals x =>
    show forM x.items.toList (Item.check _) = forM (x.items.toList.map (Item.global _)) Global.check
    generalize x.items.toList = items
    induction items with
    | nil => rfl
    | cons i items ih => rw [List.map_cons, List.forM_cons, List.forM_cons, ih, Item.check_eq]
  | function x =>
    show x.check = forM [x.global] Global.check
    rw [x.check_eq, List.forM_cons, List.forM_nil]
    exact (bind_pure _).symm

def Program.globalNames (x : Program) : List Global := x.declarations.flatMap Declaration.globalNames

/-- A program is checked global by global. -/
theorem Program.check_eq (x : Program) :
    forM x.declarations Declaration.check = forM x.globalNames Global.check := by
  unfold Program.globalNames
  generalize x.declarations = ds
  induction ds with
  | nil => rfl
  | cons d ds ih =>
    rw [List.forM_cons, List.flatMap_cons, List.forM_append, ← d.check_eq, ih]

/-- A global name is that of a variable or that of a function. -/
theorem Program.global_cases {x : Program} {g : Global} (h : g ∈ x.globalNames) :
    (g.symbol.IsVariable ∧ Calm g.rest) ∨ ∃ f : Function, g = f.global := by
  obtain ⟨d, -, hd⟩ := List.mem_flatMap.1 h
  cases d with
  | globals x =>
    obtain ⟨i, -, rfl⟩ := List.mem_map.1 hd
    refine Or.inl ⟨?_, i.calm_rest _⟩
    cases i <;> exact ⟨_, rfl⟩
  | function f => exact Or.inr ⟨f, List.mem_singleton.1 hd⟩

theorem Program.steady_global {x : Program} {g : Global} (h : g ∈ x.globalNames) :
    Steady (fun _ => True) g.check := by
  refine .bind (.declare trivial _) fun _ => ?_
  rcases Program.global_cases h with ⟨-, hrest⟩ | ⟨f, rfl⟩
  · exact .calm hrest
  · exact .within f.steady_inside

theorem Program.meaning_eq_ok_iff {x : Program} :
    x.meaning = .ok s ↔ (forM x.globalNames Global.check).run .empty = .ok ((), s) := by
  unfold Program.meaning
  rw [x.check_eq]
  cases (forM x.globalNames Global.check).run .empty with
  | ok r => simp [Prod.ext_iff]
  | error e => simp

/-- The scopes of a program have grown. -/
theorem Program.grown_of_meaning {x : Program} (h : x.meaning = .ok s) : s.Grown :=
  (Steady.forM fun _ hg => x.steady_global hg).grown (x.meaning_eq_ok_iff.1 h) .empty

end Grammar

end OnePass
