-- The three checks of a call, each by itself, and what they leave for one
-- another: when the count of the arguments is looked at, no argument was one
-- too many, so a wrong count is too small.
import OnePass.Proofs.Grammar.Effects

namespace OnePass

/-! ## One argument -/

/-- The types of the values that a function takes. -/
def Symbol.takes (f : Symbol) : List ValueType := f.parameters.map Parameter.type

section

variable {f : Symbol} {i : Nat} {a p : ValueType}

theorem Symbol.length_takes (f : Symbol) : f.takes.length = f.parameters.length :=
  List.length_map _

theorem checkArgument_of_eq (h : f.takes[i]? = some a) : checkArgument f (i + 1) a = .ok () := by
  rw [Symbol.takes, List.getElem?_map, Option.map_eq_some_iff] at h
  obtain ⟨x, hx, rfl⟩ := h
  simp [checkArgument, hx]

theorem checkArgument_of_ne (h : f.takes[i]? = some p) (hne : p ≠ a) :
    checkArgument f (i + 1) a = .error (.unfitArgument (i + 1) f.name p a) := by
  rw [Symbol.takes, List.getElem?_map, Option.map_eq_some_iff] at h
  obtain ⟨x, hx, rfl⟩ := h
  simp [checkArgument, hx, hne]

theorem checkArgument_of_none (h : f.takes[i]? = none) (a : ValueType) :
    checkArgument f (i + 1) a = .error (.tooManyArguments f.name) := by
  rw [Symbol.takes, List.getElem?_map, Option.map_eq_none_iff] at h
  simp [checkArgument, h]

end

/-! ## Wrong counts -/

/-- If a count is wrong, then because too few values are given. -/
def Violation.CountsFew : Violation → Prop
  | wrongCount _ expected found => found < expected
  | _ => True

theorem countsFew_of_checkAssignment (x : Symbol) (a : ValueType) :
    ∀ v, checkAssignment x a = .error v → v.CountsFew := by
  intro v hv
  unfold checkAssignment at hv
  split at hv
  · cases hv
    trivial
  · split at hv <;> cases hv
    trivial

namespace Grammar

open Check

variable {α β : Type} {s t : Scopes}

namespace Check

/-- Where the check ends early and a count is wrong, it is too small. -/
def CountsFew (c : Check α) : Prop :=
  ∀ s v t, c.run s = .error (v, t) → v.CountsFew

theorem run_bind_eq_error {c : Check α} {d : α → Check β} {e : Violation × Token}
    (h : (c >>= d).run s = .error e) :
    c.run s = .error e ∨ ∃ a t, c.run s = .ok (a, t) ∧ (d a).run t = .error e := by
  cases hc : c.run s with
  | error e' =>
    rw [run_bind_of_error hc] at h
    cases h
    exact Or.inl rfl
  | ok r =>
    rw [run_bind_of_ok hc] at h
    exact Or.inr ⟨r.1, r.2, rfl, h⟩

namespace CountsFew

/-- A step that never ends the check early. -/
theorem of_ok {c : Check α} (h : ∀ s, ∃ r, c.run s = .ok r) : CountsFew c := by
  intro s v t hc
  obtain ⟨r, hr⟩ := h s
  rw [hr] at hc
  cases hc

theorem pure (a : α) : CountsFew (Pure.pure a : Check α) := of_ok fun _ => ⟨_, rfl⟩

theorem lookup (name : String) : CountsFew (lookup name) := of_ok fun _ => ⟨_, rfl⟩

theorem enter : CountsFew enter := of_ok fun _ => ⟨_, rfl⟩

theorem leave : CountsFew leave := of_ok fun _ => ⟨_, rfl⟩

theorem refuse {v : Violation} (hv : v.CountsFew) (t : Token) :
    CountsFew (refuse v t : Check α) := by
  intro s w u h
  cases h
  exact hv

theorem demand {c : Except Violation α} (hc : ∀ v, c = .error v → v.CountsFew) (t : Token) :
    CountsFew (demand c t) := by
  cases c with
  | ok a => exact pure a
  | error v => exact refuse (hc v rfl) t

theorem declare (x : Symbol) (t : Token) : CountsFew (declare x t) := by
  intro s v u h
  rw [run_declare] at h
  cases hd : s.declare? x with
  | none =>
    rw [hd] at h
    cases h
    trivial
  | some s' =>
    rw [hd] at h
    cases h

theorem bind {c : Check α} {d : α → Check β} (hc : CountsFew c) (hd : ∀ a, CountsFew (d a)) :
    CountsFew (c >>= d) := by
  intro s v t h
  rcases run_bind_eq_error h with h | ⟨a, u, -, h⟩
  · exact hc s v t h
  · exact hd a u v t h

theorem forM {c : β → Check Unit} {xs : List β} (h : ∀ x ∈ xs, CountsFew (c x)) :
    CountsFew (forM xs c) := by
  induction xs with
  | nil => exact pure ()
  | cons x xs ih =>
    rw [List.forM_cons]
    exact bind (h x List.mem_cons_self) fun _ => ih fun y hy => h y (List.mem_cons_of_mem _ hy)

end CountsFew

end Check

/-! ## Trees -/

mutual

theorem Primary.countsFew_check (x : Primary) : CountsFew x.check := by
  match x with
  | .name t =>
    rw [Primary.check]
    refine (CountsFew.lookup _).bind fun x => ?_
    cases x with
    | none => exact .refuse (by trivial) _
    | some x =>
      dsimp only
      split
      · exact .refuse (by trivial) _
      · exact .pure _
  | .constant t =>
    rw [Primary.check]
    exact .pure _
  | .group _ x _ =>
    rw [Primary.check]
    exact x.countsFew_check

theorem Tiered.countsFew_check {tiers : List (List Operator)} (x : Tiered tiers) :
    CountsFew x.check := by
  match x with
  | .plain x =>
    rw [Tiered.check]
    exact x.countsFew_check
  | .signed sign x =>
    rw [Tiered.check]
    refine x.countsFew_check.bind fun a => .demand (fun v hv => ?_) _
    unfold checkSign at hv
    split at hv <;> cases hv
    trivial
  | .lift x =>
    rw [Tiered.check]
    exact x.countsFew_check
  | .join l op r =>
    rw [Tiered.check]
    refine l.countsFew_check.bind fun a => r.countsFew_check.bind fun b => .demand (fun v hv => ?_) _
    unfold checkOperands at hv
    dsimp only at hv
    split at hv <;> cases hv
    trivial

end

/-! ## Calls -/

/-- Steps that all went well did so one by one. -/
theorem run_forM_eq_ok {c : β → Check Unit} {xs : List β} {x : β}
    (h : (forM xs c).run s = .ok ((), t)) (hx : x ∈ xs) :
    ∃ u v, (c x).run u = .ok ((), v) := by
  induction xs generalizing s with
  | nil => cases hx
  | cons y xs ih =>
    rw [List.forM_cons] at h
    obtain ⟨_, u, hy, h⟩ := run_bind_eq_ok_iff.1 h
    rcases List.mem_cons.1 hx with rfl | hx
    · exact ⟨s, u, hy⟩
    · exact ih h hx

/-- When all arguments went well, none was one too many. -/
theorem length_le_of_arguments {f : Symbol} {es : List Expression}
    (h : (checkArguments f es).run s = .ok ((), t)) : es.length ≤ f.parameters.length := by
  by_contra hlt
  obtain ⟨e, he⟩ : ∃ e, es[f.parameters.length]? = some e :=
    ⟨_, List.getElem?_eq_getElem (by omega)⟩
  have hmem : (e, f.parameters.length + 1) ∈ es.zipIdx 1 := by
    rw [List.mem_zipIdx_iff_le_and_getElem?_sub]
    exact ⟨by omega, by simpa using he⟩
  obtain ⟨u, v, hc⟩ := run_forM_eq_ok h hmem
  obtain ⟨a, w, -, hd⟩ := run_bind_eq_ok_iff.1 hc
  have hnone : f.takes[f.parameters.length]? = none :=
    List.getElem?_eq_none (Nat.le_of_eq f.length_takes)
  rw [checkArgument_of_none hnone] at hd
  cases hd

theorem countsFew_checkArguments (f : Symbol) (es : List Expression) :
    CountsFew (checkArguments f es) := by
  refine .forM fun x _ => x.1.countsFew_check.bind fun a => .demand (fun v hv => ?_) _
  unfold checkArgument at hv
  dsimp only at hv
  split at hv
  · cases hv
    trivial
  · split at hv <;> cases hv
    trivial

/-- The count is looked at when the arguments went well, so too many are not
counted any more. -/
theorem countsFew_checkCall (t : Token) (es : List Expression) : CountsFew (checkCall t es) := by
  refine (CountsFew.lookup _).bind fun f => ?_
  cases f with
  | none => exact .refuse (by trivial) _
  | some f =>
    dsimp only
    split
    · intro s v u h
      rcases run_bind_eq_error h with h | ⟨_, s', hargs, h⟩
      · exact countsFew_checkArguments f es s v u h
      · have hle := length_le_of_arguments hargs
        unfold checkCount at h
        split at h
        · cases h
        · cases h
          show es.length < f.parameters.length
          omega
    · exact .refuse (by trivial) _

theorem countsFew_checkAssign (t : Token) (e : Expression) : CountsFew (checkAssign t e) := by
  refine (CountsFew.lookup _).bind fun x => ?_
  cases x with
  | none => exact .refuse (by trivial) _
  | some x => exact e.countsFew_check.bind fun a => .demand (countsFew_of_checkAssignment x a) _

/-! ## Programs -/

theorem Item.countsFew_check (type : ValueType) (i : Item) : CountsFew (i.check type) := by
  cases i with
  | bare t => exact .declare _ _
  | valued t sign e =>
    refine (CountsFew.declare _ _).bind fun _ => ?_
    exact e.countsFew_check.bind fun a => .demand (countsFew_of_checkAssignment _ a) _

theorem Variables.countsFew_check (x : Variables) : CountsFew x.check :=
  .forM fun i _ => i.countsFew_check _

mutual

theorem Statement.countsFew_check (x : Statement) : CountsFew x.check := by
  match x with
  | .assign t _ e _ =>
    rw [Statement.check]
    exact countsFew_checkAssign t.1 e
  | .call t _ args _ _ =>
    rw [Statement.check]
    exact countsFew_checkCall t.1 (argumentList args)
  | .block _ body _ =>
    rw [Statement.check]
    exact CountsFew.enter.bind fun _ => (countsFew_checkBody body).bind fun _ => .leave
  | .loop _ _ e _ body =>
    rw [Statement.check]
    refine e.countsFew_check.bind fun a => .bind (.demand (fun v hv => ?_) _)
      fun _ => body.countsFew_check
    unfold checkCondition at hv
    split at hv <;> cases hv
    trivial
  | .declare x =>
    rw [Statement.check]
    exact x.countsFew_check
  | .empty _ =>
    rw [Statement.check]
    exact .pure ()

theorem countsFew_checkBody (xs : List Statement) : CountsFew (checkBody xs) := by
  match xs with
  | [] =>
    rw [checkBody]
    exact .pure ()
  | x :: xs =>
    rw [checkBody]
    exact x.countsFew_check.bind fun _ => countsFew_checkBody xs

end

theorem Function.countsFew_check (x : Function) : CountsFew x.check := by
  refine (CountsFew.declare _ _).bind fun _ => CountsFew.enter.bind fun _ => ?_
  refine .bind (.forM fun p _ => .declare _ _) fun _ => ?_
  exact (countsFew_checkBody x.body).bind fun _ => .leave

/-- Where a program is turned down for a wrong count, it is too small. -/
theorem Program.countsFew_meaning {x : Program} {v : Violation} {t : Token}
    (h : x.meaning = .error ⟨.meaning v, t⟩) : v.CountsFew := by
  have hc : CountsFew (forM x.declarations Declaration.check) := by
    refine .forM fun d _ => ?_
    cases d with
    | globals x => exact x.countsFew_check
    | function x => exact x.countsFew_check
  unfold Program.meaning at h
  cases hrun : (forM x.declarations Declaration.check).run .empty with
  | ok a =>
    rw [hrun] at h
    cases h
  | error e =>
    rw [hrun] at h
    cases h
    exact hc _ _ _ hrun

end Grammar

end OnePass
