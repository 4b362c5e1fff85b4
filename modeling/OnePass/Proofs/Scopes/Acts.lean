-- What can be done to scopes, one act after another, and what every table of
-- scopes is like that comes about so: a scope is younger than the scope
-- around it, and what stands in a scope came into being after it.
import Mathlib.Data.List.Basic
import OnePass.Scopes.Outline

namespace OnePass

/-! ## Acts and answers -/

/-- Something that is done to scopes. -/
inductive Act where
  | enter
  | leave
  | declare (symbol : Symbol)

/-- What an act tells: the number of the new scope, whether a scope was left,
or the number of the new symbol if its name was free. -/
inductive Answer where
  | entered (scope : Nat)
  | left (done : Bool)
  | declared (symbol : Option Nat)
deriving DecidableEq

/-- Acts one after another, with all their answers. -/
def actAll {σ : Type} (act : σ → Act → Answer × σ) : σ → List Act → List Answer × σ
  | s, [] => ([], s)
  | s, a :: acts =>
    let rest := actAll act (act s a).2 acts
    ((act s a).1 :: rest.1, rest.2)

theorem actAll_append {σ : Type} (act : σ → Act → Answer × σ) (s : σ) (acts more : List Act) :
    actAll act s (acts ++ more) =
      ((actAll act s acts).1 ++ (actAll act (actAll act s acts).2 more).1,
        (actAll act (actAll act s acts).2 more).2) := by
  induction acts generalizing s with
  | nil => rfl
  | cons a acts ih => simp [actAll, ih]

/-- The scope in which a birth takes place. -/
def Birth.place : Birth → Nat
  | .scope p => p
  | .symbol h _ => h

namespace Scopes

/-- An act on scopes, with its answer. -/
def act (s : Scopes) : Act → Answer × Scopes
  | .enter => (.entered s.scopeCount, s.enter)
  | .leave =>
    match s.leave? with
    | some t => (.left true, t)
    | none => (.left false, s)
  | .declare x =>
    match s.declare? x with
    | some t => (.declared (some s.symbolCount), t)
    | none => (.declared none, s)

/-- The scopes after some acts. -/
def after (s : Scopes) (acts : List Act) : Scopes := (actAll act s acts).2

theorem after_append (s : Scopes) (acts more : List Act) :
    s.after (acts ++ more) = (s.after acts).after more := by
  unfold after
  rw [actAll_append]

theorem leave?_eq_some_iff {s t : Scopes} :
    s.leave? = some t ↔ ∃ p, s.parent? s.current = some p ∧ t = { s with current := p } := by
  rw [leave?, Option.map_eq_some_iff]
  constructor
  · rintro ⟨p, hp, rfl⟩
    exact ⟨p, hp, rfl⟩
  · rintro ⟨p, hp, rfl⟩
    exact ⟨p, hp, rfl⟩

/-- What an act comes to. -/
theorem act_cases (s : Scopes) (a : Act) :
    (s.act a).2 = s ∨ (s.act a).2 = s.enter ∨ s.leave? = some (s.act a).2 ∨
      ∃ x, s.declare? x = some (s.act a).2 := by
  cases a with
  | enter => exact Or.inr (Or.inl rfl)
  | leave =>
    cases hl : s.leave? with
    | none => simp [act, hl]
    | some t => simp [act, hl]
  | declare x =>
    cases hd : s.declare? x with
    | none => simp [act, hd]
    | some t => exact Or.inr (Or.inr (Or.inr ⟨x, by simp [act, hd]⟩))

/-- Scopes that come about from the global one by acts. -/
inductive Grown : Scopes → Prop
  | empty : Grown empty
  | enter {s : Scopes} (h : Grown s) : Grown s.enter
  | leave {s t : Scopes} (h : Grown s) (ht : s.leave? = some t) : Grown t
  | declare {s t : Scopes} {x : Symbol} (h : Grown s) (ht : s.declare? x = some t) : Grown t

variable {s t : Scopes}

theorem Grown.act (h : s.Grown) (a : Act) : (s.act a).2.Grown := by
  rcases s.act_cases a with ht | ht | ht | ⟨x, ht⟩
  · rwa [ht]
  · rw [ht]
    exact h.enter
  · exact h.leave ht
  · exact h.declare ht

theorem Grown.after (h : s.Grown) (acts : List Act) : (s.after acts).Grown := by
  induction acts generalizing s with
  | nil => exact h
  | cons a acts ih => exact ih (h.act a)

theorem grown_after (acts : List Act) : (empty.after acts).Grown := Grown.empty.after acts

end Scopes

end OnePass
