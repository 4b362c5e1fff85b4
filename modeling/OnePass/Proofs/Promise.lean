-- What a pass keeps to on its way. A promise says what is so wherever the
-- pass stands, and how it may be turned down; a pass keeps it when each of
-- its moves does. A run that keeps a promise can be split where one pass
-- follows another.
import OnePass.Pass.Run

namespace OnePass

variable {φ α β : Type}

/-- What is asked of a pass: of every stand that it comes by, and of a
rejection and the stand at which it comes. -/
structure Promise (φ : Type) where
  stand : Stand φ → Prop
  rejection : Rejection → Stand φ → Prop

namespace Outcome

variable {P : Promise φ} {o : Outcome φ α}

/-- The pass was turned down as promised, or `Q` holds of its result. -/
def Keeps (P : Promise φ) (Q : α → Stand φ → Prop) : Outcome φ α → Prop
  | done a s => Q a s
  | rejected r s => P.rejection r s
  | exhausted _ => True

/-- What comes after an outcome may rely on it. -/
theorem Keeps.andThen {Q : α → Stand φ → Prop} {R : β → Stand φ → Prop}
    {f : α → Stand φ → Outcome φ β} (h : o.Keeps P Q) (hf : ∀ a s, Q a s → (f a s).Keeps P R) :
    (o.andThen f).Keeps P R := by
  cases o with
  | done a s => exact hf a s h
  | rejected r s => exact h
  | exhausted s => trivial

theorem Keeps.mono {Q R : α → Stand φ → Prop} (h : o.Keeps P Q)
    (hQR : ∀ a s, Q a s → R a s) : o.Keeps P R := by
  cases o with
  | done a s => exact hQR a s h
  | rejected r s => exact h
  | exhausted s => trivial

end Outcome

/-- No move runs out of a budget. -/
theorem Stand.perform_ne_exhausted [Feed φ] (s : Stand φ) (m : Move) (t : Stand φ) :
    s.perform m ≠ .exhausted t := by
  cases m with
  | advance =>
    show s.pull.settle ≠ _
    unfold settle
    split <;> simp
  | declare x =>
    show s.declare x ≠ _
    unfold declare
    split <;> simp
  | _ => nofun

namespace Pass

variable [Feed φ] {P : Promise φ}

/-- From a stand on the pass keeps the promise, and `Q` holds at its end if
it comes to one. -/
def Keeps (P : Promise φ) : Pass α → Stand φ → (α → Stand φ → Prop) → Prop
  | done a, s, Q => P.stand s ∧ Q a s
  | reject r, s, _ => P.stand s ∧ P.rejection r s
  | exhausted, s, _ => P.stand s
  | ask m go, s, Q => P.stand s ∧ (s.perform m).Keeps P fun x t => (go x).Keeps P t Q

variable {p : Pass α} {q : α → Pass β} {s : Stand φ} {Q R : α → Stand φ → Prop}

/-! ## Laws -/

theorem Keeps.stand (h : p.Keeps P s Q) : P.stand s := by
  cases p with
  | done | reject | ask => exact h.1
  | exhausted => exact h

theorem Keeps.mono (h : p.Keeps P s Q) (hQR : ∀ a t, P.stand t → Q a t → R a t) :
    p.Keeps P s R := by
  induction p generalizing s with
  | done a => exact ⟨h.1, hQR a s h.1 h.2⟩
  | reject r => exact h
  | exhausted => exact h
  | ask m go ih => exact ⟨h.1, h.2.mono fun x _ hx => ih x hx⟩

/-- Two passes in a row: the second starts where the first ends. -/
theorem Keeps.bind {Q : α → Stand φ → Prop} {R : β → Stand φ → Prop} (h : p.Keeps P s Q)
    (hq : ∀ a t, P.stand t → Q a t → (q a).Keeps P t R) : (p >>= q).Keeps P s R := by
  show (p.andThen q).Keeps P s R
  induction p generalizing s with
  | done a => exact hq a s h.1 h.2
  | reject r => exact h
  | exhausted => exact h
  | ask m go ih => exact ⟨h.1, h.2.mono fun x _ hx => ih x hx⟩

/-- A promise that every move keeps is kept by every pass. -/
theorem keeps_of_moves (hm : ∀ s m, P.stand s → (s.perform m).Keeps P fun _ t => P.stand t)
    (hr : ∀ r s, P.stand s → P.rejection r s) (p : Pass α) (hs : P.stand s) :
    p.Keeps P s fun _ _ => True := by
  induction p generalizing s with
  | done a => exact ⟨hs, trivial⟩
  | reject r => exact ⟨hs, hr r s hs⟩
  | exhausted => exact hs
  | ask m go ih => exact ⟨hs, (hm s m hs).mono fun x _ ht => ih x ht⟩

/-! ## Runs -/

/-- The end of a run. -/
theorem Keeps.run (h : p.Keeps P s Q) : (p.run s).Keeps P Q := by
  induction p generalizing s with
  | done a => exact h.2
  | reject r => exact h.2
  | exhausted => trivial
  | ask m go ih => exact h.2.andThen fun x _ hx => ih x hx

/-- A run of a pass from one stand comes by another stand. -/
inductive Visits : Pass α → Stand φ → Stand φ → Prop
  | here {p : Pass α} {s : Stand φ} : Visits p s s
  | move {m : Move} {go : m.Answer → Pass α} {s t u : Stand φ} {x : m.Answer}
    (h : s.perform m = .done x t) (hu : Visits (go x) t u) : Visits (ask m go) s u
  | stop {m : Move} {go : m.Answer → Pass α} {s t : Stand φ} {r : Rejection}
    (h : s.perform m = .rejected r t) : Visits (ask m go) s t

/-- A run ends at a stand that it comes by. -/
theorem visits_end (p : Pass α) (s : Stand φ) : Visits p s (p.run s).stand := by
  induction p generalizing s with
  | done a => exact .here
  | reject r => exact .here
  | exhausted => exact .here
  | ask m go ih =>
    rw [run_ask]
    cases h : s.perform m with
    | done x t => exact .move h (ih x t)
    | rejected r t => exact .stop h
    | exhausted t => exact absurd h (s.perform_ne_exhausted m t)

/-- The promise is kept wherever a run comes by. -/
theorem Keeps.visits {u : Stand φ} (h : p.Keeps P s Q)
    (hr : ∀ r t, P.rejection r t → P.stand t) (hu : Visits p s u) : P.stand u := by
  induction hu with
  | here => exact h.stand
  | move hm _ ih =>
    have ho := h.2
    rw [hm] at ho
    exact ih ho
  | stop hm =>
    have ho := h.2
    rw [hm] at ho
    exact hr _ _ ho

end Pass

end OnePass
