-- A pass that hears the marks of the grammar: where a production starts and
-- ends, and where a round of a repetition does. The marks change nothing of
-- what the pass does. They tell, at each moment of a run, which productions
-- and which rounds are open, and how many tokens had been put away when each
-- of them started.
import OnePass.Analysis

namespace OnePass

/-- Something that is open, and the index of the token that was in hand when
it started. -/
structure Frame where
  site : Site
  index : Nat
deriving DecidableEq

/-! ## Descents -/

/-- A pass with marks. -/
inductive Descent (α : Type) where
  | done (result : α)
  | reject (rejection : Rejection)
  | exhausted
  | ask (move : Move) (go : move.Answer → Descent α)
  /-- A production or a round starts. -/
  | opens (site : Site) (rest : Descent α)
  /-- What was started last is over. -/
  | closes (rest : Descent α)

namespace Descent

variable {α β : Type}

/-- One descent after another. -/
def andThen : Descent α → (α → Descent β) → Descent β
  | done a, f => f a
  | reject r, _ => reject r
  | exhausted, _ => exhausted
  | ask m go, f => ask m fun x => (go x).andThen f
  | opens site rest, f => opens site (rest.andThen f)
  | closes rest, f => closes (rest.andThen f)

instance : Monad Descent where
  pure := done
  bind := andThen

theorem andThen_done (d : Descent α) : d.andThen done = d := by
  induction d with
  | ask m go ih => exact congrArg (ask m) (funext ih)
  | opens site rest ih => exact congrArg (opens site) ih
  | closes rest ih => exact congrArg closes ih
  | _ => rfl

/-- A pass in which nothing is marked. -/
def lift : Pass α → Descent α
  | .done a => done a
  | .reject r => reject r
  | .exhausted => exhausted
  | .ask m go => ask m fun x => lift (go x)

/-- Marks around a descent. -/
def within (site : Site) (d : Descent α) : Descent α :=
  opens site (d >>= fun a => closes (done a))

instance : Marking Descent := ⟨lift, within⟩

@[simp] theorem step_eq (p : Pass α) : (Marking.step p : Descent α) = lift p := rfl

@[simp] theorem within_eq (site : Site) (d : Descent α) : Marking.within site d = within site d :=
  rfl

/-- The pass without its marks. -/
def plain : Descent α → Pass α
  | done a => .done a
  | reject r => .reject r
  | exhausted => .exhausted
  | ask m go => .ask m fun x => (go x).plain
  | opens _ rest => rest.plain
  | closes rest => rest.plain

@[simp] theorem plain_pure (a : α) : (pure a : Descent α).plain = pure a := rfl

@[simp] theorem plain_exhausted : (exhausted : Descent α).plain = .exhausted := rfl

@[simp] theorem plain_bind (d : Descent α) (f : α → Descent β) :
    (d >>= f).plain = d.plain >>= fun a => (f a).plain := by
  show (d.andThen f).plain = d.plain.andThen _
  induction d with
  | ask m go ih => simp [andThen, plain, Pass.andThen, ih]
  | opens site rest ih => simp [andThen, plain, ih]
  | closes rest ih => simp [andThen, plain, ih]
  | _ => rfl

@[simp] theorem plain_lift (p : Pass α) : (lift p).plain = p := by
  induction p with
  | ask m go ih => simp [lift, plain, ih]
  | _ => rfl

@[simp] theorem plain_within (site : Site) (d : Descent α) : (within site d).plain = d.plain := by
  show (d >>= fun a => closes (done a)).plain = d.plain
  rw [plain_bind]
  exact d.plain.andThen_done

@[simp] theorem plain_ite {c : Prop} [Decidable c] (d e : Descent α) :
    (if c then d else e).plain = if c then d.plain else e.plain := apply_ite plain c d e

/-- A lifted pass goes on with lifted passes. -/
theorem lift_bind (p : Pass α) (f : α → Pass β) :
    lift (p >>= f) = lift p >>= fun a => lift (f a) := by
  show lift (p.andThen f) = (lift p).andThen _
  induction p with
  | ask m go ih => simp [Pass.andThen, lift, andThen, ih]
  | _ => rfl

end Descent

/-! ## Runs -/

/-- A run of a descent at some moment: what is still to come, where the pass
stands, how many tokens were put away, the finish not counted, and what is
open, the innermost first. So `index` is that of the token in hand. -/
structure Config (φ α : Type) where
  rest : Descent α
  stand : Stand φ
  index : Nat
  frames : List Frame

/-- The count of tokens put away after a move. -/
def Stand.indexAfter {φ : Type} (s : Stand φ) (m : Move) (i : Nat) : Nat :=
  match m with
  | .advance => if s.hand.kind = .finish then i else i + 1
  | _ => i

theorem Stand.le_indexAfter {φ : Type} (s : Stand φ) (m : Move) (i : Nat) :
    i ≤ s.indexAfter m i := by
  unfold indexAfter
  split
  · split <;> omega
  · omega

namespace Config

variable {φ α : Type} [Feed φ]

/-- One step of a run. -/
inductive Step : Config φ α → Config φ α → Prop
  | move {m : Move} {go : m.Answer → Descent α} {s t : Stand φ} {x : m.Answer} {i : Nat}
    {fs : List Frame} (h : s.perform m = .done x t) :
    Step ⟨.ask m go, s, i, fs⟩ ⟨go x, t, s.indexAfter m i, fs⟩
  | stop {m : Move} {go : m.Answer → Descent α} {s t : Stand φ} {r : Rejection} {i : Nat}
    {fs : List Frame} (h : s.perform m = .rejected r t) :
    Step ⟨.ask m go, s, i, fs⟩ ⟨.reject r, t, s.indexAfter m i, fs⟩
  | opens {site : Site} {rest : Descent α} {s : Stand φ} {i : Nat} {fs : List Frame} :
    Step ⟨.opens site rest, s, i, fs⟩ ⟨rest, s, i, ⟨site, i⟩ :: fs⟩
  | closes {rest : Descent α} {s : Stand φ} {i : Nat} {f : Frame} {fs : List Frame} :
    Step ⟨.closes rest, s, i, f :: fs⟩ ⟨rest, s, i, fs⟩

variable {c d : Config φ α}

/-- A step does not change how the pass without marks ends. -/
theorem Step.run_eq (h : Step c d) : d.rest.plain.run d.stand = c.rest.plain.run c.stand := by
  cases h with
  | move h | stop h => simp [Descent.plain, h]
  | opens | closes => rfl

/-- No run goes on for ever. -/
theorem wellFounded_step : WellFounded fun d c : Config φ α => Step c d := by
  have hreject : ∀ r s i fs, Acc (fun d c : Config φ α => Step c d) ⟨.reject r, s, i, fs⟩ := by
    intro r s i fs
    constructor
    intro d h
    cases h
  constructor
  rintro ⟨rest, s, i, fs⟩
  induction rest generalizing s i fs with
  | done a =>
    constructor
    intro d h
    cases h
  | reject r => exact hreject r s i fs
  | exhausted =>
    constructor
    intro d h
    cases h
  | ask m go ih =>
    constructor
    intro d h
    cases h with
    | move h => exact ih _ _ _ _
    | stop h => exact hreject _ _ _ _
  | opens site rest ih =>
    constructor
    intro d h
    cases h
    exact ih _ _ _
  | closes rest ih =>
    constructor
    intro d h
    cases h
    exact ih _ _ _

end Config

end OnePass
