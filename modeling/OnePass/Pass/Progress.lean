-- Progress: the number of tokens left never grows over a run, and goes down
-- when a token other than the finish is put away. A pass that puts one away
-- before it goes on needs a smaller budget for the rest.
import OnePass.Pass.Marks
import OnePass.Pass.Run

namespace OnePass

/-! ## Tokens left -/

namespace Stand

variable {φ : Type} [Feed φ]

/-- A bound on the tokens left before the finish, the one in hand
included. -/
def left (s : Stand φ) : Nat :=
  Feed.left s.feed + if s.hand.kind = .finish then 0 else 1

@[simp] theorem left_note (s : Stand φ) (e : Event) : (s.note e).left = s.left := rfl

@[simp] theorem left_noteRead (s : Stand φ) (t : Token) : (s.noteRead t).left = s.left := by
  unfold noteRead
  split <;> rfl

theorem left_pull (s : Stand φ) : s.pull.left ≤ Feed.left s.feed := by
  unfold pull
  rw [left_noteRead]
  show Feed.left (Feed.next s.feed).2 + (if (Feed.next s.feed).1.kind = .finish then 0 else 1) ≤ _
  split
  · rw [Feed.left_finish s.feed ‹_›]; omega
  · have := Feed.left_next s.feed ‹_›; omega

omit [Feed φ] in
@[simp] theorem stand_settle (s : Stand φ) : s.settle.stand = s := by
  unfold settle
  split <;> rfl

@[simp] theorem stand_advance (s : Stand φ) : s.advance.stand = s.pull := by
  simp [advance]

/-- Taking a token never gives a new one. -/
theorem left_advance_le (s : Stand φ) : s.advance.stand.left ≤ s.left := by
  rw [stand_advance]
  exact Nat.le_trans s.left_pull (Nat.le_add_right ..)

/-- Putting a token away that is not the finish leaves fewer. -/
theorem left_advance_lt {s : Stand φ} (h : s.hand.kind ≠ .finish) :
    s.advance.stand.left < s.left := by
  have : s.left = Feed.left s.feed + 1 := by rw [left, if_neg h]
  rw [stand_advance, this]
  exact Nat.lt_succ_of_le s.left_pull

@[simp] theorem left_peek (s : Stand φ) : s.peek.stand.left = s.left := by
  simp only [peek, Outcome.stand, left_noteRead, Feed.peek_eq]

@[simp] theorem left_enter (s : Stand φ) : s.enter.left = s.left := rfl

@[simp] theorem left_leave (s : Stand φ) : s.leave.left = s.left := by
  unfold leave
  split <;> rfl

@[simp] theorem left_declare (s : Stand φ) (x : Symbol) : (s.declare x).stand.left = s.left := by
  unfold declare
  split <;> rfl

theorem left_perform_le (s : Stand φ) (m : Move) : (s.perform m).stand.left ≤ s.left := by
  cases m with
  | hand | lookup => exact Nat.le_refl _
  | advance => exact s.left_advance_le
  | peek => exact Nat.le_of_eq s.left_peek
  | enter => exact Nat.le_of_eq s.left_enter
  | leave => exact Nat.le_of_eq s.left_leave
  | declare x => exact Nat.le_of_eq (s.left_declare x)
  | headed => exact Nat.le_of_eq (s.left_note _)

end Stand

/-- The tokens left do not grow over a run that follows another. -/
theorem Outcome.left_andThen_le {φ α β : Type} [Feed φ] {o : Outcome φ α}
    {f : α → Stand φ → Outcome φ β} (h : ∀ a s, (f a s).stand.left ≤ s.left) :
    (o.andThen f).stand.left ≤ o.stand.left := by
  cases o with
  | done a s => exact h a s
  | rejected => exact Nat.le_refl _
  | exhausted => exact Nat.le_refl _

/-- No pass makes tokens. -/
theorem Pass.left_run_le {φ α : Type} [Feed φ] (p : Pass α) (s : Stand φ) :
    (p.run s).stand.left ≤ s.left := by
  induction p generalizing s with
  | done a => exact Nat.le_refl _
  | reject r => exact Nat.le_refl _
  | exhausted => exact Nat.le_refl _
  | ask m go ih =>
    exact Nat.le_trans (Outcome.left_andThen_le fun x s => ih x s) (s.left_perform_le m)

namespace Pass

/-! ## Progress -/

/-- When the pass gives a result, it has put a token away. -/
def Consumes {α : Type} (p : Pass α) : Prop :=
  ∀ (φ : Type) [Feed φ] (s : Stand φ) (a : α) (s' : Stand φ),
    p.run s = .done a s' → s'.left < s.left

/-- The pass does not run out of budget while fewer than `n` tokens are
left. -/
def Suffices {α : Type} (p : Pass α) (n : Nat) : Prop :=
  ∀ (φ : Type) [Feed φ] (s : Stand φ), s.left < n → ∀ s', p.run s ≠ .exhausted s'

variable {α β : Type}

theorem left_le_of_run {φ : Type} [Feed φ] {p : Pass α} {s s' : Stand φ} {a : α}
    (h : p.run s = .done a s') : s'.left ≤ s.left := by
  have := p.left_run_le s
  rwa [h] at this

theorem run_bind_done {φ : Type} [Feed φ] {p : Pass α} {f : α → Pass β} {s s' : Stand φ} {b : β}
    (h : (p >>= f).run s = .done b s') :
    ∃ a t, p.run s = .done a t ∧ (f a).run t = .done b s' := by
  rw [run_bind] at h
  match hp : p.run s with
  | .done a t => rw [hp] at h; exact ⟨a, t, rfl, h⟩
  | .rejected r t => rw [hp] at h; cases h
  | .exhausted t => rw [hp] at h; cases h

theorem Consumes.bind {p : Pass α} (hp : Consumes p) (f : α → Pass β) : Consumes (p >>= f) := by
  intro φ _ s b s' h
  obtain ⟨a, t, h1, h2⟩ := run_bind_done h
  exact Nat.lt_of_le_of_lt (left_le_of_run h2) (hp φ s a t h1)

theorem Consumes.of_bind (p : Pass α) {f : α → Pass β} (hf : ∀ a, Consumes (f a)) :
    Consumes (p >>= f) := by
  intro φ _ s b s' h
  obtain ⟨a, t, h1, h2⟩ := run_bind_done h
  exact Nat.lt_of_lt_of_le (hf a φ t b s' h2) (left_le_of_run h1)

theorem Suffices.mono {p : Pass α} {m n : Nat} (h : Suffices p n) (hmn : m ≤ n) : Suffices p m :=
  fun φ _ s hs => h φ s (by omega)

theorem Suffices.bind {p : Pass α} {f : α → Pass β} {n : Nat} (hp : Suffices p n)
    (hf : ∀ a, Suffices (f a) n) : Suffices (p >>= f) n := by
  intro φ _ s hs s' h
  rw [run_bind] at h
  match hr : p.run s with
  | .done a t =>
    rw [hr] at h
    exact hf a φ t (Nat.lt_of_le_of_lt (left_le_of_run hr) hs) s' h
  | .rejected r t => rw [hr] at h; cases h
  | .exhausted t => exact hp φ s hs t hr

/-- After a token was put away, a smaller budget is enough. -/
theorem Consumes.suffices_bind {p : Pass α} {f : α → Pass β} {n : Nat} (hc : Consumes p)
    (hp : Suffices p (n + 1)) (hf : ∀ a, Suffices (f a) n) : Suffices (p >>= f) (n + 1) := by
  intro φ _ s hs s' h
  rw [run_bind] at h
  match hr : p.run s with
  | .done a t =>
    rw [hr] at h
    exact hf a φ t (by have := hc φ s a t hr; omega) s' h
  | .rejected r t => rw [hr] at h; cases h
  | .exhausted t => exact hp φ s hs t hr

/-! ## Steps -/

section Steps

variable {n : Nat}

theorem suffices_done (a : α) : Suffices (done a) n := fun _ _ _ _ _ h => nomatch h

theorem suffices_pure (a : α) : Suffices (pure a : Pass α) n := suffices_done a

theorem suffices_refuse (v : Violation) (t : Token) : Suffices (refuse v t : Pass α) n :=
  fun _ _ _ _ _ h => nomatch h

theorem suffices_unexpected (e : Expectation) : Suffices (unexpected e : Pass α) n :=
  fun _ _ _ _ _ h => nomatch h

theorem suffices_hand : Suffices hand n := fun _ _ _ _ _ h => nomatch h

theorem suffices_ask (m : Move) : Suffices (ask m done) n := by
  intro φ _ s _ s' h
  cases m with
  | advance =>
    simp only [run_ask, Stand.perform, Stand.advance, Stand.settle] at h
    split at h <;> cases h
  | declare x =>
    simp only [run_ask, Stand.perform, Stand.declare] at h
    split at h <;> cases h
  | _ => cases h

theorem suffices_advance : Suffices advance n :=
  suffices_hand.bind fun _ => (suffices_ask .advance).bind fun _ => suffices_pure _

theorem suffices_demand (c : Except Violation α) (t : Token) : Suffices (demand c t) n := by
  cases c with
  | ok a => exact suffices_done a
  | error v => exact suffices_refuse v t

theorem suffices_declare (x : Symbol) (t : Token) : Suffices (declare x t) n := by
  refine Suffices.bind (suffices_ask (.declare x)) fun free => ?_
  split
  · exact suffices_pure _
  · exact suffices_refuse _ _

theorem suffices_expect (k : Kind) (e : Expectation) : Suffices (expect k e) n := by
  refine suffices_hand.bind fun t => ?_
  split
  · exact suffices_advance
  · exact suffices_unexpected e

theorem suffices_expectName (e : Expectation) : Suffices (expectName e) n := by
  refine suffices_hand.bind fun t => ?_
  split
  · exact suffices_advance
  · exact suffices_unexpected e

theorem suffices_accept (k : Kind) : Suffices (accept k) n := by
  refine suffices_hand.bind fun t => ?_
  split
  · exact suffices_advance.bind fun _ => suffices_pure _
  · exact suffices_pure _

end Steps

/-- A token that was put away, and was not the finish, is one token less. -/
theorem left_lt_of_advance {φ : Type} [Feed φ] {s s' : Stand φ} {t : Token}
    (hs : s.hand.kind ≠ .finish) (h : advance.run s = .done t s') : s'.left < s.left := by
  have := Stand.left_advance_lt hs
  rw [run_advance] at h
  match ha : s.advance with
  | .done _ v => rw [ha] at h this; cases h; exact this
  | .rejected r v => rw [ha] at h; cases h
  | .exhausted v => rw [ha] at h; cases h

/-- Whatever comes after it, there are fewer tokens left then. -/
theorem left_lt_of_advance_bind {φ : Type} [Feed φ] {s s' : Stand φ} {f : Token → Pass β} {b : β}
    (hs : s.hand.kind ≠ .finish) (h : (advance >>= f).run s = .done b s') : s'.left < s.left := by
  obtain ⟨t, u, h1, h2⟩ := run_bind_done h
  exact Nat.lt_of_le_of_lt (left_le_of_run h2) (left_lt_of_advance hs h1)

/-- After a token that was put away, and was not the finish, a smaller
budget is enough. -/
theorem advance_bind_ne_exhausted {φ : Type} [Feed φ] {s s' : Stand φ} {f : Token → Pass β}
    {n : Nat} (hs : s.hand.kind ≠ .finish) (hn : s.left < n + 1) (hf : ∀ t, Suffices (f t) n) :
    (advance >>= f).run s ≠ .exhausted s' := by
  intro h
  rw [run_bind] at h
  match hr : advance.run s with
  | .done t u =>
    rw [hr] at h
    exact hf t φ u (by have := left_lt_of_advance hs hr; omega) s' h
  | .rejected r u => rw [hr] at h; cases h
  | .exhausted u => exact suffices_advance φ s (Nat.lt_succ_self _) u hr

theorem consumes_expect {k : Kind} (hk : k ≠ .finish) (e : Expectation) :
    Consumes (expect k e) := by
  intro φ _ s t s' h
  rw [run_expect] at h
  split at h
  · rename_i hs
    exact left_lt_of_advance (hs ▸ hk) h
  · cases h

theorem consumes_expectName (e : Expectation) : Consumes (expectName e) := by
  intro φ _ s t s' h
  rw [run_expectName] at h
  split at h
  · exact left_lt_of_advance (Kind.ne_finish_of_isName ‹_›) h
  · cases h

/-! ## Repetitions -/

/-- A body that puts a token away in every round leaves the budget larger
than the rounds that are still to come. -/
theorem suffices_repeatWhile {l : Repetition} {opens : Kind → Bool} {body : Pass Unit} {m : Nat}
    (hc : Consumes body) (hb : Suffices body m) :
    ∀ k, ∀ n ≤ m, Suffices (Parse.repeatWhile l opens body k n) n
  | _, 0, _ => fun _ _ _ hs => absurd hs (Nat.not_lt_zero _)
  | k, n + 1, hn => by
    refine suffices_hand.bind fun t => ?_
    split
    · exact hc.suffices_bind (hb.mono hn) fun _ =>
        suffices_repeatWhile hc hb (k + 1) n (Nat.le_of_succ_le hn)
    · exact suffices_pure _

theorem suffices_separated {l : Repetition} {item : Nat → Pass α} {m : Nat}
    (hc : ∀ k, Consumes (item k)) (hb : ∀ k, Suffices (item k) m) :
    ∀ k, ∀ n ≤ m, Suffices (Parse.separated l item k n) n
  | _, 0, _ => fun _ _ _ hs => absurd hs (Nat.not_lt_zero _)
  | k, n + 1, hn => by
    have hround : Suffices (item k >>= fun a => accept .comma >>= fun more => pure (a, more)) m :=
      (hb k).bind fun a => (suffices_accept _).bind fun more => suffices_pure _
    refine Consumes.suffices_bind ((hc k).bind _) (hround.mono hn) fun round => ?_
    split
    · exact (suffices_separated hc hb (k + 1) n (Nat.le_of_succ_le hn)).bind fun _ =>
        suffices_pure _
    · exact suffices_pure _

end Pass

end OnePass
