-- What the moves of a pass do, with a feed of tokens at hand.
import OnePass.Pass.Basic
import OnePass.Token.Feed
import OnePass.Scopes.Basic
import OnePass.Journal

namespace OnePass

/-- Where a pass stands: the tokens to come, the one in hand, the scopes so
far, and the journal so far. -/
structure Stand (φ : Type) where
  feed : φ
  hand : Token
  scopes : Scopes
  journal : Array Event

/-- How a pass ends, and where it stands then. -/
inductive Outcome (φ α : Type) where
  | done (result : α) (stand : Stand φ)
  | rejected (rejection : Rejection) (stand : Stand φ)
  | exhausted (stand : Stand φ)

namespace Outcome

variable {φ α β γ : Type}

/-- Where the pass stands at its end. -/
def stand : Outcome φ α → Stand φ
  | done _ s => s
  | rejected _ s => s
  | exhausted s => s

/-- What comes after an outcome: more to do after a result, and nothing
after anything else. -/
def andThen (o : Outcome φ α) (f : α → Stand φ → Outcome φ β) : Outcome φ β :=
  match o with
  | done a s => f a s
  | rejected r s => rejected r s
  | exhausted s => exhausted s

@[simp] theorem andThen_done (a : α) (s : Stand φ) (f : α → Stand φ → Outcome φ β) :
    (done a s).andThen f = f a s := rfl

@[simp] theorem andThen_rejected (r : Rejection) (s : Stand φ) (f : α → Stand φ → Outcome φ β) :
    (rejected r s).andThen f = rejected r s := rfl

@[simp] theorem andThen_exhausted (s : Stand φ) (f : α → Stand φ → Outcome φ β) :
    (exhausted s).andThen f = exhausted s := rfl

theorem andThen_assoc (o : Outcome φ α) (f : α → Stand φ → Outcome φ β)
    (g : β → Stand φ → Outcome φ γ) :
    (o.andThen f).andThen g = o.andThen fun a s => (f a s).andThen g := by
  cases o <;> rfl

end Outcome

/-! ## Moves -/

namespace Stand

variable {φ : Type} [Feed φ]

/-- Notes an event. -/
def note (s : Stand φ) (e : Event) : Stand φ := { s with journal := s.journal.push e }

/-- Notes that a token was read, if it is one. -/
def noteRead (s : Stand φ) (t : Token) : Stand φ :=
  if t.kind = .finish then s else s.note (.read t)

/-- Where the pass stands with the next token in hand. -/
def pull (s : Stand φ) : Stand φ :=
  let next := Feed.next s.feed
  { s with feed := next.2, hand := next.1 }.noteRead next.1

/-- An invalid token cannot stay in hand. -/
def settle (s : Stand φ) : Outcome φ Unit :=
  match s.hand.kind.fault? with
  | some f => .rejected ⟨.spelling f, s.hand⟩ s
  | none => .done () s

/-- The next token comes into hand, if it is a valid one. -/
def advance (s : Stand φ) : Outcome φ Unit := s.pull.settle

/-- The kind of the token after the one in hand, which may be invalid. -/
def peek (s : Stand φ) : Outcome φ Kind :=
  let next := Feed.peek s.feed
  .done next.1.kind ({ s with feed := next.2 }.noteRead next.1)

def enter (s : Stand φ) : Stand φ :=
  let scopes := s.scopes.enter
  { s with scopes := scopes }.note (.entered scopes.current (scopes.depth scopes.current))

def leave (s : Stand φ) : Stand φ :=
  match s.scopes.leave? with
  | some scopes => { s with scopes := scopes }.note (.left s.scopes.current)
  | none => s

/-- Declares a symbol, and tells whether its name was free. -/
def declare (s : Stand φ) (x : Symbol) : Outcome φ Bool :=
  match s.scopes.declare? x with
  | some scopes => .done true ({ s with scopes := scopes }.note (.declared x s.scopes.current))
  | none => .done false s

omit [Feed φ] in
@[simp] theorem feed_noteRead (s : Stand φ) (t : Token) : (s.noteRead t).feed = s.feed := by
  unfold noteRead
  split <;> rfl

omit [Feed φ] in
@[simp] theorem hand_noteRead (s : Stand φ) (t : Token) : (s.noteRead t).hand = s.hand := by
  unfold noteRead
  split <;> rfl

omit [Feed φ] in
@[simp] theorem scopes_noteRead (s : Stand φ) (t : Token) :
    (s.noteRead t).scopes = s.scopes := by
  unfold noteRead
  split <;> rfl

@[simp] theorem scopes_pull (s : Stand φ) : s.pull.scopes = s.scopes := by
  unfold pull
  rw [scopes_noteRead]

theorem hand_pull (s : Stand φ) : s.pull.hand = (Feed.next s.feed).1 := by
  unfold pull
  rw [hand_noteRead]

theorem feed_pull (s : Stand φ) : s.pull.feed = (Feed.next s.feed).2 := by
  unfold pull
  rw [feed_noteRead]

/-- What a move tells and where the pass stands then. -/
def perform (s : Stand φ) : (m : Move) → Outcome φ m.Answer
  | .hand => .done s.hand s
  | .advance => s.advance
  | .peek => s.peek
  | .enter => .done () s.enter
  | .leave => .done () s.leave
  | .declare x => s.declare x
  | .lookup name => .done (s.scopes.lookup name) s
  | .headed name parameters => .done () (s.note (.headed name parameters))

end Stand

/-- Makes the moves of a pass, one after another. -/
def Pass.run {φ α : Type} [Feed φ] : Pass α → Stand φ → Outcome φ α
  | .done a, s => .done a s
  | .reject r, s => .rejected r s
  | .exhausted, s => .exhausted s
  | .ask m go, s => (s.perform m).andThen fun x s => (go x).run s

/-! ## Runs of steps -/

namespace Pass

variable {φ α β : Type} [Feed φ]

@[simp] theorem run_done (a : α) (s : Stand φ) : (done a).run s = .done a s := rfl

@[simp] theorem run_pure (a : α) (s : Stand φ) : (pure a : Pass α).run s = .done a s := rfl

@[simp] theorem run_reject (r : Rejection) (s : Stand φ) :
    (reject r : Pass α).run s = .rejected r s := rfl

@[simp] theorem run_exhausted (s : Stand φ) : (exhausted : Pass α).run s = .exhausted s := rfl

@[simp] theorem run_ask (m : Move) (go : m.Answer → Pass α) (s : Stand φ) :
    (ask m go).run s = (s.perform m).andThen fun x s => (go x).run s := rfl

/-- Two passes in a row: the second starts where the first ends. -/
@[simp] theorem run_bind (p : Pass α) (f : α → Pass β) (s : Stand φ) :
    (p >>= f).run s = (p.run s).andThen fun a s => (f a).run s := by
  show (p.andThen f).run s = _
  induction p generalizing s with
  | done a => rfl
  | reject r => rfl
  | exhausted => rfl
  | ask m go ih => simp only [andThen, run_ask, Outcome.andThen_assoc, ih]

@[simp] theorem run_map (f : α → β) (p : Pass α) (s : Stand φ) :
    (f <$> p).run s = (p.run s).andThen fun a s => .done (f a) s := by
  rw [← bind_pure_comp, run_bind]
  rfl

@[simp] theorem run_hand (s : Stand φ) : hand.run s = .done s.hand s := rfl

@[simp] theorem run_advance (s : Stand φ) :
    advance.run s = s.advance.andThen fun _ s' => .done s.hand s' := by
  simp [advance, Stand.perform, Outcome.andThen_assoc]

@[simp] theorem run_peek (s : Stand φ) : peek.run s = s.peek := by
  simp [peek, Stand.perform, Stand.peek]

@[simp] theorem run_enter (s : Stand φ) : enter.run s = .done () s.enter := rfl

@[simp] theorem run_leave (s : Stand φ) : leave.run s = .done () s.leave := rfl

@[simp] theorem run_lookup (name : String) (s : Stand φ) :
    (lookup name).run s = .done (s.scopes.lookup name) s := rfl

@[simp] theorem run_headed (name : String) (parameters : Nat) (s : Stand φ) :
    (headed name parameters).run s = .done () (s.note (.headed name parameters)) := rfl

@[simp] theorem run_refuse (v : Violation) (t : Token) (s : Stand φ) :
    (refuse v t : Pass α).run s = .rejected ⟨.meaning v, t⟩ s := rfl

@[simp] theorem run_unexpected (e : Expectation) (s : Stand φ) :
    (unexpected e : Pass α).run s = .rejected ⟨.grammar e, s.hand⟩ s := rfl

theorem run_declare (x : Symbol) (t : Token) (s : Stand φ) :
    (declare x t).run s =
      (s.declare x).andThen fun free s =>
        if free then .done () s else .rejected ⟨.meaning (.redeclared x), t⟩ s := by
  simp only [declare, run_bind, run_ask, Stand.perform, Outcome.andThen_assoc, run_done,
    Outcome.andThen_done]
  congr
  funext free s
  split <;> rfl

theorem run_expect (k : Kind) (e : Expectation) (s : Stand φ) :
    (expect k e).run s =
      if s.hand.kind = k then advance.run s else .rejected ⟨.grammar e, s.hand⟩ s := by
  simp only [expect, run_bind, run_hand, Outcome.andThen_done]
  split <;> rfl

theorem run_expectName (e : Expectation) (s : Stand φ) :
    (expectName e).run s =
      if s.hand.kind.isName then advance.run s else .rejected ⟨.grammar e, s.hand⟩ s := by
  simp only [expectName, run_bind, run_hand, Outcome.andThen_done]
  split <;> rfl

end Pass

end OnePass
