-- Most moves of a pass leave nothing in the journal but the tokens read. An
-- expression makes only such moves, and so does a statement that opens no
-- scope and declares nothing.
import OnePass.Pass.Program

namespace OnePass

variable {α β : Type}

/-- The move does nothing to the scopes, and notes no head of a function. -/
def Move.isQuiet : Move → Bool
  | hand | advance | peek | lookup _ => true
  | enter | leave | declare _ | headed .. => false

namespace Pass

open Parse

/-- Only quiet moves are made. -/
def Quiet : Pass α → Prop
  | ask m go => m.isQuiet = true ∧ ∀ x, (go x).Quiet
  | _ => True

/-! ## Steps -/

variable {p : Pass α} {q : α → Pass β}

theorem Quiet.bind (hp : p.Quiet) (hq : ∀ a, (q a).Quiet) : (p >>= q).Quiet := by
  show (p.andThen q).Quiet
  induction p with
  | done a => exact hq a
  | ask m go ih => exact ⟨hp.1, fun x => ih x (hp.2 x)⟩
  | _ => trivial

theorem quiet_pure (a : α) : (pure a : Pass α).Quiet := trivial

theorem quiet_hand : hand.Quiet := ⟨rfl, fun _ => trivial⟩

theorem quiet_peek : peek.Quiet := ⟨rfl, fun _ => trivial⟩

theorem quiet_advance : advance.Quiet := ⟨rfl, fun _ => ⟨rfl, fun _ => trivial⟩⟩

theorem quiet_lookup (name : String) : (lookup name).Quiet := ⟨rfl, fun _ => trivial⟩

theorem quiet_unexpected (e : Expectation) : (unexpected e : Pass α).Quiet :=
  ⟨rfl, fun _ => trivial⟩

theorem quiet_demand (check : Except Violation α) (t : Token) : (demand check t).Quiet := by
  cases check <;> trivial

theorem quiet_expect (k : Kind) (e : Expectation) : (expect k e).Quiet := by
  apply quiet_hand.bind
  intro t
  split
  · exact quiet_advance
  · exact quiet_unexpected e

theorem quiet_expectName (e : Expectation) : (expectName e).Quiet := by
  apply quiet_hand.bind
  intro t
  split
  · exact quiet_advance
  · exact quiet_unexpected e

theorem quiet_accept (k : Kind) : (accept k).Quiet := by
  apply quiet_hand.bind
  intro t
  split
  · exact quiet_advance.bind fun _ => quiet_pure true
  · exact quiet_pure false

/-- The last token of a construct. -/
theorem quiet_last (k : Kind) (e : Expectation) :
    (expect k e >>= fun _ => pure () : Pass Unit).Quiet :=
  (quiet_expect k e).bind fun _ => quiet_pure ()

theorem quiet_separated {l : Repetition} {item : Nat → Pass α} (h : ∀ i, (item i).Quiet) :
    ∀ n i, Quiet (separated l item i n)
  | 0, _ => trivial
  | n + 1, i => by
    rw [separated_succ]
    apply (h i).bind
    intro a
    apply (quiet_accept .comma).bind
    intro more
    cases more with
    | true => exact (quiet_separated h n (i + 1)).bind fun as => quiet_pure (a :: as)
    | false => exact quiet_pure [a]

/-! ## Expressions -/

theorem quiet_primary {inner : Unit → Pass ValueType} (h : (inner ()).Quiet) :
    Quiet (primary inner) := by
  apply quiet_hand.bind
  intro t
  split
  · apply (quiet_lookup t.text).bind
    intro x?
    cases x? with
    | none => trivial
    | some x =>
      dsimp only
      split
      · trivial
      · exact quiet_advance.bind fun _ => quiet_pure x.type
  · cases t.kind.constantType? with
    | some type => exact quiet_advance.bind fun _ => quiet_pure type
    | none =>
      dsimp only
      split
      · apply quiet_advance.bind
        intro _
        apply h.bind
        intro type
        exact (quiet_expect _ _).bind fun _ => quiet_pure type
      · exact quiet_unexpected _

theorem quiet_signed {inner : Unit → Pass ValueType} (h : (inner ()).Quiet) :
    Quiet (signed inner) := by
  apply quiet_hand.bind
  intro sign
  split
  · apply quiet_advance.bind
    intro _
    exact (quiet_primary h).bind fun type => quiet_demand _ sign
  · exact quiet_primary h

theorem quiet_chain (tier : List Operator) {operand : Pass ValueType} (h : operand.Quiet) :
    ∀ n k left, Quiet (chain tier operand k n left)
  | 0, _, _ => trivial
  | n + 1, k, left => by
    apply quiet_hand.bind
    intro op
    split
    · refine Quiet.bind ?_ fun type => quiet_chain tier h n (k + 1) type
      apply quiet_advance.bind
      intro _
      exact h.bind fun right => quiet_demand _ op
    · exact quiet_pure left

theorem quiet_tiered {operand : Pass ValueType} (h : operand.Quiet) (n : Nat)
    (tiers : List (List Operator)) : Quiet (tiered operand n tiers) := by
  induction tiers with
  | nil =>
    rw [tiered_nil]
    exact h
  | cons tier tiers ih =>
    rw [tiered_cons]
    exact ih.bind fun left => quiet_chain tier ih n 1 left

theorem quiet_expression : ∀ n, (expression n).Quiet
  | 0 => trivial
  | n + 1 => quiet_tiered (quiet_signed (quiet_expression n)) n _

/-! ## Statements without scopes and declarations -/

theorem quiet_typeWord : Quiet typeWord := by
  apply quiet_hand.bind
  intro t
  split
  · exact quiet_advance.bind fun _ => quiet_pure _
  · exact quiet_unexpected _

theorem quiet_argument (n : Nat) (f : Symbol) (i : Nat) : (argument n f i).Quiet := by
  apply quiet_hand.bind
  intro first
  exact (quiet_expression n).bind fun value => quiet_demand _ first

theorem quiet_arguments (n : Nat) (f : Symbol) (name : Token) : Quiet (arguments n f name) := by
  apply quiet_hand.bind
  intro t
  split
  · exact quiet_demand _ name
  · exact (quiet_separated (quiet_argument n f) n 1).bind fun given => quiet_demand _ name

theorem quiet_call (n : Nat) : Quiet (call n) := by
  apply (quiet_expectName _).bind
  intro name
  apply (quiet_lookup _).bind
  intro x?
  cases x? with
  | none => trivial
  | some f =>
    dsimp only
    split
    · apply (quiet_expect _ _).bind
      intro _
      apply (quiet_arguments n f name).bind
      intro _
      exact quiet_last _ _
    · trivial

theorem quiet_assignment (n : Nat) : Quiet (assignment n) := by
  apply (quiet_expectName _).bind
  intro name
  apply (quiet_lookup _).bind
  intro x?
  cases x? with
  | none => trivial
  | some target =>
    apply (quiet_expect _ _).bind
    intro _
    exact (quiet_expression n).bind fun value => quiet_demand _ name

end Pass

end OnePass
