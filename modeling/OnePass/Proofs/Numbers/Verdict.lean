-- What holds of every text because every value is a number: wherever the pass
-- stands, names are declared for numbers and expressions have them, and there
-- are complaints that no text is ever met with.
import OnePass.Proofs.Lexicon.Spellings
import OnePass.Proofs.Numbers.Program
import OnePass.Proofs.Provenance

namespace OnePass

/-! ## Wherever the pass stands -/

namespace Pass

variable {φ : Type} [Feed φ]

/-- The pass over the tokens of a feed comes by a stand. -/
inductive Reaches (feed : φ) (journal : Array Event) : Stand φ → Prop
  | start : Reaches feed journal (ready feed journal)
  /-- The first token has come into hand, valid or not. -/
  | first : Reaches feed journal (ready feed journal).pull
  | onward {s u : Stand φ} (hs : (ready feed journal).advance = .done () s)
    (hu : Visits (program (s.left + 1)) s u) : Reaches feed journal u

/-- The pass ends at a stand that it comes by. -/
theorem reaches_end (feed : φ) (journal : Array Event) :
    Reaches feed journal (whole feed journal).stand := by
  have hfirst : Reaches feed journal (ready feed journal).advance.stand :=
    (ready feed journal).stand_advance ▸ .first
  unfold whole
  cases h : (ready feed journal).advance with
  | done _ s => exact .onward h (visits_end _ s)
  | rejected r s | exhausted s =>
    rw [h] at hfirst
    exact hfirst

theorem numeric_first (feed : φ) (journal : Array Event) :
    (ready feed journal).pull.scopes.Numeric := by
  rw [Stand.scopes_pull]
  exact Scopes.numeric_empty

variable {feed : φ} {journal : Array Event}

theorem Reaches.numeric {s : Stand φ} (h : Reaches feed journal s) : s.scopes.Numeric := by
  cases h with
  | start => exact Scopes.numeric_empty
  | first => exact numeric_first feed journal
  | @onward t _ ht hu =>
    have hfirst := numeric_first feed journal
    rw [← Stand.stand_advance, ht] at hfirst
    exact (numeric_program _ φ t hfirst).visits (fun _ _ h => h.1) hu

theorem arises_of_rejected {r : Rejection} {s : Stand φ}
    (h : whole feed journal = .rejected r s) : r.Arises := by
  have hrun : (whole feed journal).Keeps keepingNumbers fun _ _ => True := by
    apply (keepingNumbers_settle (numeric_first feed journal)).andThen
    rintro _ _ rfl
    exact (numeric_program _ φ _ (numeric_first feed journal)).run
  rw [h] at hrun
  exact hrun.2

/-- A pass over an expression or over a part of one, with any budgets. -/
inductive Evaluates : Pass ValueType → Prop
  | expression (n : Nat) : Evaluates (expression n)
  | tiered (n m : Nat) (tiers : List (List Operator)) :
    Evaluates (Parse.tiered (Parse.signed fun _ => expression n) m tiers)
  | signed (n : Nat) : Evaluates (Parse.signed fun _ => expression n)
  | primary (n : Nat) : Evaluates (Parse.primary fun _ => expression n)

theorem Evaluates.numeric {p : Pass ValueType} (h : Evaluates p) :
    p.Numeric fun t => t.isNumber = true := by
  cases h with
  | expression n => exact numeric_expression n
  | tiered n m tiers => exact numeric_tiered (numeric_signed (numeric_expression n)) m tiers
  | signed n => exact numeric_signed (numeric_expression n)
  | primary n => exact numeric_primary (numeric_expression n)

end Pass

/-! ## Complaints that are never heard -/

/-- What no complaint says. -/
def unheard : List String :=
  ["condition of 'while' cannot be void", "expected 'void' in function declaration",
    "expected '\x7b' to open compound statement", "expected 'while'",
    "expected variable name on the left of '='", "expected function name in call",
    "expected '(' in function call"]

theorem Fault.message_not_unheard (f : Fault) : f.message ∉ unheard := by
  cases f <;> decide

theorem Expectation.message_not_unheard {e : Expectation} (h : e.isOpen = true) :
    e.message ∉ unheard := by
  revert h
  cases e <;> simp [unheard, message, isOpen]

/-- Two characters tell what is unheard from what is said of the meaning. -/
theorem take_two_of_unheard : ∀ m ∈ unheard, m.toList.take 2 ∈ [['c', 'o'], ['e', 'x']] := by
  decide

theorem Violation.message_not_unheard {v : Violation} (h : v ≠ .voidCondition) :
    v.message ∉ unheard := by
  refine mt (take_two_of_unheard v.message) ?_
  unfold message
  cases v with
  | voidCondition => exact absurd rfl h
  | _ =>
    simp only [String.append_assoc, String.toList_append]
    simp

/-- A rejection that can arise is told in other words. -/
theorem Rejection.Arises.message_not_unheard {r : Rejection} (h : r.Arises) :
    r.complaint.message ∉ unheard := by
  obtain ⟨cause, t⟩ := r
  cases cause with
  | spelling f => exact f.message_not_unheard
  | grammar e => exact Expectation.message_not_unheard h
  | meaning v =>
    apply Violation.message_not_unheard
    rintro rfl
    exact h

/-! ## The law -/

/-- The types of numbers. -/
def ValueType.numbers : List ValueType := [.short, .long, .int, .double, .char]

theorem ValueType.mem_numbers_iff {t : ValueType} : t ∈ numbers ↔ t.isNumber = true := by
  cases t <;> decide

/-- The pass over the text comes by a stand. -/
def Reached (source : String) (s : Stand Cursor) : Prop :=
  Pass.Reaches (Cursor.start source.toList) #[.started (Text.bytes source.toList)] s

/-- No value in a text is anything but a number, and so much cannot go
wrong. -/
structure OnlyNumbers (source : String) : Prop where
  symbols : ∀ s, Reached source s →
    ∀ x ∈ s.scopes.symbols, x.2.role.isFunction = false → x.2.type ∈ ValueType.numbers
  values : ∀ s, Reached source s → ∀ p, Pass.Evaluates p →
    ∀ type t, p.run s = .done type t → type ∈ ValueType.numbers
  scopes : ∀ scopes, (analyze source).verdict = .ok scopes →
    ∀ x ∈ scopes.symbols, x.2.role.isFunction = false → x.2.type ∈ ValueType.numbers
  complaints : ∀ r, (analyze source).verdict = .error r → r.complaint.message ∉ unheard
  signs : ∀ r, (analyze source).verdict = .error r →
    ∀ op type, r.cause ≠ .meaning (.unfitSign op type)
  /-- An operator can fail if it takes whole numbers only, and is given
  another one. -/
  operators : ∀ r, (analyze source).verdict = .error r →
    ∀ op left right, r.cause = .meaning (.unfitOperands op left right) →
      (left = .double ∨ right = .double) ∧
      ∃ o ∈ [Operator.remainder, .bitOr, .bitXor, .bitAnd, .shiftLeft, .shiftRight],
        r.token.kind = .operator o ∧ op = o.spelling
  /-- Only a place for a character does not take every number. -/
  places : ∀ r, (analyze source).verdict = .error r →
    ∀ value target, r.cause = .meaning (.unfitValue value target) →
      target.type = .char ∧ value ≠ .char

theorem arises_of_verdict {source : String} {r : Rejection}
    (h : (analyze source).verdict = .error r) : r.Arises := by
  obtain ⟨s, hs⟩ := verdict_eq_error_iff.1 h
  exact Pass.arises_of_rejected hs

theorem arises_of_meaning {source : String} {r : Rejection} {v : Violation}
    (h : (analyze source).verdict = .error r) (hv : r.cause = .meaning v) :
    v.Arises r.token := by
  have harises := arises_of_verdict h
  unfold Rejection.Arises at harises
  rwa [hv] at harises

/-- Every value in every text is a number. -/
theorem every_value_is_a_number (source : String) : OnlyNumbers source := by
  have hsymbols : ∀ s, Reached source s →
      ∀ x ∈ s.scopes.symbols, x.2.role.isFunction = false → x.2.type ∈ ValueType.numbers := by
    intro s hs x hx hf
    exact ValueType.mem_numbers_iff.2 (hs.numeric x hx hf)
  refine ⟨hsymbols, ?_, ?_, fun r h => (arises_of_verdict h).message_not_unheard, ?_, ?_, ?_⟩
  · intro s hs p hp type t hrun
    have hkeeps := (hp.numeric Cursor s hs.numeric).run
    rw [hrun] at hkeeps
    exact ValueType.mem_numbers_iff.2 hkeeps
  · intro scopes h
    obtain ⟨s, hs, rfl⟩ := verdict_eq_ok_iff.1 h
    have hend := Pass.reaches_end (Cursor.start source.toList)
      #[.started (Text.bytes source.toList)]
    rw [hs] at hend
    exact hsymbols s hend
  · intro r h op type hv
    exact arises_of_meaning h hv
  · intro r h op left right hv
    obtain ⟨htext, hdouble, o, ho, hk⟩ := arises_of_meaning h hv
    refine ⟨hdouble, o, ho, hk, ?_⟩
    rw [htext]
    exact text_of_operator (token_mem_of_verdict h) hk
  · intro r h value target hv
    exact arises_of_meaning h hv

end OnePass
