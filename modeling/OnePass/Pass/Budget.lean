-- A budget that is larger than the number of tokens left is always enough.
-- Between two nested expressions or statements, and in every round of a
-- repetition, a token is put away, so depth and rounds stay below it.
import OnePass.Pass.Program
import OnePass.Pass.Progress

namespace OnePass.Pass

open Parse

/-! ## Expressions -/

theorem consumes_primary (inner : Unit → Pass ValueType) : Consumes (primary inner) := by
  intro φ _ s t s' h
  simp only [primary, within_eq, monadLift_eq_step, step_eq, run_bind, run_hand,
    Outcome.andThen_done] at h
  split at h
  · rename_i hk
    simp only [run_bind, run_lookup, Outcome.andThen_done] at h
    split at h
    · cases h
    · split at h
      · cases h
      · exact left_lt_of_advance_bind (Kind.ne_finish_of_isName hk) h
  · split at h
    · exact left_lt_of_advance_bind (Kind.ne_finish_of_constantType? ‹_›) h
    · split at h
      · rename_i hk
        exact left_lt_of_advance_bind (by rw [hk]; simp) h
      · cases h

/-- A group needs a larger budget than what is inside it. -/
theorem suffices_primary {inner : Unit → Pass ValueType} {n : Nat} (h : Suffices (inner ()) n) :
    Suffices (primary inner) (n + 1) := by
  intro φ _ s hs s' hr
  simp only [primary, within_eq, monadLift_eq_step, step_eq, run_bind, run_hand,
    Outcome.andThen_done] at hr
  split at hr
  · simp only [run_bind, run_lookup, Outcome.andThen_done] at hr
    split at hr
    · cases hr
    · split at hr
      · cases hr
      · exact (suffices_advance.bind fun _ => suffices_pure _) φ s hs s' hr
  · split at hr
    · exact (suffices_advance.bind fun _ => suffices_pure _) φ s hs s' hr
    · split at hr
      · rename_i hk
        refine advance_bind_ne_exhausted (by rw [hk]; simp) hs (fun _ => ?_) hr
        exact h.bind fun _ => (suffices_expect _ _).bind fun _ => suffices_pure _
      · cases hr

theorem consumes_signed (inner : Unit → Pass ValueType) : Consumes (signed inner) := by
  intro φ _ s t s' h
  simp only [signed, within_eq, monadLift_eq_step, step_eq, run_bind, run_hand,
    Outcome.andThen_done] at h
  split at h
  · exact left_lt_of_advance_bind (Kind.ne_finish_of_isSign ‹_›) h
  · exact consumes_primary inner φ s t s' h

theorem suffices_signed {inner : Unit → Pass ValueType} {n : Nat} (h : Suffices (inner ()) n) :
    Suffices (signed inner) (n + 1) := by
  refine suffices_hand.bind fun sign => ?_
  split
  · exact suffices_advance.bind fun _ => (suffices_primary h).bind fun _ => suffices_demand _ _
  · exact suffices_primary h

theorem suffices_chain {tier : List Operator} {operand : Pass ValueType} {m : Nat}
    (h : Suffices operand m) : ∀ k, ∀ n ≤ m, ∀ left, Suffices (chain tier operand k n left) n
  | _, 0, _, _ => fun _ _ _ hs => absurd hs (Nat.not_lt_zero _)
  | k, n + 1, hn, left => by
    intro φ _ s hs s' hr
    simp only [chain, within_eq, monadLift_eq_step, step_eq, run_bind, run_hand,
      Outcome.andThen_done] at hr
    split at hr
    · rw [bind_assoc] at hr
      refine advance_bind_ne_exhausted (Kind.ne_finish_of_isOperatorOf ‹_›) hs (fun _ => ?_) hr
      exact ((h.mono (Nat.le_of_succ_le hn)).bind fun _ => suffices_demand _ _).bind fun _ =>
        suffices_chain h (k + 1) n (Nat.le_of_succ_le hn) _
    · cases hr

theorem consumes_tiered {operand : Pass ValueType} (h : Consumes operand) (n : Nat) :
    ∀ tiers, Consumes (tiered operand n tiers)
  | [] => by rw [tiered_nil]; exact h
  | _ :: tiers => by rw [tiered_cons]; exact (consumes_tiered h n tiers).bind _

theorem suffices_tiered {operand : Pass ValueType} {n : Nat} (hc : Consumes operand)
    (h : Suffices operand (n + 1)) : ∀ tiers, Suffices (tiered operand n tiers) (n + 1)
  | [] => by rw [tiered_nil]; exact h
  | _ :: tiers => by
    rw [tiered_cons]
    exact (consumes_tiered hc n tiers).suffices_bind (suffices_tiered hc h tiers) fun left =>
      suffices_chain ((suffices_tiered hc h tiers).mono (Nat.le_succ n)) 1 n (Nat.le_refl n) left

theorem consumes_expression : ∀ n, Consumes (expression n)
  | 0 => fun _ _ _ _ _ h => nomatch h
  | n + 1 => consumes_tiered (consumes_signed _) n _

theorem suffices_expression : ∀ n, Suffices (expression n) n
  | 0 => fun _ _ _ hs => absurd hs (Nat.not_lt_zero _)
  | n + 1 => suffices_tiered (consumes_signed _) (suffices_signed (suffices_expression n)) _

/-! ## Statements -/

theorem suffices_typeWord {n : Nat} : Suffices typeWord n := by
  refine suffices_hand.bind fun t => ?_
  split
  · exact suffices_advance.bind fun _ => suffices_pure _
  · exact suffices_unexpected _

theorem consumes_typeWord : Consumes typeWord := by
  intro φ _ s t s' h
  simp only [typeWord, within_eq, monadLift_eq_step, step_eq, run_bind, run_hand,
    Outcome.andThen_done] at h
  split at h
  · exact left_lt_of_advance_bind (Kind.ne_finish_of_isTypeWord ‹_›) h
  · cases h

theorem consumes_declarator (n : Nat) (type : ValueType) : Consumes (declarator n type) :=
  (consumes_expectName _).bind _

theorem suffices_declarator (n : Nat) (type : ValueType) : Suffices (declarator n type) n := by
  refine (suffices_expectName _).bind fun name => (suffices_declare _ _).bind fun _ =>
    (suffices_accept _).bind fun more => ?_
  split
  · exact (suffices_expression n).bind fun _ => suffices_demand _ _
  · exact suffices_pure _

theorem consumes_declarators (n : Nat) : Consumes (declarators n) :=
  consumes_typeWord.bind _

theorem suffices_names (n : Nat) (type : ValueType) : Suffices (names n type) n :=
  (suffices_separated (fun _ => consumes_declarator n type) (fun _ => suffices_declarator n type)
    1 n (Nat.le_refl n)).bind fun _ => suffices_pure _

theorem suffices_declarators (n : Nat) : Suffices (declarators n) (n + 1) :=
  consumes_typeWord.suffices_bind suffices_typeWord fun type =>
    (suffices_names n type).bind fun _ => (suffices_expect _ _).bind fun _ => suffices_pure _

theorem consumes_argument (n : Nat) (f : Symbol) (i : Nat) : Consumes (argument n f i) :=
  Consumes.of_bind _ fun _ => (consumes_expression n).bind _

theorem suffices_argument (n : Nat) (f : Symbol) (i : Nat) : Suffices (argument n f i) n :=
  suffices_hand.bind fun _ => (suffices_expression n).bind fun _ => suffices_demand _ _

theorem suffices_arguments (n : Nat) (f : Symbol) (name : Token) :
    Suffices (arguments n f name) n := by
  refine suffices_hand.bind fun t => ?_
  split
  · exact suffices_demand _ _
  · exact (suffices_separated (consumes_argument n f) (suffices_argument n f) 1 n
      (Nat.le_refl n)).bind fun _ => suffices_demand _ _

theorem suffices_lookup {n : Nat} (name : String) : Suffices (lookup name) n :=
  suffices_ask (.lookup name)

theorem consumes_call (n : Nat) : Consumes (call n) := (consumes_expectName _).bind _

theorem suffices_call (n : Nat) : Suffices (call n) (n + 1) := by
  refine (consumes_expectName _).suffices_bind (suffices_expectName _) fun name =>
    (suffices_lookup _).bind fun x => ?_
  split
  · exact suffices_refuse _ _
  · split
    · exact (suffices_expect _ _).bind fun _ => (suffices_arguments n _ _).bind fun _ =>
        (suffices_expect _ _).bind fun _ => suffices_pure _
    · exact suffices_refuse _ _

theorem consumes_assignment (n : Nat) : Consumes (assignment n) := (consumes_expectName _).bind _

theorem suffices_assignment (n : Nat) : Suffices (assignment n) (n + 1) := by
  refine (consumes_expectName _).suffices_bind (suffices_expectName _) fun name =>
    (suffices_lookup _).bind fun x => ?_
  split
  · exact suffices_refuse _ _
  · exact (suffices_expect _ _).bind fun _ => (suffices_expression n).bind fun _ =>
      suffices_demand _ _

theorem suffices_enter {n : Nat} : Suffices enter n := suffices_ask .enter

theorem suffices_leave {n : Nat} : Suffices leave n := suffices_ask .leave

theorem consumes_block (body : Pass Unit) (n : Nat) : Consumes (block body n) :=
  (consumes_expect (by simp) _).bind _

theorem suffices_block {body : Pass Unit} {n : Nat} (hc : Consumes body) (h : Suffices body n) :
    Suffices (block body n) (n + 1) :=
  (consumes_expect (by simp) _).suffices_bind (suffices_expect _ _) fun _ =>
    suffices_enter.bind fun _ =>
    (suffices_repeatWhile hc h 1 n (Nat.le_refl n)).bind fun _ => suffices_leave.bind fun _ =>
      (suffices_expect _ _).bind fun _ => suffices_pure _

theorem consumes_loop (body : Pass Unit) (n : Nat) : Consumes (loop body n) :=
  (consumes_expect (by simp) _).bind _

theorem suffices_loop {body : Pass Unit} {n : Nat} (h : Suffices body n) :
    Suffices (loop body n) (n + 1) :=
  (consumes_expect (by simp) _).suffices_bind (suffices_expect _ _) fun _ =>
    (suffices_expect _ _).bind fun _ => suffices_hand.bind fun _ =>
      (suffices_expression n).bind fun _ => (suffices_demand _ _).bind fun _ =>
      (suffices_expect _ _).bind fun _ => h

theorem consumes_statement : ∀ n, Consumes (statement n)
  | 0 => fun _ _ _ _ _ h => nomatch h
  | n + 1 => by
    intro φ _ s u s' h
    simp only [Parse.statement, within_eq, monadLift_eq_step, step_eq, run_bind, run_hand,
      Outcome.andThen_done] at h
    split at h
    · have : Consumes (peek >>= fun k => if k = .leftParen then
            call n >>= fun _ => expect .semicolon .callEnd >>= fun _ => pure ()
          else
            assignment n >>= fun _ => expect .semicolon .assignmentEnd >>= fun _ => pure ()) := by
        refine Consumes.of_bind _ fun k => ?_
        split
        · exact (consumes_call n).bind _
        · exact (consumes_assignment n).bind _
      exact this φ s u s' h
    · split at h
      · exact consumes_declarators n φ s u s' h
      · split at h
        · exact consumes_block _ n φ s u s' h
        · exact consumes_loop _ n φ s u s' h
        · rename_i hk
          exact left_lt_of_advance_bind (by rw [hk]; simp) h
        · cases h

theorem suffices_peek {n : Nat} : Suffices peek n := suffices_ask .peek

theorem suffices_statement : ∀ n, Suffices (statement n) n
  | 0 => fun _ _ _ hs => absurd hs (Nat.not_lt_zero _)
  | n + 1 => by
    refine suffices_hand.bind fun t => ?_
    split
    · refine suffices_peek.bind fun k => ?_
      split
      · exact (suffices_call n).bind fun _ => (suffices_expect _ _).bind fun _ => suffices_pure _
      · exact (suffices_assignment n).bind fun _ => (suffices_expect _ _).bind fun _ =>
          suffices_pure _
    · split
      · exact suffices_declarators n
      · split
        · exact suffices_block (consumes_statement n) (suffices_statement n)
        · exact suffices_loop (suffices_statement n)
        · exact suffices_advance.bind fun _ => suffices_pure _
        · exact suffices_unexpected _

/-! ## Programs -/

theorem consumes_parameter : Consumes parameter := consumes_typeWord.bind _

theorem suffices_parameter {n : Nat} : Suffices parameter n :=
  suffices_typeWord.bind fun _ => (suffices_expect _ _).bind fun _ => suffices_pure _

theorem suffices_parameters (n : Nat) : Suffices (parameters n) n := by
  refine suffices_hand.bind fun t => ?_
  split
  · refine (suffices_separated (fun _ => consumes_parameter) (fun _ => suffices_parameter) 1 n
      (Nat.le_refl n)).bind fun ps => suffices_hand.bind fun t => ?_
    split
    · exact suffices_unexpected _
    · exact suffices_pure _
  · exact suffices_pure _

theorem suffices_declareParameters {n : Nat} : ∀ k ps, Suffices (declareParameters k ps) n
  | _, [] => suffices_pure _
  | k, (_, _) :: ps => (suffices_declare _ _).bind fun _ => suffices_declareParameters (k + 1) ps

theorem suffices_headed {n : Nat} (name : String) (k : Nat) : Suffices (headed name k) n :=
  suffices_ask (.headed name k)

theorem consumes_function (n : Nat) : Consumes (function n) :=
  (consumes_expect (by simp) _).bind _

theorem suffices_function (n : Nat) : Suffices (function n) n :=
  (suffices_expect _ _).bind fun _ => (suffices_expectName _).bind fun _ =>
    (suffices_expect _ _).bind fun _ => (suffices_parameters n).bind fun _ =>
      (suffices_expect _ _).bind fun _ => (suffices_declare _ _).bind fun _ =>
        (suffices_headed _ _).bind fun _ => suffices_enter.bind fun _ =>
          (suffices_declareParameters 1 _).bind fun _ => (suffices_expect _ _).bind fun _ =>
            (suffices_repeatWhile (consumes_statement n) (suffices_statement n) 1 n
              (Nat.le_refl n)).bind fun _ => (suffices_expect _ _).bind fun _ => suffices_leave

theorem consumes_declaration (n : Nat) : Consumes (declaration n) := by
  refine Consumes.of_bind _ fun t => ?_
  split
  · exact consumes_function n
  · exact consumes_declarators n

theorem suffices_declaration (n : Nat) : Suffices (declaration n) n := by
  refine suffices_hand.bind fun t => ?_
  split
  · exact suffices_function n
  · exact (suffices_declarators n).mono (Nat.le_succ n)

theorem suffices_declarations (n : Nat) : Suffices (declarations n) n := by
  refine (suffices_repeatWhile (consumes_declaration n) (suffices_declaration n) 1 n
    (Nat.le_refl n)).bind fun _ => suffices_hand.bind fun t => ?_
  split
  · exact suffices_unexpected _
  · exact suffices_pure _

/-- A whole program is read to an end, good or bad, with any budget larger
than the number of tokens left. -/
theorem suffices_program (n : Nat) : Suffices (program n) n :=
  (suffices_declarations n).bind fun _ => (suffices_expect _ _).bind fun _ => suffices_pure _

end OnePass.Pass
