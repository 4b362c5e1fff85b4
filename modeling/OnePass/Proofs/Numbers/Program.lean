-- The grammar functions keep to numbers: an expression has a number for its
-- value, a declaration is for numbers, and what a statement asks for first is
-- the token that told it from the other statements.
import OnePass.Proofs.Numbers.Steps
import OnePass.Pass.Program

namespace OnePass.Pass

open Parse

/-! ## Expressions -/

theorem numeric_primary {inner : Unit → Pass ValueType}
    (h : (inner ()).Numeric fun t => t.isNumber = true) :
    Numeric (primary inner) fun t => t.isNumber = true := by
  apply numeric_hand.bind
  intro t _
  split
  · apply (numeric_lookup t.text).bind
    intro x? hx
    cases x? with
    | none => exact numeric_refuse trivial
    | some x =>
      dsimp only
      split
      · exact numeric_refuse trivial
      · rename_i hf
        apply numeric_advance.bind
        intro _ _
        exact numeric_pure (hx x rfl (Bool.eq_false_iff.2 hf))
  · cases hc : t.kind.constantType? with
    | some type =>
      apply numeric_advance.bind
      intro _ _
      exact numeric_pure (Kind.isNumber_constantType hc)
    | none =>
      dsimp only
      split
      · apply numeric_advance.bind
        intro _ _
        apply h.bind
        intro type htype
        apply (numeric_expect .rightParen rfl).bind
        intro _ _
        exact numeric_pure htype
      · exact numeric_unexpected rfl

theorem numeric_signed {inner : Unit → Pass ValueType}
    (h : (inner ()).Numeric fun t => t.isNumber = true) :
    Numeric (signed inner) fun t => t.isNumber = true := by
  apply numeric_hand.bind
  intro sign _
  split
  · apply numeric_advance.bind
    intro _ _
    apply (numeric_primary h).bind
    intro type htype
    rw [checkSign_of_isNumber sign htype]
    exact numeric_pure htype
  · exact numeric_primary h

/-- Only an operator of the tier is asked to join operands. -/
theorem numeric_chain (tier : List Operator) {operand : Pass ValueType}
    (h : operand.Numeric fun t => t.isNumber = true) :
    ∀ n k left, left.isNumber = true →
      Numeric (chain tier operand k n left) fun t => t.isNumber = true
  | 0, _, _, _ => numeric_exhausted
  | n + 1, k, left, hleft => by
    apply numeric_hand.bind
    intro op _
    split
    · rename_i hop
      obtain ⟨o, ho⟩ := Kind.exists_operator_of_isOperatorOf hop
      refine Numeric.bind (A := fun t => t.isNumber = true) ?_ fun type htype =>
        numeric_chain tier h n (k + 1) type htype
      apply numeric_advance.bind
      intro _ _
      apply h.bind
      intro right hright
      exact numeric_demand (fun _ => isNumber_of_checkOperands)
        (fun _ => arises_of_checkOperands ho hleft hright)
    · exact numeric_pure hleft

theorem numeric_tiered {operand : Pass ValueType}
    (h : operand.Numeric fun t => t.isNumber = true) (n : Nat) (tiers : List (List Operator)) :
    Numeric (tiered operand n tiers) fun t => t.isNumber = true := by
  induction tiers with
  | nil =>
    rw [tiered_nil]
    exact h
  | cons tier tiers ih =>
    rw [tiered_cons]
    apply ih.bind
    intro left hleft
    exact numeric_chain tier ih n 1 left hleft

theorem numeric_expression : ∀ n, (expression n).Numeric fun t => t.isNumber = true
  | 0 => numeric_exhausted
  | n + 1 => numeric_tiered (numeric_signed (numeric_expression n)) n _

/-! ## Statements -/

theorem numeric_typeWord : Numeric typeWord fun t => t.isNumber = true := by
  apply numeric_hand.bind
  intro t _
  split
  · apply numeric_advance.bind
    intro _ _
    exact numeric_pure (Kind.isNumber_wordType ‹_›)
  · exact numeric_unexpected rfl

theorem numeric_declarator (n : Nat) {type : ValueType} (h : type.isNumber = true) :
    Numeric (declarator n type) fun _ => True := by
  apply (numeric_expectName rfl).bind
  intro name _
  apply (numeric_declare (x := ⟨name.text, .value type⟩) name fun _ => h).bind
  intro _ _
  apply (numeric_accept .assign).bind
  intro more _
  cases more with
  | false => exact numeric_pure trivial
  | true =>
    apply (numeric_expression n).bind
    intro value hvalue
    exact numeric_demand (fun _ _ => trivial)
      (fun _ => arises_of_checkAssignment (fun _ => h) hvalue)

theorem numeric_names (n : Nat) {type : ValueType} (h : type.isNumber = true) :
    Numeric (names n type) fun _ => True := by
  apply (numeric_separated (fun _ => numeric_declarator n h) n 1).bind
  intro _ _
  exact numeric_pure trivial

theorem numeric_declarators (n : Nat) : Numeric (declarators n) fun _ => True := by
  apply numeric_typeWord.bind
  intro type htype
  apply (numeric_names n htype).bind
  intro _ _
  exact numeric_last .semicolon rfl

theorem numeric_argument (n : Nat) (f : Symbol) (i : Nat) :
    (argument n f i).Numeric fun _ => True := by
  apply numeric_hand.bind
  intro first _
  apply (numeric_expression n).bind
  intro value _
  exact numeric_demand (fun _ _ => trivial) (fun _ => arises_of_checkArgument)

theorem numeric_arguments (n : Nat) (f : Symbol) (name : Token) :
    Numeric (arguments n f name) fun _ => True := by
  apply numeric_hand.bind
  intro t _
  split
  · exact numeric_demand (fun _ _ => trivial) (fun _ => arises_of_checkCount)
  · apply (numeric_separated (numeric_argument n f) n 1).bind
    intro given _
    exact numeric_demand (fun _ _ => trivial) (fun _ => arises_of_checkCount)

section
variable {φ : Type} [Feed φ] {s : Stand φ}

/-- A call starts with a name, and a parenthesis follows. -/
theorem keeps_call (n : Nat) (hs : s.scopes.Numeric) (hname : s.hand.kind.isName = true)
    (hnext : (Feed.next s.feed).1.kind = .leftParen) :
    Keeps keepingNumbers (call n) s fun _ _ => True := by
  apply (keeps_expectName hs (Or.inl hname)).bind
  intro name t ht hhand
  -- the parenthesis is in hand while the name is looked up
  apply (keeps_lookup name.text ht).bind
  rintro x? _ - rfl
  cases x? with
  | none => exact numeric_refuse (v := .unknownCallee name.text) trivial φ _ ht
  | some f =>
    dsimp only
    split
    · apply (keeps_expect ht (Or.inl (hhand.trans hnext))).numeric_bind
      intro _
      apply (numeric_arguments n f name).bind
      intro _ _
      exact numeric_last .rightParen rfl
    · exact numeric_refuse (v := .notCallable name.text) trivial φ _ ht

/-- An assignment starts with a name. -/
theorem keeps_assignment (n : Nat) (hs : s.scopes.Numeric) (hname : s.hand.kind.isName = true) :
    Keeps keepingNumbers (assignment n) s fun _ _ => True := by
  apply (keeps_expectName hs (Or.inl hname)).numeric_bind
  intro name
  apply (numeric_lookup name.text).bind
  intro x? hx
  cases x? with
  | none => exact numeric_refuse trivial
  | some target =>
    apply (numeric_expect .assign rfl).bind
    intro _ _
    apply (numeric_expression n).bind
    intro value hvalue
    exact numeric_demand (fun _ _ => trivial)
      (fun _ => arises_of_checkAssignment (hx target rfl) hvalue)

/-- A block starts with a brace. -/
theorem keeps_block {body : Pass Unit} (h : body.Numeric fun _ => True) (n : Nat)
    (hs : s.scopes.Numeric) (hbrace : s.hand.kind = .leftBrace) :
    Keeps keepingNumbers (block body n) s fun _ _ => True := by
  apply (keeps_expect hs (Or.inl hbrace)).numeric_bind
  intro _
  apply numeric_enter.bind
  intro _ _
  apply (numeric_repeatWhile .statements Kind.opensStatement h n 1).bind
  intro _ _
  apply numeric_leave.bind
  intro _ _
  exact numeric_last .rightBrace rfl

/-- A loop starts with its word, and its condition is a number. -/
theorem keeps_loop {body : Pass Unit} (h : body.Numeric fun _ => True) (n : Nat)
    (hs : s.scopes.Numeric) (hword : s.hand.kind = .whileWord) :
    Keeps keepingNumbers (loop body n) s fun _ _ => True := by
  apply (keeps_expect hs (Or.inl hword)).numeric_bind
  intro _
  apply (numeric_expect .leftParen rfl).bind
  intro _ _
  apply numeric_hand.bind
  intro first _
  apply (numeric_expression n).bind
  intro value hvalue
  rw [checkCondition_of_isNumber hvalue]
  apply Numeric.bind (A := fun _ => True) (numeric_pure trivial)
  intro _ _
  apply (numeric_expect .rightParen rfl).bind
  intro _ _
  exact h

end

/-- The token in hand tells the statements apart, and with a name the one
after it, so they find what they start with. -/
theorem numeric_statement : ∀ n, (statement n).Numeric fun _ => True
  | 0 => numeric_exhausted
  | n + 1 => by
    intro φ _ s hs
    refine ⟨hs, ?_⟩
    show Keeps keepingNumbers (ite _ _ _) s _
    split
    · rename_i hname
      apply (keeps_peek hs).bind
      rintro k t ht ⟨hk, hhand⟩
      rw [← hhand] at hname
      split
      · rename_i hparen
        apply (keeps_call n ht hname (hk.symm.trans hparen)).numeric_bind
        intro _
        exact numeric_last .semicolon rfl
      · apply (keeps_assignment n ht hname).numeric_bind
        intro _
        exact numeric_last .semicolon rfl
    · split
      · exact numeric_declarators n φ s hs
      · split
        · exact keeps_block (numeric_statement n) n hs ‹_›
        · exact keeps_loop (numeric_statement n) n hs ‹_›
        · exact (numeric_advance.bind fun _ _ => numeric_pure trivial) φ s hs
        · exact keeps_unexpected hs rfl

/-! ## Programs -/

theorem numeric_parameter : Numeric parameter fun p => p.1.type.isNumber = true := by
  apply numeric_typeWord.bind
  intro type htype
  apply (numeric_expect .name rfl).bind
  intro name _
  exact numeric_pure htype

theorem numeric_parameters (n : Nat) :
    Numeric (parameters n) fun ps => ∀ p ∈ ps, p.1.type.isNumber = true := by
  apply numeric_hand.bind
  intro t _
  split
  · apply (numeric_separated (fun _ => numeric_parameter) n 1).bind
    intro ps hps
    apply numeric_hand.bind
    intro u _
    split
    · exact numeric_unexpected rfl
    · exact numeric_pure hps
  · exact numeric_pure (List.forall_mem_nil _)

theorem numeric_declareParameters (k : Nat) {ps : List (Parameter × Token)}
    (h : ∀ p ∈ ps, p.1.type.isNumber = true) :
    Numeric (declareParameters k ps) fun _ => True := by
  induction ps generalizing k with
  | nil => exact numeric_pure trivial
  | cons p ps ih =>
    obtain ⟨hp, hps⟩ := List.forall_mem_cons.1 h
    apply (numeric_declare (x := ⟨p.1.name, .parameter p.1.type⟩) p.2 fun _ => hp).bind
    intro _ _
    exact ih (k + 1) hps

/-- A function starts with its word. -/
theorem keeps_function {φ : Type} [Feed φ] {s : Stand φ} (n : Nat) (hs : s.scopes.Numeric)
    (hword : s.hand.kind = .voidWord) : Keeps keepingNumbers (function n) s fun _ _ => True := by
  apply (keeps_expect hs (Or.inl hword)).numeric_bind
  intro _
  apply (numeric_expectName rfl).bind
  intro name _
  apply (numeric_expect .leftParen rfl).bind
  intro _ _
  apply (numeric_parameters n).bind
  intro ps hps
  apply (numeric_expect .rightParen rfl).bind
  intro _ _
  apply (numeric_declare (x := ⟨name.text, .function .void (ps.map (·.1))⟩) name nofun).bind
  intro _ _
  apply (numeric_headed name.text ps.length).bind
  intro _ _
  apply numeric_enter.bind
  intro _ _
  apply (numeric_declareParameters 1 hps).bind
  intro _ _
  apply (numeric_expect .leftBrace rfl).bind
  intro _ _
  apply (numeric_repeatWhile .statements Kind.opensStatement (numeric_statement n) n 1).bind
  intro _ _
  apply (numeric_expect .rightBrace rfl).bind
  intro _ _
  exact numeric_leave

theorem numeric_declaration (n : Nat) : Numeric (declaration n) fun _ => True := by
  intro φ _ s hs
  refine ⟨hs, ?_⟩
  show Keeps keepingNumbers (ite _ _ _) s _
  split
  · exact keeps_function n hs ‹_›
  · exact numeric_declarators n φ s hs

theorem numeric_declarations (n : Nat) : Numeric (declarations n) fun _ => True := by
  apply (numeric_repeatWhile .declarations Kind.opensDeclaration (numeric_declaration n) n 1).bind
  intro _ _
  apply numeric_hand.bind
  intro t _
  split
  · exact numeric_unexpected rfl
  · exact numeric_pure trivial

theorem numeric_program (n : Nat) : (program n).Numeric fun _ => True := by
  apply (numeric_declarations n).bind
  intro _ _
  exact numeric_last .finish rfl

end OnePass.Pass
