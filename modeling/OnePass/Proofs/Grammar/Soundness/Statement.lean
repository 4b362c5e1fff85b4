-- Soundness goes on from expressions to statements.
import OnePass.Proofs.Grammar.Soundness.Expression

namespace OnePass

open Grammar

/-! ## Variables -/

instance : Nonempty TypeWord := ⟨⟨⟨.intWord, "", 0, ⟨0, 0⟩⟩, rfl⟩⟩

instance : Nonempty Item := Nonempty.map .bare inferInstance

theorem yields_typeWord (t : Token) :
    Yields t Parse.typeWord (fun x : TypeWord => [x.1]) fun x => pure x.1.kind.wordType := by
  apply Yields.hand_bind
  by_cases ht : t.kind.isTypeWord = true
  · rw [if_pos ht]
    refine (Yields.advance_bind (Kind.ne_finish_of_isTypeWord ht) fun _ _ =>
      .still (.pure t.kind.wordType)).mono ?_
    intro _
    exact ⟨⟨t, ht⟩, rfl, rfl⟩
  · rw [if_neg ht]
    exact .unexpected _

/-- The sign and the value in an assignment. -/
def spellAssigned (x : Of .assign × Expression) : List Token := x.1.1 :: x.2.spelling

/-- What follows a name that is declared. -/
def spellValue : Option (Of .assign × Expression) → List Token
  | none => []
  | some x => spellAssigned x

/-- The first value of a variable that was declared, if it has one. -/
def checkValue (target : Symbol) (name : Token) : Option (Of .assign × Expression) → Check Unit
  | none => return
  | some x => do
    let value ← x.2.check
    Check.demand (checkAssignment target value) name

theorem yields_item (n : Nat) (type : ValueType) (t : Token) :
    Yields t (Parse.declarator n type) Item.spelling (Item.check type) := by
  have hvalue : ∀ (name : Token) (u : Token), Yields u (do
      if ← Pass.accept .assign then
        let value ← Pass.expression n
        Pass.demand (checkAssignment ⟨name.text, .value type⟩ value) name)
      spellValue (checkValue ⟨name.text, .value type⟩ name) := by
    intro name u
    apply Yields.accept_bind (g := fun x : Expression => x.spelling) (by simp)
    · intro v
      exact (yields_expression n v).bind_still fun _ => .demand _ _
    · refine (Yields.still (.pure ())).mono ?_
      intro _
      exact ⟨none, rfl, rfl⟩
    · intro x y
      exact ⟨some (x, y), rfl, rfl⟩
  refine ((Yields.expectName .variableName).bind fun name u =>
    .still_bind (.declare _ _) fun _ => hvalue name u).mono ?_
  rintro ⟨name, value⟩
  cases value with
  | none => exact ⟨.bare name, rfl, (bind_pure (Check.declare _ name.1)).symm⟩
  | some x => exact ⟨.valued name x.1 x.2, rfl, rfl⟩

theorem yields_names (n : Nat) (type : ValueType) (t : Token) :
    Yields t (Parse.names n type) (Commas.spelling Item.spelling) fun xs =>
      forM xs.toList fun i => i.check type := by
  refine ((Yields.separated (fun _ => yields_item n type) 1 n t).bind_still fun _ =>
    .pure ()).mono ?_
  intro xs
  refine ⟨xs, rfl, ?_⟩
  simp only [collect_unit, forM_zipIdx, bind_assoc, pure_bind, bind_pure_unit]

theorem yields_variables (n : Nat) (t : Token) :
    Yields t (Parse.declarators n) Variables.spelling Variables.check := by
  refine ((yields_typeWord t).bind fun type u => (yields_names n type u).bind fun _ _ =>
    (Yields.expect .declarationEnd (by simp)).bind_still fun _ => .pure ()).mono ?_
  rintro ⟨word, items, stop⟩
  exact ⟨⟨word, items, stop⟩, rfl, by simp [Variables.check]⟩

/-! ## Calls and assignments -/

theorem yields_argument (n : Nat) (f : Symbol) (i : Nat) (t : Token) :
    Yields t (Pass.argument n f i) (fun x : Expression => x.spelling) (checkArgumentOf f i) := by
  apply Yields.hand_bind
  have h := ((yields_expression n t).with_head Tiered.spelling_eq).bind_still fun x =>
    .demand (checkArgument f i x.2) x.1
  simp only [bind_assoc, pure_bind] at h
  exact h

theorem yields_arguments (n : Nat) (f : Symbol) (name t : Token) :
    Yields t (Parse.arguments n f name) spellArguments (fun xs => do
      checkArguments f (argumentList xs)
      Check.demand (checkCount f (argumentList xs).length) name) := by
  apply Yields.hand_bind
  by_cases ht : t.kind = .rightParen
  · rw [if_pos ht]
    refine (Yields.still (.demand _ _)).mono ?_
    intro _
    exact ⟨none, rfl, rfl⟩
  · rw [if_neg ht]
    refine ((Yields.separated (yields_argument n f) 1 n t).bind_still fun _ =>
      .demand _ _).mono ?_
    intro xs
    refine ⟨some xs, rfl, ?_⟩
    simp [collect_unit, checkArguments, argumentList]

/-- What follows the name in a call. -/
def spellCall (x : Of .leftParen × Option (Commas Expression) × Of .rightParen) : List Token :=
  x.1.1 :: (spellArguments x.2.1 ++ [x.2.2.1])

theorem yields_call (n : Nat) (t : Token) :
    Yields t (Parse.call n) (fun x : Name × _ => [x.1.1] ++ spellCall x.2)
      fun x => checkCall x.1.1 (argumentList x.2.2.1) := by
  refine ((Yields.expectName .callee).bind (g := spellCall)
    (d := fun name x => checkCall name (argumentList x.2.1)) ?_).mono ?_
  · intro name u
    simp only [checkCall]
    apply Yields.still_bind (.lookup _)
    intro x
    cases x with
    | none => exact .refuse _ _
    | some f =>
      dsimp only
      by_cases hf : f.role.isFunction = true
      · simp only [if_pos hf]
        refine ((Yields.expect .argumentsOpen (by simp)).bind fun _ v =>
          (yields_arguments n f name v).bind fun _ _ =>
            (Yields.expect .argumentsClose (by simp)).bind_still fun _ => .pure ()).mono ?_
        intro x
        exact ⟨x, rfl, by simp⟩
      · simp only [if_neg hf]
        exact .refuse _ _
  · intro x
    exact ⟨x, rfl, by rw [pure_bind]⟩

theorem yields_assignment (n : Nat) (t : Token) :
    Yields t (Parse.assignment n) (fun x : Name × _ => [x.1.1] ++ spellAssigned x.2)
      fun x => checkAssign x.1.1 x.2.2 := by
  refine ((Yields.expectName .target).bind (g := spellAssigned)
    (d := fun name x => checkAssign name x.2) ?_).mono ?_
  · intro name u
    simp only [checkAssign]
    apply Yields.still_bind (.lookup _)
    intro x
    cases x with
    | none => exact .refuse _ _
    | some target =>
      refine ((Yields.expect .assignSign (by simp)).bind fun _ v =>
        (yields_expression n v).bind_still fun _ => .demand _ _).mono ?_
      intro x
      exact ⟨x, rfl, by simp⟩
  · intro x
    exact ⟨x, rfl, by rw [pure_bind]⟩

/-! ## Statements -/

instance : Nonempty Statement := Nonempty.map .empty inferInstance

theorem Grammar.spellBody_eq (xs : List Statement) :
    spellBody xs = xs.flatMap Statement.spelling := by
  induction xs with
  | nil => rw [spellBody, List.flatMap_nil]
  | cons x xs ih => rw [spellBody, List.flatMap_cons, ih]

theorem yields_body {p : Pass Unit} (h : ∀ t, Yields t p Statement.spelling Statement.check)
    (n : Nat) (t : Token) : Yields t (Parse.statements p n) spellBody checkBody := by
  refine (Yields.repeatWhile h 1 n t).mono ?_
  intro xs
  exact ⟨xs, spellBody_eq xs, checkBody_eq xs⟩

theorem yields_block {p : Pass Unit} (h : ∀ t, Yields t p Statement.spelling Statement.check)
    (n : Nat) (t : Token) : Yields t (Parse.block p n) Statement.spelling Statement.check := by
  refine ((Yields.expect .blockOpen (by simp)).bind fun _ u => .still_bind .enter fun _ =>
    (yields_body h n u).bind fun _ _ => .still_bind .leave fun _ =>
      (Yields.expect .blockClose (by simp)).bind_still fun _ => .pure ()).mono ?_
  rintro ⟨l, body, r⟩
  refine ⟨.block l body r, ?_, ?_⟩
  · rw [Statement.spelling]
    rfl
  · simp [Statement.check]

theorem yields_loop {p : Pass Unit} (h : ∀ t, Yields t p Statement.spelling Statement.check)
    (n : Nat) (t : Token) : Yields t (Parse.loop p n) Statement.spelling Statement.check := by
  have hcondition : ∀ u, Yields u (do
      let first ← Pass.hand
      let value ← Pass.expression n
      Pass.demand (checkCondition value) first
      let _ ← Pass.expect .rightParen .conditionClose
      p) (fun x : Expression × Of .rightParen × Statement =>
        x.1.spelling ++ ([x.2.1.1] ++ x.2.2.spelling)) (fun x => do
      let value ← x.1.check
      Check.demand (checkCondition value) x.1.head
      x.2.2.check) := by
    intro u
    apply Yields.hand_bind
    have h := ((yields_expression n u).with_head Tiered.spelling_eq).bind fun x _ =>
      .still_bind (.demand (checkCondition x.2) x.1) fun _ =>
        (Yields.expect (k := .rightParen) .conditionClose (by simp)).bind fun _ => h
    simp only [bind_assoc, pure_bind] at h
    exact h
  refine ((Yields.expect .loopStart (by simp)).bind fun _ _ =>
    (Yields.expect .conditionOpen (by simp)).bind fun _ u => hcondition u).mono ?_
  rintro ⟨w, l, e, r, body⟩
  refine ⟨.loop w l e r body, ?_, ?_⟩
  · rw [Statement.spelling]
    rfl
  · simp [Statement.check]

theorem yields_statement (n : Nat) (t : Token) :
    Yields t (Pass.statement n) Statement.spelling Statement.check := by
  induction n generalizing t with
  | zero => exact .exhausted
  | succ n ih =>
    apply Yields.hand_bind
    by_cases hn : t.kind.isName = true
    · rw [if_pos hn]
      apply Yields.peek_bind
      intro k
      by_cases hk : k = .leftParen
      · rw [if_pos hk]
        refine ((yields_call n t).bind fun _ _ =>
          (Yields.expect .callEnd (by simp)).bind_still fun _ => .pure ()).mono ?_
        rintro ⟨⟨name, l, args, r⟩, stop⟩
        refine ⟨.call name l args r stop, ?_, ?_⟩
        · simp [Statement.spelling, spellCall]
        · simp [Statement.check]
      · rw [if_neg hk]
        refine ((yields_assignment n t).bind fun _ _ =>
          (Yields.expect .assignmentEnd (by simp)).bind_still fun _ => .pure ()).mono ?_
        rintro ⟨⟨name, sign, e⟩, stop⟩
        refine ⟨.assign name sign e stop, ?_, ?_⟩
        · simp [Statement.spelling, spellAssigned]
        · simp [Statement.check]
    · rw [if_neg hn]
      by_cases ht : t.kind.isTypeWord = true
      · rw [if_pos ht]
        refine (yields_variables n t).mono ?_
        intro x
        exact ⟨.declare x, by rw [Statement.spelling], by rw [Statement.check]⟩
      · rw [if_neg ht]
        split
        · exact yields_block ih n t
        · exact yields_loop ih n t
        · rename_i hs
          refine (Yields.advance_bind (by rw [hs]; simp) fun _ _ => .still (.pure ())).mono ?_
          intro _
          exact ⟨.empty ⟨t, hs⟩, by rw [Statement.spelling], by rw [Statement.check]⟩
        · exact .unexpected _

end OnePass
