-- The grammar functions keep in step, whatever their budgets are: first the
-- expressions, then the statements, then whole programs.
import OnePass.Proofs.Lockstep.Steps
import OnePass.Pass.Program

namespace OnePass

variable {φ ψ : Type} [Feed φ] [Feed ψ] {T : Tie φ ψ}

/-! ## Checks at tokens -/

namespace Tie

/-- A parameter and its renaming, at tokens that stand for each other. -/
def SameParameter (T : Tie φ ψ) (x y : Parameter × Token) : Prop :=
  y.1 = x.1.rename T.word ∧ T.same x.2 y.2

theorem checkSign_same {u w : Token} (h : T.same u w) (hs : u.kind.isSign = true)
    (t : ValueType) : checkSign w t = (checkSign u t).mapError (·.rename T.word) := by
  have hn : u.kind.isName = false := by
    revert hs
    cases u.kind <;> simp [Kind.isSign, Kind.isName]
  unfold checkSign
  rw [T.text_eq h hn]
  split <;> rfl

theorem checkOperands_same {u w : Token} {tier : List Operator} (h : T.same u w)
    (ho : u.kind.isOperatorOf tier = true) (l r : ValueType) :
    checkOperands l w r = (checkOperands l u r).mapError (·.rename T.word) := by
  have hn : u.kind.isName = false := by
    revert ho
    cases u.kind <;> simp [Kind.isOperatorOf, Kind.isName]
  unfold checkOperands
  rw [T.text_eq h hn, T.kind_eq h]
  dsimp only
  split <;> rfl

end Tie

namespace Lockstep

open Pass

/-! ## Expressions -/

theorem primary {f g : Unit → Pass ValueType} (h : Lockstep T Eq (f ()) (g ())) :
    Lockstep T Eq (Parse.primary f) (Parse.primary g) := by
  apply hand.bind
  intro u w huw
  rw [T.kind_eq huw]
  by_cases hn : u.kind.isName = true
  · rw [if_pos hn, if_pos hn, T.name_eq huw hn]
    apply (lookup u.text).bind
    rintro x _ rfl
    cases x with
    | none => exact refuse Eq (.unknownOperand u.text) huw
    | some x =>
      simp only [Option.map_some, Symbol.isFunction_rename, Symbol.type_rename]
      by_cases hf : x.role.isFunction = true
      · rw [if_pos hf, if_pos hf]
        exact refuse Eq (.functionOperand x.name) huw
      · rw [if_neg hf, if_neg hf]
        apply advance.bind
        intro _ _ _
        exact pure rfl
  · rw [if_neg hn, if_neg hn]
    cases u.kind.constantType? with
    | some type =>
      apply advance.bind
      intro _ _ _
      exact pure rfl
    | none =>
      by_cases hp : u.kind = .leftParen
      · simp only [hp, if_true]
        apply advance.bind
        intro _ _ _
        apply h.bind
        rintro type _ rfl
        apply (expect .rightParen .groupClose).bind
        intro _ _ _
        exact pure rfl
      · simp only [hp, if_false]
        exact unexpected Eq .operand

theorem signed {f g : Unit → Pass ValueType} (h : Lockstep T Eq (f ()) (g ())) :
    Lockstep T Eq (Parse.signed f) (Parse.signed g) := by
  apply hand.bind
  intro u w huw
  rw [T.kind_eq huw]
  by_cases hs : u.kind.isSign = true
  · rw [if_pos hs, if_pos hs]
    apply advance.bind
    intro _ _ _
    apply (primary h).bind
    rintro type _ rfl
    exact demand huw (T.checkSign_same huw hs type)
  · rw [if_neg hs, if_neg hs]
    exact primary h

theorem chain (tier : List Operator) {p q : Pass ValueType} (h : Lockstep T Eq p q) :
    ∀ n m k left, Lockstep T Eq (Parse.chain tier p k n left) (Parse.chain tier q k m left)
  | 0, _, _, _ => firstShort _ _
  | _ + 1, 0, _, _ => secondShort _ _
  | n + 1, m + 1, k, left => by
    apply hand.bind
    intro u w huw
    rw [T.kind_eq huw]
    by_cases ho : u.kind.isOperatorOf tier = true
    · rw [if_pos ho, if_pos ho]
      have hround : Lockstep T Eq
          (Pass.advance >>= fun _ => p >>= fun right => Pass.demand (checkOperands left u right) u)
          (Pass.advance >>= fun _ => q >>= fun right =>
            Pass.demand (checkOperands left w right) w) := by
        apply advance.bind
        intro _ _ _
        apply h.bind
        rintro right _ rfl
        exact demand huw (T.checkOperands_same huw ho left right)
      apply hround.bind
      rintro type _ rfl
      exact chain tier h n m (k + 1) type
    · rw [if_neg ho, if_neg ho]
      exact pure rfl

theorem tiered {p q : Pass ValueType} (h : Lockstep T Eq p q) (n m : Nat)
    (tiers : List (List Operator)) :
    Lockstep T Eq (Parse.tiered p n tiers) (Parse.tiered q m tiers) := by
  induction tiers with
  | nil =>
    rw [tiered_nil, tiered_nil]
    exact h
  | cons tier tiers ih =>
    rw [tiered_cons, tiered_cons]
    apply ih.bind
    rintro left _ rfl
    exact chain tier ih n m 1 left

theorem expression : ∀ n m, Lockstep T Eq (Pass.expression n) (Pass.expression m)
  | 0, _ => firstShort _ _
  | _ + 1, 0 => secondShort _ _
  | n + 1, m + 1 => tiered (signed (expression n m)) n m _

/-! ## Statements -/

theorem typeWord : Lockstep T Eq Parse.typeWord Parse.typeWord := by
  apply hand.bind
  intro u w huw
  rw [T.kind_eq huw]
  by_cases ht : u.kind.isTypeWord = true
  · rw [if_pos ht]
    apply advance.bind
    intro _ _ _
    exact pure rfl
  · rw [if_neg ht]
    exact unexpected Eq .typeWord

theorem declarator (n m : Nat) (type : ValueType) :
    Lockstep T Eq (Parse.declarator n type) (Parse.declarator m type) := by
  apply (expectName .variableName).bind
  rintro u w ⟨huw, hn⟩
  rw [T.name_eq huw hn]
  apply (declare ⟨u.text, .value type⟩ huw).bind
  intro _ _ _
  apply (accept .assign).bind
  rintro more _ rfl
  cases more with
  | false => exact pure rfl
  | true =>
    apply (expression n m).bind
    rintro value _ rfl
    exact demand huw (checkAssignment_rename T.word ⟨u.text, .value type⟩ value)

theorem names (n m : Nat) (type : ValueType) :
    Lockstep T Eq (Parse.names n type) (Parse.names m type) := by
  apply (separated .names (fun _ => declarator n m type) n m 1).bind
  intro _ _ _
  exact pure rfl

theorem declarators (n m : Nat) : Lockstep T Eq (Parse.declarators n) (Parse.declarators m) := by
  apply typeWord.bind
  rintro type _ rfl
  apply (names n m type).bind
  intro _ _ _
  apply (expect .semicolon .declarationEnd).bind
  intro _ _ _
  exact pure rfl

theorem argument (n m : Nat) (f : Symbol) (i : Nat) :
    Lockstep T Eq (Pass.argument n f i) (Pass.argument m (f.rename T.word) i) := by
  apply hand.bind
  intro u w huw
  apply (expression n m).bind
  rintro value _ rfl
  exact demand huw (checkArgument_rename T.word f i value)

theorem arguments (n m : Nat) (f : Symbol) {u w : Token} (h : T.same u w) :
    Lockstep T Eq (Parse.arguments n f u) (Parse.arguments m (f.rename T.word) w) := by
  apply hand.bind
  intro v x hv
  rw [T.kind_eq hv]
  by_cases hp : v.kind = .rightParen
  · rw [if_pos hp, if_pos hp]
    exact demand h (checkCount_rename T.word f 0)
  · rw [if_neg hp, if_neg hp]
    apply (separated .arguments (argument n m f) n m 1).bind
    intro given given' hg
    rw [← hg.length_eq]
    exact demand h (checkCount_rename T.word f given.length)

theorem call (n m : Nat) : Lockstep T Eq (Parse.call n) (Parse.call m) := by
  apply (expectName .callee).bind
  rintro u w ⟨huw, hn⟩
  rw [T.name_eq huw hn]
  apply (lookup u.text).bind
  rintro x _ rfl
  cases x with
  | none => exact refuse Eq (.unknownCallee u.text) huw
  | some f =>
    simp only [Option.map_some, Symbol.isFunction_rename]
    by_cases hf : f.role.isFunction = true
    · rw [if_pos hf, if_pos hf]
      apply (expect .leftParen .argumentsOpen).bind
      intro _ _ _
      apply (arguments n m f huw).bind
      intro _ _ _
      apply (expect .rightParen .argumentsClose).bind
      intro _ _ _
      exact pure rfl
    · rw [if_neg hf, if_neg hf]
      exact refuse Eq (.notCallable u.text) huw

theorem assignment (n m : Nat) : Lockstep T Eq (Parse.assignment n) (Parse.assignment m) := by
  apply (expectName .target).bind
  rintro u w ⟨huw, hn⟩
  rw [T.name_eq huw hn]
  apply (lookup u.text).bind
  rintro x _ rfl
  cases x with
  | none => exact refuse Eq (.unknownTarget u.text) huw
  | some target =>
    apply (expect .assign .assignSign).bind
    intro _ _ _
    apply (expression n m).bind
    rintro value _ rfl
    exact demand huw (checkAssignment_rename T.word target value)

theorem block {p q : Pass Unit} (h : Lockstep T Eq p q) (n m : Nat) :
    Lockstep T Eq (Parse.block p n) (Parse.block q m) := by
  apply (expect .leftBrace .blockOpen).bind
  intro _ _ _
  apply enter.bind
  intro _ _ _
  apply (repeatWhile .statements Kind.opensStatement h n m 1).bind
  intro _ _ _
  apply leave.bind
  intro _ _ _
  apply (expect .rightBrace .blockClose).bind
  intro _ _ _
  exact pure rfl

theorem loop {p q : Pass Unit} (h : Lockstep T Eq p q) (n m : Nat) :
    Lockstep T Eq (Parse.loop p n) (Parse.loop q m) := by
  apply (expect .whileWord .loopStart).bind
  intro _ _ _
  apply (expect .leftParen .conditionOpen).bind
  intro _ _ _
  apply hand.bind
  intro u w huw
  apply (expression n m).bind
  rintro value _ rfl
  have hc : checkCondition value = (checkCondition value).mapError (·.rename T.word) := by
    unfold checkCondition
    split <;> rfl
  apply (demand huw hc).bind
  intro _ _ _
  apply (expect .rightParen .conditionClose).bind
  intro _ _ _
  exact h

/-- A statement that starts with a name puts the name away first. -/
theorem left_named_le (n : Nat) (k : Kind) {s : Stand φ} (hs : s.hand.kind.isName = true) :
    ((if k = .leftParen then do
        Parse.call n
        let _ ← Pass.expect .semicolon .callEnd
      else do
        Parse.assignment n
        let _ ← Pass.expect .semicolon .assignmentEnd : Pass Unit).run s).stand.left ≤
      s.pull.left := by
  have hname : ∀ (e : Expectation) (f : Token → Pass Unit),
      ((Pass.expectName e >>= f).run s).stand.left ≤ s.pull.left := by
    intro e f
    rw [run_bind, run_expectName, if_pos hs, run_advance, ← Stand.stand_advance,
      Outcome.andThen_assoc]
    apply Outcome.left_andThen_le
    intro _ t
    exact (f s.hand).left_run_le t
  by_cases hk : k = .leftParen
  · rw [if_pos hk, Parse.call, within_eq, bind_assoc]
    exact hname _ _
  · rw [if_neg hk, Parse.assignment, within_eq, bind_assoc]
    exact hname _ _

theorem statement : ∀ n m, Lockstep T Eq (Pass.statement n) (Pass.statement m)
  | 0, _ => firstShort _ _
  | _ + 1, 0 => secondShort _ _
  | n + 1, m + 1 => by
    intro s t hs
    unfold Pass.statement Parse.statement
    simp only [within_eq, monadLift_eq_step, step_eq, run_bind, run_hand, Outcome.andThen_done]
    rw [T.kind_eq hs.hand]
    by_cases hn : s.hand.kind.isName = true
    · rw [if_pos hn, if_pos hn]
      apply peek hs
      · intro k u hu
        exact left_named_le n k (by rw [hu]; exact hn)
      · intro k
        by_cases hk : k = .leftParen
        · rw [if_pos hk, if_pos hk]
          apply (call n m).bind
          intro _ _ _
          apply (expect .semicolon .callEnd).bind
          intro _ _ _
          exact pure rfl
        · rw [if_neg hk, if_neg hk]
          apply (assignment n m).bind
          intro _ _ _
          apply (expect .semicolon .assignmentEnd).bind
          intro _ _ _
          exact pure rfl
    · rw [if_neg hn, if_neg hn]
      by_cases ht : s.hand.kind.isTypeWord = true
      · rw [if_pos ht, if_pos ht]
        exact declarators n m s t hs
      · rw [if_neg ht, if_neg ht]
        split
        · exact block (statement n m) n m s t hs
        · exact loop (statement n m) n m s t hs
        · apply (advance.bind fun _ _ _ => pure rfl) s t hs
        · exact unexpected Eq .statement s t hs

/-! ## Programs -/

theorem parameter : Lockstep T T.SameParameter Parse.parameter Parse.parameter := by
  apply typeWord.bind
  rintro type _ rfl
  apply (expect .name .parameterName).bind
  rintro u w ⟨huw, hk⟩
  apply pure
  refine ⟨?_, huw⟩
  have hn : u.kind.isName = true := by
    rw [hk]
    rfl
  rw [T.name_eq huw hn]
  rfl

theorem parameters (n m : Nat) :
    Lockstep T (List.Forall₂ T.SameParameter) (Parse.parameters n) (Parse.parameters m) := by
  apply hand.bind
  intro u w huw
  rw [T.kind_eq huw]
  by_cases ht : u.kind.isTypeWord = true
  · rw [if_pos ht, if_pos ht]
    apply (separated .parameters (fun _ => parameter) n m 1).bind
    intro ps qs hpq
    apply hand.bind
    intro v x hv
    rw [T.kind_eq hv]
    by_cases hw : v.kind.isTypeWord = true
    · rw [if_pos hw, if_pos hw]
      exact unexpected _ .commaBetweenParameters
    · rw [if_neg hw, if_neg hw]
      exact pure hpq
  · rw [if_neg ht, if_neg ht]
    exact pure .nil

theorem declareParameters (k : Nat) {ps qs : List (Parameter × Token)}
    (h : List.Forall₂ T.SameParameter ps qs) :
    Lockstep T Eq (Parse.declareParameters k ps) (Parse.declareParameters k qs) := by
  induction h generalizing k with
  | nil => exact pure rfl
  | @cons x y ps qs hxy _ ih =>
    obtain ⟨p, u⟩ := x
    obtain ⟨_, w⟩ := y
    obtain ⟨rfl, huw⟩ := hxy
    apply (declare ⟨p.name, .parameter p.type⟩ huw).bind
    intro _ _ _
    exact ih (k + 1)

theorem function (n m : Nat) : Lockstep T Eq (Parse.function n) (Parse.function m) := by
  apply (expect .voidWord .functionStart).bind
  intro _ _ _
  apply (expectName .functionName).bind
  rintro u w ⟨huw, hn⟩
  apply (expect .leftParen .parametersOpen).bind
  intro _ _ _
  apply (parameters n m).bind
  intro ps qs hpq
  have hmap : qs.map (·.1) = (ps.map (·.1)).map (·.rename T.word) := by
    induction hpq with
    | nil => rfl
    | cons hxy _ ih => rw [List.map_cons, hxy.1, ih, List.map_cons, List.map_cons]
  rw [T.name_eq huw hn, hmap, ← hpq.length_eq]
  apply (expect .rightParen .parametersClose).bind
  intro _ _ _
  apply (declare ⟨u.text, .function .void (ps.map (·.1))⟩ huw).bind
  intro _ _ _
  apply (headed u.text ps.length).bind
  intro _ _ _
  apply enter.bind
  intro _ _ _
  apply (declareParameters 1 hpq).bind
  intro _ _ _
  apply (expect .leftBrace .bodyOpen).bind
  intro _ _ _
  apply (repeatWhile .statements Kind.opensStatement (statement n m) n m 1).bind
  intro _ _ _
  apply (expect .rightBrace .bodyClose).bind
  intro _ _ _
  exact leave

theorem declaration (n m : Nat) : Lockstep T Eq (Parse.declaration n) (Parse.declaration m) := by
  apply hand.bind
  intro u w huw
  rw [T.kind_eq huw]
  by_cases hk : u.kind = .voidWord
  · rw [if_pos hk, if_pos hk]
    exact function n m
  · rw [if_neg hk, if_neg hk]
    exact declarators n m

theorem declarations (n m : Nat) :
    Lockstep T Eq (Parse.declarations n) (Parse.declarations m) := by
  apply (repeatWhile .declarations Kind.opensDeclaration (declaration n m) n m 1).bind
  intro _ _ _
  apply hand.bind
  intro u w huw
  rw [T.kind_eq huw]
  by_cases hk : u.kind = .name
  · rw [if_pos hk]
    exact unexpected Eq .declarationBeforeName
  · rw [if_neg hk]
    exact pure rfl

/-- Whole programs keep in step. -/
theorem program (n m : Nat) : Lockstep T Eq (Pass.program n) (Pass.program m) := by
  apply (declarations n m).bind
  intro _ _ _
  apply (expect .finish .endOfProgram).bind
  intro _ _ _
  exact pure rfl

end Lockstep

end OnePass
