-- Every pass of the grammar takes what trees of its own kind spell, and
-- finds what their checks find. The induction is on the budget, as in the
-- definition of the pass.
import Mathlib.Logic.Nonempty
import OnePass.Proofs.Grammar.Yields

namespace OnePass

open Grammar

variable {α β : Type}

/-! ## Repetition -/

instance [h : Nonempty β] : Nonempty (Commas β) := h.map fun x => ⟨x, []⟩

theorem Yields.repeatWhile {l : Repetition} {opens : Kind → Bool} {body : Pass Unit}
    {spell : β → List Token} {check : β → Check Unit} (h : ∀ t, Yields t body spell check)
    (k n : Nat) (t : Token) :
    Yields t (Parse.repeatWhile l opens body k n) (fun xs : List β => xs.flatMap spell)
      fun xs => forM xs check := by
  induction n generalizing k t with
  | zero => exact .exhausted
  | succ n ih =>
    apply hand_bind
    by_cases ht : opens t.kind = true
    · rw [if_pos ht]
      refine ((h t).bind fun _ u => ih (k + 1) u).mono ?_
      intro x
      exact ⟨x.1 :: x.2, List.flatMap_cons, List.forM_cons⟩
    · rw [if_neg ht]
      refine (still (.pure ())).mono ?_
      intro _
      exact ⟨[], rfl, rfl⟩

/-- A comma is followed by another list, and no comma ends it. -/
theorem Yields.separated [Nonempty β] {l : Repetition} {item : Nat → Pass α}
    {spell : β → List Token} {check : Nat → β → Check α} (h : ∀ i t, Yields t (item i) spell (check i)) (i n : Nat)
    (t : Token) :
    Yields t (Parse.separated l item i n) (Commas.spelling spell) fun xs =>
      collect check i xs.toList := by
  induction n generalizing i t with
  | zero => exact .exhausted
  | succ n ih =>
    have hmore : ∀ a u, Yields u (do
        if ← Pass.accept .comma then
          let as ← Parse.separated l item (i + 1) n
          return a :: as
        else return [a])
        (fun xs : List (Of .comma × β) => xs.flatMap fun x => x.1.1 :: spell x.2)
        fun xs => do
          let as ← collect check (i + 1) (xs.map (·.2))
          return a :: as := by
      intro a u
      apply accept_bind (g := Commas.spelling spell) (by simp)
      · intro u
        exact (ih (i + 1) u).bind_still fun as => .pure _
      · refine (still (.pure [a])).mono ?_
        intro _
        exact ⟨[], rfl, by rw [List.map_nil, collect, pure_bind]⟩
      · intro x y
        exact ⟨(x, y.first) :: y.more, rfl, rfl⟩
    rw [Pass.separated_succ]
    refine ((h i t).bind hmore).mono ?_
    intro x
    exact ⟨⟨x.1, x.2⟩, rfl, by rw [Commas.toList, collect]⟩

/-! ## Expressions -/

instance : Nonempty Primary := Nonempty.map .name inferInstance

instance nonempty_tiered : (tiers : List (List Operator)) → Nonempty (Tiered tiers)
  | [] => Nonempty.map .plain inferInstance
  | _ :: tiers => (nonempty_tiered tiers).map .lift

theorem yields_primary {inner : Unit → Pass ValueType}
    (h : ∀ t, Yields t (inner ()) (fun x : Expression => x.spelling) Tiered.check) (t : Token) :
    Yields t (Parse.primary inner) Primary.spelling Primary.check := by
  apply Yields.hand_bind
  by_cases hn : t.kind.isName = true
  · rw [if_pos hn]
    refine Yields.mono (f := fun _ : Unit => [t])
      (c := fun _ => Primary.check (.name ⟨t, hn⟩)) ?_ ?_
    · simp only [Primary.check]
      apply Yields.still_bind (.lookup _)
      intro x
      cases x with
      | none => exact .refuse _ _
      | some x =>
        dsimp only
        by_cases hf : x.role.isFunction = true
        · rw [if_pos hf, if_pos hf]
          exact .refuse _ _
        · rw [if_neg hf, if_neg hf]
          exact Yields.advance_bind (d := fun _ _ => pure x.type) (Kind.ne_finish_of_isName hn)
            fun _ _ => .still (.pure x.type)
    · intro _
      exact ⟨.name ⟨t, hn⟩, by rw [Primary.spelling], rfl⟩
  · rw [if_neg hn]
    cases hc : t.kind.constantType? with
    | some type =>
      refine (Yields.advance_bind (Kind.ne_finish_of_constantType? hc) fun _ _ =>
        .still (.pure type)).mono ?_
      intro _
      exact ⟨.constant ⟨t, by rw [hc]; rfl⟩, by rw [Primary.spelling], by
        rw [Primary.check, hc]; rfl⟩
    | none =>
      dsimp only
      by_cases hl : t.kind = .leftParen
      · rw [if_pos hl]
        refine (Yields.advance_bind (by rw [hl]; simp) fun _ u => (h u).bind fun type _ =>
          (Yields.expect .groupClose (by simp)).bind_still fun _ => .pure type).mono ?_
        intro x
        exact ⟨.group ⟨t, hl⟩ x.1 x.2, by rw [Primary.spelling], by simp [Primary.check]⟩
      · rw [if_neg hl]
        exact .unexpected _

theorem yields_signed {inner : Unit → Pass ValueType}
    (h : ∀ t, Yields t (inner ()) (fun x : Expression => x.spelling) Tiered.check) (t : Token) :
    Yields t (Parse.signed inner) (fun x : Tiered [] => x.spelling) Tiered.check := by
  apply Yields.hand_bind
  by_cases hs : t.kind.isSign = true
  · rw [if_pos hs]
    refine (Yields.advance_bind (Kind.ne_finish_of_isSign hs) fun _ u =>
      (yields_primary h u).bind_still fun _ => .demand _ _).mono ?_
    intro x
    exact ⟨.signed ⟨t, hs⟩ x, by rw [Tiered.spelling], by rw [Tiered.check]⟩
  · rw [if_neg hs]
    refine (yields_primary h t).mono ?_
    intro x
    exact ⟨.plain x, by rw [Tiered.spelling], by rw [Tiered.check]⟩

/-! ## Chains -/

section

variable {tier : List Operator} {tiers : List (List Operator)}

/-- A tree with operators of one tier put behind it, each with its right
operand. -/
def Grammar.Tiered.joinAll (x : Tiered (tier :: tiers))
    (more : List (OperatorOf tier × Tiered tiers)) : Tiered (tier :: tiers) :=
  more.foldl (fun left y => .join left y.1 y.2) x

theorem Grammar.Tiered.spelling_joinAll (x : Tiered (tier :: tiers))
    (more : List (OperatorOf tier × Tiered tiers)) :
    (x.joinAll more).spelling = x.spelling ++ more.flatMap fun y => y.1.1 :: y.2.spelling := by
  induction more generalizing x with
  | nil => exact (List.append_nil _).symm
  | cons y more ih =>
    have h : x.joinAll (y :: more) = (Tiered.join x y.1 y.2).joinAll more := rfl
    rw [h, ih, Tiered.spelling, List.flatMap_cons, List.append_assoc]

/-- The type of a chain, with operands taken from the left. -/
def checkChain : List (OperatorOf tier × Tiered tiers) → ValueType → Check ValueType
  | [], left => return left
  | y :: more, left => do
    let right ← y.2.check
    let type ← Check.demand (checkOperands left y.1.1 right) y.1.1
    checkChain more type

theorem Grammar.Tiered.check_joinAll (x : Tiered (tier :: tiers))
    (more : List (OperatorOf tier × Tiered tiers)) :
    (x.joinAll more).check = x.check >>= checkChain more := by
  induction more generalizing x with
  | nil => exact (bind_pure x.check).symm
  | cons y more ih =>
    have h : x.joinAll (y :: more) = (Tiered.join x y.1 y.2).joinAll more := rfl
    rw [h, ih, Tiered.check]
    simp only [bind_assoc, checkChain]

theorem yields_chain {operand : Pass ValueType}
    (h : ∀ t, Yields t operand (fun x : Tiered tiers => x.spelling) Tiered.check) (k n : Nat)
    (left : ValueType) (t : Token) :
    Yields t (Parse.chain tier operand k n left)
      (fun more : List (OperatorOf tier × Tiered tiers) =>
        more.flatMap fun y => y.1.1 :: y.2.spelling)
      fun more => checkChain more left := by
  induction n generalizing k left t with
  | zero => exact .exhausted
  | succ n ih =>
    apply Yields.hand_bind
    by_cases ho : t.kind.isOperatorOf tier = true
    · rw [if_pos ho]
      simp only [Pass.within_eq, bind_assoc]
      refine (Yields.advance_bind (Kind.ne_finish_of_isOperatorOf ho) fun _ u =>
        (h u).bind fun _ v => .still_bind (.demand _ _) fun type => ih (k + 1) type v).mono ?_
      intro x
      exact ⟨(⟨t, ho⟩, x.1) :: x.2, rfl, rfl⟩
    · rw [if_neg ho]
      refine (Yields.still (.pure left)).mono ?_
      intro _
      exact ⟨[], rfl, rfl⟩

end

theorem yields_tiered {operand : Pass ValueType}
    (h : ∀ t, Yields t operand (fun x : Tiered [] => x.spelling) Tiered.check) (n : Nat) :
    ∀ (tiers : List (List Operator)) (t : Token),
      Yields t (Parse.tiered operand n tiers) (fun x : Tiered tiers => x.spelling) Tiered.check
  | [], t => by
    rw [Pass.tiered_nil]
    exact h t
  | tier :: tiers, t => by
    rw [Pass.tiered_cons]
    refine ((yields_tiered h n tiers t).bind fun left u =>
      yields_chain (yields_tiered h n tiers) 1 n left u).mono ?_
    intro x
    refine ⟨(Tiered.lift x.1).joinAll x.2, ?_, ?_⟩
    · rw [Tiered.spelling_joinAll, Tiered.spelling]
    · rw [Tiered.check_joinAll, Tiered.check]

theorem yields_expression (n : Nat) (t : Token) :
    Yields t (Pass.expression n) (fun x : Expression => x.spelling) Tiered.check := by
  induction n generalizing t with
  | zero => exact .exhausted
  | succ n ih => exact yields_tiered (yields_signed ih) n Operator.tiers t

end OnePass
