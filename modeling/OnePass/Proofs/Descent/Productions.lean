-- Each production is orderly wherever there is room for it, and so is the
-- whole program. All but the lists of statements, parameters and arguments
-- put a token away.
import OnePass.Proofs.Descent.Steps

namespace OnePass.Descent

open Pass (still_lookup still_peek still_enter still_leave still_headed still_demand still_declare)
open Descends Parse

/-! ## Expressions -/

theorem reads_primary {inner : Unit → Descent ValueType}
    (hinner : ∀ u j, Goes u ranks j (inner ())) (t : Token) (i : Nat) :
    Reads t (Production.primary.rank + 1) i (primary inner) := by
  apply Descends.call (by decide)
  apply hand_bind
  split
  · rename_i hk
    refine still_bind (still_lookup _) fun x => ?_
    split
    · exact Descends.refuse _ _
    · split
      · exact Descends.refuse _ _
      · exact (Descends.advance (Kind.ne_finish_of_isName hk)).bind fun _ _ _ => goes_pure _
  · split
    · exact (Descends.advance (Kind.ne_finish_of_constantType? ‹_›)).bind fun _ _ _ => goes_pure _
    · split
      · rename_i hk
        exact (Descends.advance (by simp [hk])).bind fun _ j u => (hinner u j).bind fun _ j u =>
          (Descends.expect (by simp) _).goes.bind fun _ _ _ => goes_pure _
      · exact Descends.unexpected _

theorem reads_signed {inner : Unit → Descent ValueType}
    (hinner : ∀ u j, Goes u ranks j (inner ())) (t : Token) (i : Nat) :
    Reads t (Production.signed.rank + 1) i (signed inner) := by
  apply Descends.call (by decide)
  apply hand_bind
  split
  · rename_i hk
    exact (Descends.advance (Kind.ne_finish_of_isSign hk)).bind fun _ j u =>
      ((reads_primary hinner u j).goes.raise (by decide)).bind fun _ _ _ => still (still_demand _ _)
  · exact reads_primary hinner t i

/-- Every tier has a rank of its own, above those of the tiers behind it. -/
theorem reads_tiered {operand : Descent ValueType} (hop : ∀ u j, Reads u 2 j operand) (n : Nat)
    (tiers : List (List Operator)) (hlow : tiers.length + 2 ≤ ranks) (t : Token) (i : Nat) :
    Reads t (tiers.length + 2) i (tiered operand n tiers) := by
  induction tiers generalizing t i with
  | nil => exact hop t i
  | cons tier tiers ih =>
    have hlow' : tiers.length + 2 ≤ ranks := Nat.le_of_succ_le hlow
    refine Descends.call (p := .tier (tier :: tiers)) hlow ?_
    refine (ih hlow' t i).bind fun left j u => ?_
    exact (Descends.chain (fun u j => (ih hlow' u j).goes.raise hlow') u j 1 n left
      (Nat.le_add_left 1 j)).raise (by decide)

theorem reads_expression (n : Nat) (t : Token) (i : Nat) :
    Reads t (Operator.tiers.length + 2) i (expression n) := by
  induction n generalizing t i with
  | zero => exact descends_exhausted
  | succ n ih =>
    exact reads_tiered (reads_signed fun u j => (ih u j).goes.raise (by decide)) n _ (by decide) t i

theorem goes_expression (n : Nat) (t : Token) (i : Nat) : Goes t ranks i (expression n) :=
  (reads_expression n t i).goes.raise (by decide)

/-! ## Variables -/

theorem reads_typeWord (t : Token) (i : Nat) :
    Reads t (Production.typeWord.rank + 1) i typeWord := by
  apply Descends.call (by decide)
  apply hand_bind
  split
  · exact (Descends.advance (Kind.ne_finish_of_isTypeWord ‹_›)).bind fun _ _ _ => goes_pure _
  · exact Descends.unexpected _

theorem reads_declarator (n : Nat) (type : ValueType) (t : Token) (r i : Nat) :
    Reads t r i (declarator n type) := by
  refine (Descends.expectName _).bind fun name j u => still_bind (still_declare _ _) fun _ => ?_
  refine (Descends.accept (by simp)).bind fun more j u => ?_
  split
  · exact (goes_expression n u j).bind fun _ _ _ => still (still_demand _ _)
  · exact goes_pure ()

theorem reads_names (n : Nat) (type : ValueType) (t : Token) (i : Nat) :
    Reads t (Production.names.rank + 1) i (names n type) := by
  apply Descends.call (by decide)
  refine Reads.bind ?_ fun _ _ _ => goes_pure ()
  exact (Descends.separated .names (fun _ u j => reads_declarator n type u _ j) t i 1 n
    (Nat.le_add_left 1 i)).imp (by decide) fun _ _ _ h => h.1

theorem reads_declarators (n : Nat) (t : Token) (i : Nat) :
    Reads t (Production.declarators.rank + 1) i (declarators n) := by
  apply Descends.call (by decide)
  refine (reads_typeWord t i).bind fun type j u => ?_
  refine ((reads_names n type u j).goes.raise (by decide)).bind fun _ j u => ?_
  exact Descends.expect_last (by simp) _

/-! ## Calls and assignments -/

theorem reads_argument (n : Nat) (f : Symbol) (k : Nat) (t : Token) (i : Nat) :
    Reads t Repetition.arguments.rank i (argument n f k) := by
  apply hand_bind
  exact ((reads_expression n t i).raise (by decide)).bind fun _ _ _ => still (still_demand _ _)

theorem goes_arguments (n : Nat) (f : Symbol) (name t : Token) (i : Nat) :
    Goes t (Production.arguments.rank + 1) i (arguments n f name) := by
  apply Descends.call (by decide)
  apply hand_bind
  split
  · exact still (still_demand _ _)
  · exact (Descends.separated .arguments (reads_argument n f) t i 1 n (Nat.le_add_left 1 i)).bind
      fun _ _ _ _ _ => still (still_demand _ _)

theorem reads_call (n : Nat) (t : Token) (i : Nat) :
    Reads t (Production.call.rank + 1) i (call n) := by
  apply Descends.call (by decide)
  refine (Descends.expectName _).bind fun name j u => still_bind (still_lookup _) fun x => ?_
  split
  · exact Descends.refuse _ _
  · split
    · refine (Descends.expect (by simp) _).goes.bind fun _ j u => ?_
      refine (goes_arguments n _ name u j).bind fun _ j u => ?_
      exact Descends.expect_last (by simp) _
    · exact Descends.refuse _ _

theorem reads_assignment (n : Nat) (t : Token) (i : Nat) :
    Reads t (Production.assignment.rank + 1) i (assignment n) := by
  apply Descends.call (by decide)
  refine (Descends.expectName _).bind fun name j u => still_bind (still_lookup _) fun x => ?_
  split
  · exact Descends.refuse _ _
  · exact (Descends.expect (by simp) _).goes.bind fun _ j u => (goes_expression n u j).bind
      fun _ _ _ => still (still_demand _ _)

/-! ## Statements -/

section
variable {body : Descent Unit}

theorem goes_statements (hbody : ∀ u j, Reads u 3 j body) (n : Nat) (t : Token) (i : Nat) :
    Goes t (Production.statements.rank + 1) i (statements body n) := by
  apply Descends.call (by decide)
  exact Descends.repeatWhile .statements hbody t i 1 n (Nat.le_add_left 1 i)

theorem reads_block (hbody : ∀ u j, Reads u 3 j body) (n : Nat) (t : Token) (i : Nat) :
    Reads t (Production.block.rank + 1) i (block body n) := by
  apply Descends.call (by decide)
  refine (Descends.expect (by simp) _).bind fun _ j u => still_bind still_enter fun _ => ?_
  refine ((goes_statements hbody n u j).raise (by decide)).bind fun _ j u => ?_
  refine still_bind still_leave fun _ => ?_
  exact Descends.expect_last (by simp) _

theorem reads_loop (hbody : ∀ u j, Reads u 3 j body) (n : Nat) (t : Token) (i : Nat) :
    Reads t (Production.loop.rank + 1) i (loop body n) := by
  apply Descends.call (by decide)
  refine (Descends.expect (by simp) _).bind fun _ j u => ?_
  refine (Descends.expect (by simp) _).goes.bind fun _ j u => hand_bind ?_
  refine (goes_expression n u j).bind fun _ j u => still_bind (still_demand _ _) fun _ => ?_
  exact (Descends.expect (by simp) _).goes.bind fun _ j u => (hbody u j).goes.raise (by decide)

end

theorem reads_statement (n : Nat) (t : Token) (i : Nat) :
    Reads t (Production.statement.rank + 1) i (statement n) := by
  induction n generalizing t i with
  | zero => exact descends_exhausted
  | succ n ih =>
    apply Descends.call (by decide)
    apply hand_bind
    split
    · refine still_bind still_peek fun next => ?_
      split
      · exact ((reads_call n t i).raise (by decide)).bind fun _ _ _ =>
          Descends.expect_last (by simp) _
      · exact ((reads_assignment n t i).raise (by decide)).bind fun _ _ _ =>
          Descends.expect_last (by simp) _
    · split
      · exact reads_declarators n t i
      · split
        · exact (reads_block ih n t i).raise (by decide)
        · exact (reads_loop ih n t i).raise (by decide)
        · rename_i hk
          exact (Descends.advance (by simp [hk])).bind fun _ _ _ => goes_pure ()
        · exact Descends.unexpected _

/-! ## Programs -/

theorem reads_parameter (t : Token) (i : Nat) :
    Reads t (Production.parameter.rank + 1) i parameter := by
  apply Descends.call (by decide)
  exact (reads_typeWord t i).bind fun _ _ _ =>
    (Descends.expect (by simp) _).goes.bind fun _ _ _ => goes_pure _

/-- There are not more parameters than tokens before their end. -/
theorem descends_parameters (n : Nat) (t : Token) (i : Nat) :
    Descends t (Production.parameters.rank + 1) i (parameters n) fun ps j => ps.length ≤ j := by
  apply Descends.call (by decide)
  apply hand_bind
  split
  · refine Descends.bind (Descends.separated .parameters (fun _ => reads_parameter) t i 1 n
      (Nat.le_add_left 1 i)) fun ps j u _ hps => hand_bind ?_
    split
    · exact Descends.unexpected _
    · exact descends_done (by omega)
  · exact descends_done (Nat.zero_le i)

/-- No token is needed to declare a parameter. But there were enough. -/
theorem goes_declareParameters (ps : List (Parameter × Token)) (k : Nat) (t : Token) (i : Nat)
    (hk : k + ps.length ≤ i + 1) : Goes t ranks i (declareParameters k ps) := by
  induction ps generalizing k t i with
  | nil => exact goes_pure ()
  | cons p ps ih =>
    rw [List.length_cons] at hk
    have hround : Goes t ranks i (within (.round .declared k)
        (lift (Pass.declare ⟨p.1.name, .parameter p.1.type⟩ p.2))) :=
      (Descends.marked (.round .declared k) (Repetition.rank_lt .declared) (show k ≤ i + 1 by omega)
        (still (still_declare _ _)) fun _ _ _ _ _ h hl => by
          cases h
          exact absurd rfl hl).raise (Repetition.rank_lt .declared)
    exact Descends.bind hround fun _ j u hij _ => ih (k + 1) u j (by omega)

theorem reads_function (n : Nat) (t : Token) (i : Nat) :
    Reads t (Production.function.rank + 1) i (function n) := by
  apply Descends.call (by decide)
  refine (Descends.expect (by simp) _).bind fun _ j u => ?_
  refine (Descends.expectName _).goes.bind fun name j u => ?_
  refine (Descends.expect (by simp) _).goes.bind fun _ j u => ?_
  refine Descends.bind ((descends_parameters n u j).raise (by decide)) fun ps j u _ hps => ?_
  refine Descends.bind (Descends.expect (by simp) _) fun _ j u hj _ => ?_
  refine still_bind (still_declare _ _) fun _ => still_bind (still_headed _ _) fun _ => ?_
  refine still_bind still_enter fun _ => ?_
  refine (goes_declareParameters ps 1 u j (by omega)).bind fun _ j u => ?_
  refine (Descends.expect (by simp) _).goes.bind fun _ j u => ?_
  refine ((goes_statements (reads_statement n) n u j).raise (by decide)).bind fun _ j u => ?_
  exact (Descends.expect (by simp) _).goes.bind fun _ _ _ => still still_leave

theorem reads_declaration (n : Nat) (t : Token) (i : Nat) : Reads t 2 i (declaration n) := by
  apply hand_bind
  split
  · exact (reads_function n t i).raise (by decide)
  · exact reads_declarators n t i

theorem goes_declarations (n : Nat) (t : Token) (i : Nat) :
    Goes t (Production.declarations.rank + 1) i (declarations n) := by
  apply Descends.call (by decide)
  refine Goes.bind (Descends.repeatWhile .declarations (reads_declaration n) t i 1 n
    (Nat.le_add_left 1 i)) fun _ j u => hand_bind ?_
  split
  · exact Descends.unexpected _
  · exact goes_pure ()

/-- The finish is put away where nothing but the program is open. -/
theorem orderly_expect_finish {φ : Type} [Feed φ] (e : Expectation) (s : Stand φ) (i : Nat) :
    (lift (Pass.expect .finish e)).Orderly (fun _ _ fs => fs = outermost) s i outermost := by
  unfold Pass.expect
  rw [lift_bind]
  refine ⟨nofun, fun t s' _ => ?_⟩
  show (lift (if t.kind = .finish then _ else _)).Orderly _ s' i outermost
  split
  · exact ⟨nofun, fun u s' _ => ⟨fun _ _ => rfl, fun _ s' _ => rfl⟩⟩
  · exact ⟨nofun, fun _ _ _ => trivial⟩

/-- The whole run over a program is orderly, and all that was opened is over at
its end. -/
theorem orderly_program {φ : Type} [Feed φ] (n : Nat) (s : Stand φ) :
    (program n).Orderly (fun _ _ fs => fs = []) s 0 [] := by
  refine ⟨⟨by decide, nofun, Nat.zero_le _⟩, ?_⟩
  have hbody : (declarations n >>= fun _ => lift (Pass.expect .finish .endOfProgram) >>= fun _ =>
      pure ()).Orderly (fun _ _ fs => fs = outermost) s 0 outermost := by
    refine (goes_declarations n s.hand 0 φ s outermost rfl (room_cons _)).bind ?_
    rintro _ s' j _ ⟨rfl, -, -⟩
    exact (orderly_expect_finish _ s' j).bind fun _ _ _ _ h => h
  refine hbody.bind ?_
  rintro _ s' j _ rfl
  exact ⟨_, [], rfl, nofun, rfl⟩

end OnePass.Descent
