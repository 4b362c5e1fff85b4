-- Completeness for functions and whole programs: what the grammar derives is
-- judged by its meaning.
import OnePass.Analysis
import OnePass.Proofs.Grammar.Completeness.Statement
import OnePass.Proofs.Grammar.Spelling

namespace OnePass

open Grammar

/-! ## Functions -/

/-- A parameter, and the token that holds its name. -/
theorem conforms_parameter (x : ParameterItem) (more : List Token) :
    Conforms Parse.parameter x.spelling more
      (pure (⟨x.name.1.text, x.word.1.kind.wordType⟩, x.name.1)) := by
  rw [ParameterItem.spelling]
  refine Conforms.bind_pure (l := [x.word.1]) (conforms_typeWord x.word) ?_
  exact (Conforms.expect _ x.name (by simp)).bind_pure (m := []) (.pure _)

theorem conforms_parameters (n : Nat) (ps : Option (Commas ParameterItem)) (r : Of .rightParen)
    (more : List Token) :
    Conforms (Parse.parameters n) (spellParameters ps) (r.1 :: more) (pure (parameterList ps)) := by
  have hr : ¬r.1.kind.isTypeWord = true := by
    rw [r.2]
    simp [Kind.isTypeWord]
  cases ps with
  | none =>
    rw [spellParameters]
    apply Conforms.hand_bind (l := []) rfl
    rw [if_neg hr]
    exact .pure []
  | some xs =>
    obtain ⟨first, others⟩ := xs
    rw [spellParameters]
    apply Conforms.hand_bind (t := first.word.1) rfl
    rw [if_pos first.word.2]
    have hsep := Conforms.separated (l := .parameters) (fun _ x us _ => conforms_parameter x us)
      (Closes.rightParen r more) (by rw [r.2]; simp) others first 1 n
    rw [collect_pure] at hsep
    rw [← List.append_nil (Commas.spelling _ _)]
    apply hsep.bind_pure (m := [])
    apply Conforms.hand_bind (l := []) rfl
    rw [if_neg hr]
    exact .pure _

theorem conforms_function (n : Nat) (x : Function) (more : List Token) :
    Conforms (Parse.function n) x.spelling more x.check := by
  obtain ⟨word, name, left, ps, right, opening, body, closing⟩ := x
  rw [Function.spelling, Function.check]
  refine Conforms.bind_pure (l := [word.1]) (.expect _ word (by simp)) ?_
  refine Conforms.bind_pure (l := [name.1]) (.expectName _ name) ?_
  refine Conforms.bind_pure (l := [left.1]) (.expect _ left (by simp)) ?_
  apply (conforms_parameters n ps right _).bind_pure
  refine Conforms.bind_pure (l := [right.1]) (.expect _ right (by simp)) ?_
  apply (Conforms.declare _ _).bind_nil
  intro _
  refine Conforms.bind_pure (l := []) (.still (.headed _ _)) ?_
  apply Conforms.enter.bind_nil
  intro _
  apply (Conforms.still (still_declareParameters 1 _)).bind_nil
  intro _
  refine Conforms.bind_pure (l := [opening.1]) (.expect _ opening (by simp)) ?_
  have hc : closing.1.kind.opensStatement = false := by
    rw [closing.2]
    rfl
  apply (conforms_body body n 1 n (closing.1 :: more) ⟨closing.1, more, rfl, hc⟩).bind
  intro _
  exact Conforms.bind_pure (m := []) (.expect _ closing (by simp)) .leave

/-! ## Programs -/

theorem conforms_declaration (n : Nat) (x : Declaration) (more : List Token) :
    Conforms (Parse.declaration n) x.spelling more x.check := by
  cases x with
  | globals x =>
    rw [Declaration.spelling, Declaration.check]
    apply Conforms.hand_bind (t := x.word.1) rfl
    have hv : ¬x.word.1.kind = .voidWord := by
      intro hv
      have ht := x.word.2
      rw [hv] at ht
      cases ht
    rw [if_neg hv]
    exact conforms_variables n x more
  | function x =>
    rw [Declaration.spelling, Declaration.check]
    apply Conforms.hand_bind (t := x.word.1) rfl
    rw [if_pos x.word.2]
    exact conforms_function n x more

/-- A declaration starts with a token that can open one. -/
theorem Grammar.Declaration.spelling_eq (x : Declaration) :
    ∃ t ts, x.spelling = t :: ts ∧ t.kind.opensDeclaration = true := by
  cases x with
  | globals x => exact ⟨_, _, rfl, by simp [Kind.opensDeclaration, x.word.2]⟩
  | function x => exact ⟨_, _, rfl, by simp [Kind.opensDeclaration, x.word.2]⟩

theorem conforms_repeatWhile (stop : Of .finish) (n k m : Nat) (xs : List Declaration) :
    Conforms (Parse.repeatWhile .declarations Kind.opensDeclaration (Parse.declaration n) k m)
      (xs.flatMap Declaration.spelling) [stop.1] (forM xs Declaration.check) := by
  induction xs generalizing k m with
  | nil =>
    cases m with
    | zero => exact .exhausted _ _
    | succ m =>
      apply Conforms.hand_bind (l := []) rfl
      rw [stop.2]
      exact .pure ()
  | cons x xs ih =>
    cases m with
    | zero => exact .exhausted _ _
    | succ m =>
      obtain ⟨t, ts, hx, ht⟩ := x.spelling_eq
      rw [List.flatMap_cons, List.forM_cons]
      apply Conforms.hand_bind (t := t) (m := ts ++ xs.flatMap Declaration.spelling ++ [stop.1])
      · rw [hx]
        rfl
      · rw [if_pos ht]
        apply (conforms_declaration n x _).bind
        intro _
        exact ih (k + 1) m

theorem conforms_declarations (stop : Of .finish) (n : Nat) (xs : List Declaration) :
    Conforms (Parse.declarations n) (xs.flatMap Declaration.spelling) [stop.1]
      (forM xs Declaration.check) := by
  rw [← bind_pure (forM xs Declaration.check)]
  apply (conforms_repeatWhile stop n 1 n xs).bind_last
  intro _
  apply Conforms.hand_bind (l := []) rfl
  rw [if_neg (by rw [stop.2]; simp)]
  exact .pure ()

/-- Taking the finish leaves it where it is. -/
theorem conforms_finish (stop : Of .finish) :
    Conforms (do let _ ← Pass.expect .finish .endOfProgram) [] [stop.1] (pure ()) := by
  intro s hs _ _
  have hf : s.hand.kind = .finish := by
    rw [hs.hand, stop.2]
  have hp : s.pull.Holds [stop.1] := hs.pull_finish stop.2
  rw [Pass.run_bind, Pass.run_expect, if_pos hf, Pass.run_advance, Stand.advance, Stand.settle,
    hp.hand, stop.2]
  exact ⟨by rw [Stand.scopes_pull]; rfl, hp, by rw [hp.hand, stop.2]; rfl⟩

theorem conforms_program (x : Program) (n : Nat) :
    Conforms (Pass.program n) (x.declarations.flatMap Declaration.spelling) [x.stop.1]
      (forM x.declarations Declaration.check) := by
  rw [← bind_pure (forM x.declarations Declaration.check)]
  apply (conforms_declarations x.stop n x.declarations).bind_last
  intro _
  exact conforms_finish x.stop

/-- The verdict on a program is its meaning. -/
theorem verdict_eq_meaning (x : Program) {r : Reel} (h : r.tokens = x.spelling)
    (j : Array Event) : (examine r j).verdict = x.meaning := by
  let s := (Pass.ready r j).pull
  have hs : s.Holds x.spelling := by
    rw [← h]
    exact Stand.holds_pull (Pass.ready r j)
  have hfault : s.hand.kind.fault? = none := by
    obtain ⟨ts, ht⟩ := hs.eq_cons
    exact x.fault?_eq_none (by rw [ht]; exact List.mem_cons_self)
  have hw : Pass.whole r j = (Pass.program (s.left + 1)).run s := by
    unfold Pass.whole Stand.advance Stand.settle
    rw [hfault]
    rfl
  have hscopes : s.scopes = .empty := Stand.scopes_pull (Pass.ready r j)
  have ho := conforms_program x (s.left + 1) s hs hfault fun t ht =>
    x.fault?_eq_none (List.mem_append_left _ ht)
  have hne := Pass.whole_ne_exhausted r j
  rw [← hw, hscopes] at ho
  unfold Program.meaning
  match hr : Pass.whole r j with
  | .done () t =>
    rw [hr] at ho
    rw [ho.1, examine_of_done hr]
  | .rejected r t =>
    rw [hr] at ho
    rcases ho with ⟨w, u, hc, rfl⟩ | hstop
    · rw [hc, examine_of_rejected hr]
    · have hv : x.stop.1.kind.fault? = none := x.fault?_eq_none (by simp [Program.spelling])
      exact absurd hstop (not_stumbles hv [] r)
  | .exhausted t => exact absurd hr (hne t)

end OnePass
