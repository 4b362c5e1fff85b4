-- Soundness for functions and whole programs: what is accepted is a
-- program, and what stands before a token that cannot stand there is the
-- beginning of one.
import OnePass.Analysis
import OnePass.Proofs.Grammar.Soundness.Statement
import OnePass.Proofs.Grammar.Spelling

namespace OnePass

open Grammar

/-! ## Functions -/

instance : Nonempty ParameterItem :=
  Nonempty.map (fun x : TypeWord × Of .name => ⟨x.1, x.2⟩) inferInstance

theorem yields_parameter (t : Token) :
    Yields t Parse.parameter ParameterItem.spelling fun x =>
      pure (⟨x.name.1.text, x.word.1.kind.wordType⟩, x.name.1) := by
  refine ((yields_typeWord t).bind fun type _ =>
    (Yields.expect .parameterName (by simp)).bind_still fun name =>
      .pure ((⟨name.text, type⟩ : Parameter), name)).mono ?_
  rintro ⟨word, name⟩
  exact ⟨⟨word, name⟩, rfl, by simp⟩

theorem yields_parameters (n : Nat) (t : Token) :
    Yields t (Parse.parameters n) spellParameters fun xs => pure (parameterList xs) := by
  have hend : ∀ (ps : List (Parameter × Token)) (u : Token), Yields u (do
      if (← Pass.hand).kind.isTypeWord then Pass.unexpected .commaBetweenParameters
      else return ps) (fun _ : Unit => []) fun _ => pure ps := by
    intro ps u
    apply Yields.hand_bind
    by_cases hu : u.kind.isTypeWord = true
    · rw [if_pos hu]
      exact .unexpected _
    · rw [if_neg hu]
      exact .still (.pure ps)
  apply Yields.hand_bind
  by_cases ht : t.kind.isTypeWord = true
  · rw [if_pos ht]
    refine ((Yields.separated (fun _ => yields_parameter) 1 n t).bind hend).mono ?_
    intro x
    refine ⟨some x.1, (List.append_nil _).symm, ?_⟩
    rw [collect_pure, pure_bind, parameterList]
  · rw [if_neg ht]
    refine (Yields.still (.pure [])).mono ?_
    intro _
    exact ⟨none, rfl, rfl⟩

theorem yields_function (n : Nat) (t : Token) :
    Yields t (Parse.function n) Function.spelling Function.check := by
  have hbody : ∀ (name : Token) (ps : List (Parameter × Token)) (u : Token), Yields u (do
      Pass.declare ⟨name.text, .function .void (ps.map (·.1))⟩ name
      Pass.headed name.text ps.length
      Pass.enter
      Parse.declareParameters 1 ps
      let _ ← Pass.expect .leftBrace .bodyOpen
      Parse.statements (Pass.statement n) n
      let _ ← Pass.expect .rightBrace .bodyClose
      Pass.leave) (fun x : Of .leftBrace × List Statement × Of .rightBrace =>
        [x.1.1] ++ (spellBody x.2.1 ++ [x.2.2.1])) (fun x => do
      Check.declare ⟨name.text, .function .void (ps.map (·.1))⟩ name
      Check.enter
      forM ps fun p => Check.declare ⟨p.1.name, .parameter p.1.type⟩ p.2
      checkBody x.2.1
      Check.leave) := by
    intro name ps u
    refine (Yields.still_bind (.declare _ _) fun _ => .still_bind (.headed _ _) fun _ =>
      .still_bind .enter fun _ => .still_bind (still_declareParameters 1 ps) fun _ =>
        (Yields.expect .bodyOpen (by simp)).bind fun _ v =>
          (yields_body (yields_statement n) n v).bind fun _ _ =>
            (Yields.expect .bodyClose (by simp)).bind_still fun _ => .leave).mono ?_
    intro x
    exact ⟨x, rfl, by simp⟩
  refine ((Yields.expect .functionStart (by simp)).bind fun _ _ =>
    (Yields.expectName .functionName).bind fun name _ =>
      (Yields.expect .parametersOpen (by simp)).bind fun _ u =>
        (yields_parameters n u).bind fun ps _ =>
          (Yields.expect .parametersClose (by simp)).bind fun _ v => hbody name ps v).mono ?_
  rintro ⟨word, name, left, ps, right, opening, body, closing⟩
  exact ⟨⟨word, name, left, ps, right, opening, body, closing⟩, rfl, by simp [Function.check]⟩

/-! ## Programs -/

theorem yields_declaration (n : Nat) (t : Token) :
    Yields t (Parse.declaration n) Declaration.spelling Declaration.check := by
  apply Yields.hand_bind
  by_cases ht : t.kind = .voidWord
  · rw [if_pos ht]
    refine (yields_function n t).mono ?_
    intro x
    exact ⟨.function x, rfl, rfl⟩
  · rw [if_neg ht]
    refine (yields_variables n t).mono ?_
    intro x
    exact ⟨.globals x, rfl, rfl⟩

/-- What a pass over a whole program found, if `us` was to come: a program
that means what was found, or the beginning of one. That one means what was
found, and the token in hand is a valid one, unless that token is at fault. -/
def Outcome.Judges (o : Outcome Reel Unit) (us : List Token) : Prop :=
  match o with
  | .done _ s => ∃ x : Program, x.spelling = us ∧ x.meaning = .ok s.scopes
  | .rejected r s => ∃ (x : Program) (ts ws more : List Token),
    x.spelling = ts ++ ws ∧ us = ts ++ s.hand :: more ∧ s.Holds (s.hand :: more) ∧
      (s.hand.kind.fault? = none ∧ x.meaning = .error r ∨ Blames s.hand r)
  | .exhausted _ => True

/-- The end of a program is the finish, and any finish ends one. -/
theorem judges_finish {xs : List Declaration} {s : Stand Reel} {ts : List Token}
    (hs : s.Holds ts) (hv : s.hand.kind.fault? = none)
    (hc : (forM xs Declaration.check).run .empty = .ok ((), s.scopes)) :
    (Pass.run ((do if (← Pass.hand).kind = .name then Pass.unexpected .declarationBeforeName)
      >>= fun _ => do let _ ← Pass.expect .finish .endOfProgram) s).Judges
      (xs.flatMap Declaration.spelling ++ ts) := by
  obtain ⟨stop⟩ : Nonempty (Of .finish) := inferInstance
  obtain ⟨us, hus⟩ := hs.eq_cons
  have hrejected : ∀ e, (Outcome.rejected ⟨.grammar e, s.hand⟩ s : Outcome Reel Unit).Judges
      (xs.flatMap Declaration.spelling ++ ts) := by
    intro e
    refine ⟨⟨xs, stop⟩, _, [stop.1], us, rfl, by rw [hus], ?_, Or.inr (.grammar hv)⟩
    rw [← hus]
    exact hs
  rw [bind_assoc, Pass.run_bind, Pass.run_hand, Outcome.andThen_done]
  by_cases hn : s.hand.kind = .name
  · rw [if_pos hn]
    exact hrejected _
  · rw [if_neg hn, pure_bind, Pass.run_bind, Pass.run_expect]
    by_cases hf : s.hand.kind = .finish
    · have hts := hs.eq_singleton hf
      have hpull : s.pull.hand = s.hand := by
        rw [hts] at hs
        exact (hs.pull_finish hf).hand
      rw [if_pos hf, Pass.run_advance, Stand.advance, Stand.settle, hpull, hf]
      refine ⟨⟨xs, ⟨s.hand, hf⟩⟩, by rw [hts]; rfl, ?_⟩
      show Program.meaning ⟨xs, _⟩ = .ok s.pull.scopes
      unfold Program.meaning
      rw [hc, Stand.scopes_pull]
    · rw [if_neg hf]
      exact hrejected _

theorem judges_program (n : Nat) {s : Stand Reel} {us : List Token} (hs : s.Holds us)
    (hv : s.hand.kind.fault? = none) (hscopes : s.scopes = .empty) :
    ((Pass.program n).run s).Judges us := by
  have hy : Yields s.hand (Parse.repeatWhile .declarations Kind.opensDeclaration
      (Parse.declaration n) 1 n) (List.flatMap Declaration.spelling) (forM · Declaration.check) :=
    Yields.repeatWhile (yields_declaration n) 1 n s.hand
  have ho := hy s us rfl hv hs
  rw [hscopes] at ho
  unfold Pass.program Parse.program Parse.declarations
  rw [Pass.within_eq, Pass.within_eq, bind_assoc, Pass.run_bind]
  generalize Pass.run (Parse.repeatWhile _ _ _ _ _) s = o at ho ⊢
  cases o with
  | done _ t =>
    obtain ⟨xs, more, hus, ht, hv', hc⟩ := ho
    rw [hus]
    exact judges_finish ht hv' hc
  | rejected r t =>
    obtain ⟨xs, ts, ws, more, hx, hus, ht, hr⟩ := ho
    obtain ⟨stop⟩ : Nonempty (Of .finish) := inferInstance
    obtain ⟨rest, hrest⟩ := ht.eq_cons
    rw [hrest] at hus ht
    refine ⟨⟨xs, stop⟩, ts, ws ++ [stop.1], rest, ?_, hus, ht, ?_⟩
    · show xs.flatMap Declaration.spelling ++ [stop.1] = _
      rw [← List.append_assoc]
      exact congrArg (· ++ [stop.1]) hx
    · rcases hr with ⟨hvalid, w, u, hc, rfl⟩ | hr
      · refine Or.inl ⟨hvalid, ?_⟩
        unfold Program.meaning
        rw [hc]
      · exact Or.inr hr
  | exhausted t => trivial

theorem judges_whole (r : Reel) (j : Array Event) : (Pass.whole r j).Judges r.tokens := by
  have hs : (Pass.ready r j).pull.Holds r.tokens := Stand.holds_pull _
  unfold Pass.whole Stand.advance Stand.settle
  cases hv : (Pass.ready r j).pull.hand.kind.fault? with
  | none => exact judges_program _ hs hv (Stand.scopes_pull _)
  | some f =>
    obtain ⟨stop⟩ : Nonempty (Of .finish) := inferInstance
    obtain ⟨us, hus⟩ := hs.eq_cons
    refine ⟨⟨[], stop⟩, [], [stop.1], us, rfl, hus, ?_, Or.inr (.spelling hv)⟩
    rw [← hus]
    exact hs

/-- Only a program is accepted, and with its meaning. -/
theorem exists_program_of_ok {r : Reel} {j : Array Event} {scopes : Scopes}
    (h : (examine r j).verdict = .ok scopes) :
    ∃ x : Program, x.spelling = r.tokens ∧ x.meaning = .ok scopes := by
  obtain ⟨s, hs, rfl⟩ := verdict_eq_ok_iff.1 h
  have ho := judges_whole r j
  rw [hs] at ho
  exact ho

end OnePass
