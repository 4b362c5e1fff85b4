-- The journal of an analysis is a chronicle of the scopes. Whoever has only
-- the words of its entries, and not the tokens read, can do again all that was
-- done, and finds the same scopes in the end.
import OnePass.Proofs.Journal.Writing

namespace OnePass

/-! ## The whole record -/

/-- Behind its first entry the journal holds a record of declarations, or a
beginning of one. -/
theorem wrote_whole (source : List Char) (bytes : Nat) :
    (Pass.whole (Cursor.start source) #[.started bytes]).Wrote [.started bytes]
      ProgramRecord := by
  have hready : (Pass.ready (Cursor.start source) #[.started bytes]).Sound :=
    ⟨nofun, ⟨⟨trivial, trivial⟩, rfl⟩⟩
  have hfirst : ((Pass.ready (Cursor.start source) #[.started bytes]).advance).Wrote
      [.started bytes] fun es => es = [] := by
    have hsilent := Pass.silent_perform [.started bytes] _ (m := .advance) rfl ⟨hready, rfl⟩
    show (Stand.perform _ .advance).Wrote _ _
    cases h : (Pass.ready (Cursor.start source) #[.started bytes]).perform .advance with
    | done _ s =>
      rw [h] at hsilent
      exact ⟨hsilent.1, [], rfl, hsilent.2⟩
    | rejected r s =>
      rw [h] at hsilent
      exact ⟨[], [], rfl, hsilent.2⟩
    | exhausted s => trivial
  apply hfirst.andThen
  · rintro _ rfl _ s hs _
    exact Pass.writes_program _ s hs
  · rintro _ rfl
    exact ⟨[], .nil⟩

/-! ## The law -/

/-- What the entries of a journal tell, the tokens read left aside. -/
structure Chronicle (verdict : Except Rejection Scopes) (es : List Event) : Prop where
  started : ∃ bytes later, es = .started bytes :: later
  /-- All that was done can be done again, each act as it is told. -/
  confirmed : Scopes.empty.Confirms es
  /-- The head of a function comes directly after its global declaration. -/
  head : ∀ before behind f n, es = before ++ .headed f n :: behind →
    ∃ earlier ps, before = earlier ++ [.declared ⟨f, .function .void ps⟩ 0] ∧ ps.length = n
  /-- In a program its scope and its parameters come directly behind it. -/
  behind_head : ∀ scopes, verdict = .ok scopes →
    ∀ before behind f n, es = before ++ .headed f n :: behind →
      ∃ earlier ps i d later, before = earlier ++ [.declared ⟨f, .function .void ps⟩ 0] ∧
        ps.length = n ∧
        behind = .entered i d ::
          ((ps.map fun p => .declared ⟨p.name, .parameter p.type⟩ i) ++ later)
  /-- The journal of a program leads to its scopes, is balanced, and ends with
  their counts. -/
  accepted : ∀ scopes, verdict = .ok scopes →
    Scopes.empty.retold es = scopes ∧ Balanced es ∧
      ∃ earlier, es = earlier ++
        [.finished (1 + es.countP Event.isEntered) (es.countP Event.isDeclared)]
  rejected : ∀ r, verdict = .error r → ∀ m n, .finished m n ∉ es

section
variable {bytes n : Nat} {es rest before behind : List Event} {f : String}

/-- Around a head, in a record of declarations that goes on with `rest`. -/
theorem ProgramRecord.around (h : ProgramRecord (es ++ rest))
    (hconfirms : Scopes.empty.Confirms (.started bytes :: es))
    (hes : .started bytes :: es = before ++ .headed f n :: behind) :
    ∃ earlier ps, before = earlier ++ [.declared ⟨f, .function .void ps⟩ 0] ∧ ps.length = n ∧
      ∃ i d fs later, ParameterRecord ps fs ∧ behind ++ rest = .entered i d :: (fs ++ later) := by
  cases before with
  | nil => cases hes
  | cons e before =>
    obtain ⟨rfl, rfl⟩ := List.cons.inj hes
    obtain ⟨hbefore, -⟩ := Scopes.confirms_append.1 hconfirms.2
    obtain ⟨earlier, ps, rfl, hbehind⟩ :=
      h.around_head (List.append_assoc ..) Scopes.Grown.empty rfl hbefore
    exact ⟨.started bytes :: earlier, ps, rfl, hbehind⟩

/-- A journal that breaks off. -/
theorem chronicle_rejected {r : Rejection} (h : ProgramRecord (es ++ rest))
    (hconfirms : Scopes.empty.Confirms (.started bytes :: es)) :
    Chronicle (.error r) (.started bytes :: es) := by
  refine ⟨⟨bytes, es, rfl⟩, hconfirms, ?_, nofun, nofun, ?_⟩
  · intro before behind f n hes
    obtain ⟨earlier, ps, hbefore, hlength, -⟩ := h.around hconfirms hes
    exact ⟨earlier, ps, hbefore, hlength⟩
  · intro r' _ m n hmem
    rcases List.mem_cons.1 hmem with hmem | hmem
    · cases hmem
    · have hnone := h.forall_mem (P := (· ≠ .finished m n)) (fun _ _ _ => nofun) nofun nofun
        fun _ _ _ => nofun
      exact hnone _ (List.mem_append_left _ hmem) rfl

/-- Around a head, in the journal of a program: the parameters are those that
were declared with it. -/
theorem ProgramRecord.around_finished (h : ProgramRecord es)
    (hconfirms : Scopes.empty.Confirms (.started bytes :: es)) {scopeCount symbolCount : Nat}
    (hes : .started bytes :: es ++ [.finished scopeCount symbolCount] =
      before ++ .headed f n :: behind) :
    ∃ earlier ps, before = earlier ++ [.declared ⟨f, .function .void ps⟩ 0] ∧ ps.length = n ∧
      ∃ i d later, behind = .entered i d ::
        ((ps.map fun p => .declared ⟨p.name, .parameter p.type⟩ i) ++ later) := by
  rcases append_eq_append_cons hes with ⟨later, -, hlater⟩ | ⟨later, hinside, rfl⟩
  · have hmem : Event.headed f n ∈ later ++ .headed f n :: behind := by simp
    rw [← hlater, List.mem_singleton] at hmem
    cases hmem
  · rw [← List.append_nil es] at h
    obtain ⟨earlier, ps, rfl, hlength, i, d, fs, later', hps, hlater⟩ :=
      h.around hconfirms hinside
    rw [List.append_nil] at hlater
    subst hlater
    -- The parameters are true of the scope that the entry before them opens.
    rw [hinside, Scopes.confirms_append] at hconfirms
    obtain ⟨-, -, hentered, hrest⟩ := hconfirms
    obtain ⟨hfs, -⟩ := Scopes.confirms_append.1 hrest
    have hi := Answer.entered.inj hentered.1
    refine ⟨earlier, ps, rfl, hlength, i, d, later' ++ [.finished scopeCount symbolCount], ?_⟩
    rw [hps.eq_map hfs, ← hi, List.cons_append, List.append_assoc]
    rfl

/-- The journal of a program. -/
theorem chronicle_accepted (h : ProgramRecord es)
    (hconfirms : Scopes.empty.Confirms (.started bytes :: es)) {scopes : Scopes}
    (hscopes : Scopes.empty.retold (.started bytes :: es) = scopes) :
    Chronicle (.ok scopes)
      (.started bytes :: es ++ [.finished scopes.scopeCount scopes.symbolCount]) := by
  obtain ⟨hscopeCount, hsymbolCount⟩ := Scopes.counts_retold hconfirms
  rw [hscopes] at hscopeCount hsymbolCount
  refine ⟨⟨bytes, _, rfl⟩, ?_, ?_, ?_, ?_, fun _ hr => nomatch hr⟩
  · rw [Scopes.confirms_append, Scopes.confirms_singleton, hscopes]
    exact ⟨hconfirms, rfl, rfl⟩
  · intro before behind f n hes
    obtain ⟨earlier, ps, hbefore, hlength, -⟩ := h.around_finished hconfirms hes
    exact ⟨earlier, ps, hbefore, hlength⟩
  · intro _ _ before behind f n hes
    obtain ⟨earlier, ps, hbefore, hlength, i, d, later, hbehind⟩ := h.around_finished hconfirms hes
    exact ⟨earlier, ps, i, d, later, hbefore, hlength, hbehind⟩
  · intro s hs
    obtain rfl : scopes = s := Except.ok.inj hs
    refine ⟨?_, ?_, .started bytes :: es, ?_⟩
    · rw [Scopes.retold_append, hscopes]
      rfl
    · have hstarted : Balanced [.started bytes] := .other nofun nofun
      have hfinished : Balanced [.finished scopes.scopeCount scopes.symbolCount] :=
        .other nofun nofun
      have hbody : Balanced es := (h.returns _ .empty hconfirms.2).1
      exact (hstarted.append hbody).append hfinished
    · have hone : Scopes.empty.scopeCount = 1 := rfl
      have hzero : Scopes.empty.symbolCount = 0 := rfl
      rw [List.countP_append, List.countP_append, hscopeCount, hsymbolCount, hone, hzero,
        Nat.zero_add]
      rfl

end

/-- The journal of an analysis, the tokens read left aside. -/
def Analysis.record (a : Analysis) : List Event := upTo .debug a.journal.toList

/-- The record of an analysis is a chronicle, and all names in it are written
as names are. -/
theorem analyze_record (source : String) :
    Chronicle (analyze source).verdict (analyze source).record ∧
      ∀ e ∈ (analyze source).record, e.Named := by
  have hwrote := wrote_whole source.toList (Text.bytes source.toList)
  have hrecorded := recorded_whole (Cursor.start source.toList) (Text.bytes source.toList)
  have hnamed : ∀ es, ProgramRecord es → ∀ e ∈ es, e.Named := fun es hes =>
    hes.forall_mem (fun _ _ hx => hx) (fun _ _ => trivial) (fun _ => trivial) fun _ _ hf => hf
  unfold analyze Analysis.record
  cases h : Pass.whole (Cursor.start source.toList) #[.started (Text.bytes source.toList)] with
  | done _ s =>
    rw [h] at hwrote hrecorded
    obtain ⟨-, es, hes, hrecord⟩ := hwrote
    have hrecord' : upTo .debug
        (s.journal.push (.finished s.scopes.scopeCount s.scopes.symbolCount)).toList =
        .started (Text.bytes source.toList) :: es ++
          [.finished s.scopes.scopeCount s.scopes.symbolCount] := by
      rw [← List.singleton_append, ← hrecord]
      exact Stand.record_note s _
    have hconfirmed := hrecorded.confirmed
    have hreached := hrecorded.reached
    rw [Outcome.stand, hrecord] at hconfirmed hreached
    rw [examine_of_done h, hrecord']
    refine ⟨chronicle_accepted hes hconfirmed hreached, ?_⟩
    simp only [List.cons_append, List.forall_mem_cons, List.forall_mem_append]
    exact ⟨trivial, hnamed es hes, trivial, List.forall_mem_nil _⟩
  | rejected r s =>
    rw [h] at hwrote hrecorded
    obtain ⟨es, rest, hes, hrecord⟩ := hwrote
    have hconfirmed := hrecorded.confirmed
    rw [Outcome.stand, hrecord] at hconfirmed
    rw [examine_of_rejected h]
    show Chronicle _ s.record ∧ ∀ e ∈ s.record, e.Named
    rw [hrecord]
    refine ⟨chronicle_rejected hes hconfirmed, List.forall_mem_cons.2 ⟨trivial, ?_⟩⟩
    intro e he
    exact hnamed _ hes e (List.mem_append_left _ he)
  | exhausted s => exact absurd h (Pass.whole_ne_exhausted _ _ s)

/-- The journal of an analysis is a chronicle of its scopes, and it can be read
from its words: no entry of any journal has the message of another one. -/
theorem the_journal_is_a_chronicle (source : String) :
    Chronicle (analyze source).verdict (analyze source).record ∧
      ∀ other : String, ∀ e ∈ (analyze source).record, ∀ f ∈ (analyze other).record,
        e.message = f.message → e = f := by
  obtain ⟨hchronicle, hnamed⟩ := analyze_record source
  refine ⟨hchronicle, ?_⟩
  intro other e he f hf
  exact Event.message_unique (hnamed e he) ((analyze_record other).2 f hf)

end OnePass
