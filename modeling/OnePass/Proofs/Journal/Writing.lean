-- What the grammar functions leave in the journal: each of them puts down a
-- record of its form, or a beginning of one where the program is turned down.
import OnePass.Proofs.Journal.Quiet
import OnePass.Proofs.Journal.Records

namespace OnePass

open Parse

variable {α β : Type}

/-! ## Stands -/

namespace Stand

/-- A stand over a text: a name in hand is written as names are, and the
journal is true. -/
structure Sound (s : Stand Cursor) : Prop where
  name : s.hand.kind.isName = true → IsName s.hand.text
  recorded : s.Recorded

variable {s : Stand Cursor}

theorem Sound.grown (h : s.Sound) : s.scopes.Grown := by
  rw [← h.recorded.reached]
  exact Scopes.grown_after _

theorem Sound.pull (h : s.Sound) : s.pull.Sound := by
  refine ⟨?_, h.recorded.of_eq (record_noteRead _ _) (scopes_pull s)⟩
  rw [hand_pull]
  exact Cursor.isName_next

end Stand

/-! ## Reading -/

namespace Pass

variable {p : Pass α} {q : α → Pass β} {R : α → Prop} {T : β → Prop}

/-- Nothing is put down, on the way and where the program is turned down. -/
def silent (record : List Event) : Promise Cursor where
  stand s := s.Sound ∧ s.record = record
  rejection _ s := s.Sound ∧ s.record = record

/-- From a sound stand on nothing is put down, and `R` holds of the result. -/
def Reads (p : Pass α) (R : α → Prop) : Prop :=
  ∀ s : Stand Cursor, s.Sound → p.Keeps (silent s.record) s fun a _ => R a

theorem silent_perform (record : List Event) (s : Stand Cursor) {m : Move}
    (hm : m.isQuiet = true) (hs : (silent record).stand s) :
    (s.perform m).Keeps (silent record) fun _ t => (silent record).stand t := by
  cases m with
  | hand | lookup => exact hs
  | advance =>
    have hpull : (silent record).stand s.pull :=
      ⟨hs.1.pull, (Stand.record_noteRead _ _).trans hs.2⟩
    show s.pull.settle.Keeps _ _
    unfold Stand.settle
    split <;> exact hpull
  | peek =>
    refine ⟨⟨?_, hs.1.recorded.of_eq (Stand.record_noteRead _ _) (Stand.scopes_noteRead _ _)⟩,
      (Stand.record_noteRead _ _).trans hs.2⟩
    rw [Stand.hand_noteRead]
    exact hs.1.name
  | _ => cases hm

theorem Quiet.reads (h : p.Quiet) : p.Reads fun _ => True := by
  intro s hs
  generalize hrecord : s.record = record
  replace hs : (silent record).stand s := ⟨hs, hrecord⟩
  clear hrecord
  induction p generalizing s with
  | done a => exact ⟨hs, trivial⟩
  | reject r => exact ⟨hs, hs⟩
  | exhausted => exact hs
  | ask m go ih =>
    exact ⟨hs, (silent_perform record s h.1 hs).mono fun x t ht => ih x (h.2 x) t ht⟩

theorem Reads.bind (hp : p.Reads R) (hq : ∀ a, R a → (q a).Reads T) : (p >>= q).Reads T := by
  intro s hs
  apply (hp s hs).bind
  intro a t ht ha
  have hrest := hq a ha t ht.1
  rwa [ht.2] at hrest

theorem reads_pure {a : α} (h : R a) : (pure a : Pass α).Reads R :=
  fun _ hs => ⟨⟨hs, rfl⟩, h⟩

/-- The token that is put away is the one in hand. -/
theorem keeps_silent_advance {s : Stand Cursor} (hs : s.Sound) :
    advance.Keeps (silent s.record) s fun t _ => t = s.hand := by
  refine ⟨⟨hs, rfl⟩, ⟨hs, rfl⟩, ?_⟩
  exact (silent_perform s.record s (m := .advance) rfl ⟨hs, rfl⟩).mono fun _ _ ht => ⟨ht, rfl⟩

theorem keeps_silent_unexpected {s : Stand Cursor} (hs : s.Sound) (e : Expectation)
    (Q : α → Stand Cursor → Prop) : (unexpected e : Pass α).Keeps (silent s.record) s Q :=
  ⟨⟨hs, rfl⟩, ⟨hs, rfl⟩, ⟨hs, rfl⟩⟩

/-- A token that has to be a name. -/
theorem reads_take {test : Token → Prop} [DecidablePred test]
    (h : ∀ t, test t → t.kind.isName = true) (e : Expectation) :
    (hand >>= fun t => if test t then advance else unexpected e).Reads fun t => IsName t.text := by
  intro s hs
  refine ⟨⟨hs, rfl⟩, ?_⟩
  show (if test s.hand then advance else unexpected e).Keeps _ _ _
  split
  · rename_i htest
    apply (keeps_silent_advance hs).mono
    rintro _ _ - rfl
    exact hs.name (h _ htest)
  · exact keeps_silent_unexpected hs e _

theorem reads_expectName (e : Expectation) : (expectName e).Reads fun t => IsName t.text :=
  reads_take (fun _ h => h) e

theorem reads_expect_name (e : Expectation) : (expect .name e).Reads fun t => IsName t.text :=
  reads_take (fun t (h : t.kind = .name) => by rw [h]; rfl) e

theorem reads_separated {l : Repetition} {item : Nat → Pass α} (h : ∀ i, (item i).Reads R) :
    ∀ n i, Reads (separated l item i n) fun as => ∀ a ∈ as, R a
  | 0, _ => fun _ hs => ⟨hs, rfl⟩
  | n + 1, i => by
    rw [separated_succ]
    apply (h i).bind
    intro a ha
    apply (quiet_accept .comma).reads.bind
    intro more _
    cases more with
    | true =>
      apply (reads_separated h n (i + 1)).bind
      intro as has
      exact reads_pure (List.forall_mem_cons.2 ⟨ha, has⟩)
    | false => exact reads_pure (List.forall_mem_singleton.2 ha)

theorem reads_parameter : Reads parameter fun p => IsName p.1.name := by
  apply quiet_typeWord.reads.bind
  intro type _
  apply (reads_expect_name _).bind
  intro name hname
  exact reads_pure hname

theorem reads_parameters (n : Nat) : Reads (parameters n) fun ps => ∀ p ∈ ps, IsName p.1.name := by
  apply quiet_hand.reads.bind
  intro t _
  split
  · apply (reads_separated (fun _ => reads_parameter) n 1).bind
    intro ps hps
    apply quiet_hand.reads.bind
    intro u _
    split
    · exact fun s hs => keeps_silent_unexpected hs _ _
    · exact reads_pure hps
  · exact reads_pure (List.forall_mem_nil _)

/-! ## Writing -/

end Pass

/-- Behind what was there before, a record of the form `D` was put down, or a
beginning of one if the program was turned down. -/
def Outcome.Wrote (before : List Event) (D : List Event → Prop) : Outcome Cursor α → Prop
  | .done _ t => t.Sound ∧ ∃ es, D es ∧ t.record = before ++ es
  | .rejected _ t => ∃ es rest, D (es ++ rest) ∧ t.record = before ++ es
  | .exhausted _ => True

/-- What follows puts its record down behind the first one, and whatever that
is, there is something to follow. -/
theorem Outcome.Wrote.andThen {o : Outcome Cursor α} {f : α → Stand Cursor → Outcome Cursor β}
    {before : List Event} {C D : List Event → Prop} (h : o.Wrote before C)
    (hf : ∀ es, C es → ∀ a (t : Stand Cursor), t.Sound → t.record = before ++ es →
      (f a t).Wrote t.record fun fs => D (es ++ fs))
    (hD : ∀ es, C es → ∃ fs, D (es ++ fs)) : (o.andThen f).Wrote before D := by
  cases o with
  | done a t =>
    obtain ⟨ht, es, hes, hrecord⟩ := h
    have hrest := hf es hes a t ht hrecord
    rw [andThen_done]
    cases hu : f a t with
    | done b u =>
      rw [hu] at hrest
      obtain ⟨hsound, fs, hfs, hrecord'⟩ := hrest
      exact ⟨hsound, es ++ fs, hfs, by rw [hrecord', hrecord, List.append_assoc]⟩
    | rejected r u =>
      rw [hu] at hrest
      obtain ⟨fs, rest, hfs, hrecord'⟩ := hrest
      exact ⟨es ++ fs, rest, by rwa [List.append_assoc],
        by rw [hrecord', hrecord, List.append_assoc]⟩
    | exhausted u => trivial
  | rejected r t =>
    obtain ⟨es, rest, hes, hrecord⟩ := h
    obtain ⟨fs, hfs⟩ := hD _ hes
    exact ⟨es, rest ++ fs, by rwa [← List.append_assoc], hrecord⟩
  | exhausted t => trivial

theorem Outcome.Wrote.mono {o : Outcome Cursor α} {before : List Event}
    {C D : List Event → Prop} (h : o.Wrote before C) (hCD : ∀ es, C es → D es) :
    o.Wrote before D := by
  cases o with
  | done a t =>
    obtain ⟨ht, es, hes, hrecord⟩ := h
    exact ⟨ht, es, hCD es hes, hrecord⟩
  | rejected r t =>
    obtain ⟨es, rest, hes, hrecord⟩ := h
    exact ⟨es, rest, hCD _ hes, hrecord⟩
  | exhausted t => trivial

namespace Pass

/-- From a sound stand on a record of the form `D` is put down. -/
def Writes (p : Pass α) (D : List Event → Prop) : Prop :=
  ∀ s : Stand Cursor, s.Sound → (p.run s).Wrote s.record D

variable {p : Pass α} {q : α → Pass β} {R : α → Prop} {C D : List Event → Prop}

theorem Writes.bind (hp : p.Writes C)
    (hq : ∀ es, C es → ∀ a, (q a).Writes fun fs => D (es ++ fs))
    (hD : ∀ es, C es → ∃ fs, D (es ++ fs)) : (p >>= q).Writes D := by
  intro s hs
  rw [run_bind]
  exact (hp s hs).andThen (fun es hes a t ht _ => hq es hes a t ht) hD

/-- Reading first puts nothing down. -/
theorem Reads.writes_bind (hp : p.Reads R) (hq : ∀ a, R a → (q a).Writes D) (hD : ∃ es, D es) :
    (p >>= q).Writes D := by
  intro s hs
  have hrun := ((hp s hs).mono (R := fun a t => (silent s.record).stand t ∧ R a)
    fun _ _ ht ha => ⟨ht, ha⟩).run
  rw [run_bind]
  cases h : p.run s with
  | done a t =>
    rw [h] at hrun
    obtain ⟨⟨ht, hrecord⟩, ha⟩ := hrun
    have hrest := hq a ha t ht
    rwa [hrecord] at hrest
  | rejected r t =>
    rw [h] at hrun
    obtain ⟨es, hes⟩ := hD
    exact ⟨[], es, hes, by rw [hrun.2, List.append_nil]⟩
  | exhausted t => trivial

theorem Quiet.writes_bind (hp : p.Quiet) (hq : ∀ a, (q a).Writes D) (hD : ∃ es, D es) :
    (p >>= q).Writes D :=
  hp.reads.writes_bind (fun a _ => hq a) hD

theorem Quiet.writes (hp : p.Quiet) (hD : D []) : p.Writes D := by
  rw [← bind_pure p]
  apply hp.writes_bind
  · intro a s hs
    exact ⟨hs, [], hD, (List.append_nil _).symm⟩
  · exact ⟨[], hD⟩

/-! ### Moves that put something down -/

theorem writes_headed (f : String) (n : Nat) :
    (headed f n).Writes fun es => es = [.headed f n] := by
  intro s hs
  exact ⟨⟨hs.name, hs.recorded.note⟩, _, rfl, s.record_note _⟩

theorem writes_declare (x : Symbol) (t : Token) :
    (declare x t).Writes fun es => ∃ i, es = [.declared x i] := by
  intro s hs
  rw [run_declare]
  unfold Stand.declare
  cases h : s.scopes.declare? x with
  | some scopes =>
    have hkept := keepingRecord_perform s (.declare x) hs.recorded
    simp only [Stand.perform, Stand.declare, h] at hkept
    exact ⟨⟨hs.name, hkept⟩, _, ⟨s.scopes.current, rfl⟩, Stand.record_note _ _⟩
  | none => exact ⟨[], [.declared x 0], ⟨0, rfl⟩, (List.append_nil _).symm⟩

/-- A scope that is current but not global is left. -/
theorem writes_leave {q : Pass α} (hq : q.Quiet) {s : Stand Cursor} (hs : s.Sound)
    (hcurrent : s.scopes.current ≠ 0) :
    ((leave >>= fun _ => q).run s).Wrote s.record fun es => ∃ i, es = [.left i] := by
  have ho := hs.grown.ordered
  obtain ⟨p, hp⟩ := Scopes.exists_parent? (Nat.pos_of_ne_zero hcurrent) ho.current_lt
  have hleave : s.leave.record = s.record ++ [.left s.scopes.current] := by
    unfold Stand.leave Scopes.leave?
    rw [hp]
    exact Stand.record_note _ _
  have hhand : s.leave.hand = s.hand := by
    unfold Stand.leave
    split <;> rfl
  have hsound : s.leave.Sound := ⟨by rw [hhand]; exact hs.name, hs.recorded.leave⟩
  have hleft : (leave.run s).Wrote s.record fun es => es = [.left s.scopes.current] :=
    ⟨hsound, _, rfl, hleave⟩
  rw [run_bind]
  apply hleft.andThen
  · rintro _ rfl _ t ht _
    exact hq.writes (D := fun es => ∃ i, [.left s.scopes.current] ++ es = [.left i])
      ⟨_, rfl⟩ t ht
  · rintro _ rfl
    exact ⟨[], _, rfl⟩

/-- A scope is entered and left, and what is put down in between leads back to
it. -/
theorem Writes.scope {body : Pass β} {q : Pass α} (hbody : body.Writes C)
    (hC : ∀ es, C es → Returns es) (hsome : ∃ es, C es) (hq : q.Quiet) :
    (do enter; let _ ← body; leave; q).Writes fun es =>
      ∃ i d j fs, C fs ∧ es = Event.entered i d :: (fs ++ [Event.left j]) := by
  intro s hs
  have hentered : (enter.run s).Wrote s.record fun es => ∃ i d, es = [.entered i d] :=
    ⟨⟨hs.name, hs.recorded.enter⟩, _, ⟨_, _, rfl⟩, Stand.record_note _ _⟩
  rw [run_bind]
  apply hentered.andThen
  · rintro _ ⟨i, d, rfl⟩ _ t ht hrecord
    rw [run_bind]
    apply (hbody t ht).andThen
    · intro es hes _ u hu hrecord'
      -- the record from the entry on says where the pass stands
      have hconfirms := hu.recorded.confirmed
      have hreached := hu.recorded.reached
      rw [hrecord', hrecord, List.append_assoc, Scopes.confirms_append, hs.recorded.reached]
        at hconfirms
      rw [hrecord', hrecord, List.append_assoc, Scopes.retold_append, hs.recorded.reached,
        Scopes.retold_append] at hreached
      have hback := (hC es hes s.scopes.enter hs.grown.enter hconfirms.2.2).2
      have hcurrent : u.scopes.current = s.scopes.scopeCount := by
        rw [← hreached]
        exact hback
      have hleft := writes_leave hq hu (by rw [hcurrent]; exact Nat.succ_ne_zero _)
      refine hleft.mono ?_
      rintro _ ⟨j, rfl⟩
      exact ⟨i, d, j, es, hes, rfl⟩
    · intro es hes
      exact ⟨[.left 0], i, d, 0, es, hes, rfl⟩
  · rintro _ ⟨i, d, rfl⟩
    obtain ⟨es, hes⟩ := hsome
    exact ⟨es ++ [.left 0], i, d, 0, es, hes, rfl⟩

/-! ### Grammar functions -/

/-- A form of records that holds variables and goes on. -/
structure Loose (D : List Event → Prop) : Prop where
  nil : D []
  value : ∀ {name : String}, IsName name → ∀ type i, D [.declared ⟨name, .value type⟩ i]
  append : ∀ {es fs : List Event}, D es → D fs → D (es ++ fs)

theorem loose_body : Loose BodyRecord := ⟨.nil, .value, .append⟩

theorem loose_program : Loose ProgramRecord := ⟨.nil, .value, .append⟩

variable (hD : Loose D)
include hD

/-- Two records of a form that goes on. -/
theorem Loose.writes_bind (hp : p.Writes D) (hq : ∀ a, (q a).Writes D) : (p >>= q).Writes D := by
  apply hp.bind
  · intro es hes a s hs
    exact (hq a s hs).mono fun fs hfs => hD.append hes hfs
  · intro es hes
    exact ⟨[], by rwa [List.append_nil]⟩

theorem Loose.writes_quiet_bind (hp : p.Quiet) (hq : ∀ a, (q a).Writes D) : (p >>= q).Writes D :=
  hp.writes_bind hq ⟨[], hD.nil⟩

theorem Loose.writes_repeatWhile (l : Repetition) (opens : Kind → Bool) {body : Pass Unit}
    (h : body.Writes D) (k n : Nat) : Writes (repeatWhile l opens body k n) D := by
  induction n generalizing k with
  | zero => exact fun _ _ => trivial
  | succ n ih =>
    apply hD.writes_quiet_bind quiet_hand
    intro t
    split
    · exact hD.writes_bind h fun _ => ih (k + 1)
    · exact (quiet_pure ()).writes hD.nil

theorem Loose.writes_separated {l : Repetition} {item : Nat → Pass α}
    (h : ∀ i, (item i).Writes D) (n i : Nat) : Writes (separated l item i n) D := by
  induction n generalizing i with
  | zero => exact fun _ _ => trivial
  | succ n ih =>
    rw [separated_succ]
    apply hD.writes_bind (h i)
    intro a
    apply hD.writes_quiet_bind (quiet_accept .comma)
    intro more
    cases more with
    | true => exact hD.writes_bind (ih (i + 1)) fun as => (quiet_pure (a :: as)).writes hD.nil
    | false => exact (quiet_pure [a]).writes hD.nil

/-- A variable is put down before its first value is read. -/
theorem Loose.writes_declarator (n : Nat) (type : ValueType) : Writes (declarator n type) D := by
  apply (reads_expectName _).writes_bind _ ⟨[], hD.nil⟩
  intro name hname
  apply (writes_declare _ name).bind
  · rintro _ ⟨i, rfl⟩ _
    apply (quiet_accept .assign).writes_bind _ ⟨[], hD.value hname type i⟩
    intro more
    have hrest : (if more = true then do
        let value ← expression n
        demand (checkAssignment ⟨name.text, .value type⟩ value) name
      else pure ()).Quiet := by
      split
      · exact (quiet_expression n).bind fun value => quiet_demand _ name
      · exact quiet_pure ()
    exact hrest.writes (hD.value hname type i)
  · rintro _ ⟨i, rfl⟩
    exact ⟨[], hD.value hname type i⟩

theorem Loose.writes_names (n : Nat) (type : ValueType) : Writes (names n type) D := by
  apply hD.writes_bind (hD.writes_separated (fun _ => hD.writes_declarator n type) n 1)
  intro _
  exact (quiet_pure ()).writes hD.nil

theorem Loose.writes_declarators (n : Nat) : Writes (declarators n) D := by
  apply hD.writes_quiet_bind quiet_typeWord
  intro type
  apply hD.writes_bind (hD.writes_names n type)
  intro _
  exact ((quiet_expect _ _).bind fun _ => quiet_pure ()).writes hD.nil

omit hD

/-- A block puts a scope down. -/
theorem writes_block {body : Pass Unit} (h : body.Writes BodyRecord) (n : Nat) :
    Writes (block body n) BodyRecord := by
  have hscope := (loose_body.writes_repeatWhile .statements Kind.opensStatement h 1 n).scope
    (fun _ hes => hes.returns) ⟨[], .nil⟩ (quiet_last .rightBrace .blockClose)
  apply loose_body.writes_quiet_bind (quiet_expect _ _)
  intro _ s hs
  apply (hscope s hs).mono
  rintro _ ⟨i, d, j, es, hes, rfl⟩
  exact .scope i d j hes

theorem writes_loop {body : Pass Unit} (h : body.Writes BodyRecord) (n : Nat) :
    Writes (loop body n) BodyRecord := by
  apply loose_body.writes_quiet_bind (quiet_expect _ _)
  intro _
  apply loose_body.writes_quiet_bind (quiet_expect _ _)
  intro _
  apply loose_body.writes_quiet_bind quiet_hand
  intro first
  apply loose_body.writes_quiet_bind (quiet_expression n)
  intro value
  apply loose_body.writes_quiet_bind (quiet_demand _ first)
  intro _
  exact loose_body.writes_quiet_bind (quiet_expect _ _) fun _ => h

theorem writes_statement : ∀ n, (statement n).Writes BodyRecord
  | 0 => fun _ _ => trivial
  | n + 1 => by
    apply loose_body.writes_quiet_bind quiet_hand
    intro t
    split
    · apply loose_body.writes_quiet_bind quiet_peek
      intro k
      split
      · exact ((quiet_call n).bind fun _ => quiet_last _ _).writes .nil
      · exact ((quiet_assignment n).bind fun _ => quiet_last _ _).writes .nil
    · split
      · exact loose_body.writes_declarators n
      · split
        · exact writes_block (writes_statement n) n
        · exact writes_loop (writes_statement n) n
        · exact (quiet_advance.bind fun _ => quiet_pure ()).writes .nil
        · exact (quiet_unexpected _).writes .nil

theorem exists_parameterRecord {ps : List Parameter} (h : ∀ p ∈ ps, IsName p.name) :
    ∃ es, ParameterRecord ps es := by
  induction ps with
  | nil => exact ⟨[], .nil⟩
  | cons p ps ih =>
    obtain ⟨hp, hps⟩ := List.forall_mem_cons.1 h
    obtain ⟨es, hes⟩ := ih hps
    exact ⟨_, .cons 0 hp hes⟩

theorem writes_declareParameters (k : Nat) {ps : List (Parameter × Token)}
    (h : ∀ p ∈ ps, IsName p.1.name) :
    Writes (declareParameters k ps) (ParameterRecord (ps.map (·.1))) := by
  induction ps generalizing k with
  | nil => exact (quiet_pure ()).writes .nil
  | cons p ps ih =>
    obtain ⟨hp, hps⟩ := List.forall_mem_cons.1 h
    apply (writes_declare _ p.2).bind
    · rintro _ ⟨i, rfl⟩ _ s hs
      exact (ih (k + 1) hps s hs).mono fun es hes => .cons i hp hes
    · rintro _ ⟨i, rfl⟩
      obtain ⟨es, hes⟩ : ∃ es, ParameterRecord (ps.map (·.1)) es :=
        exists_parameterRecord (List.forall_mem_map.2 hps)
      exact ⟨es, .cons i hp hes⟩

/-- What a function puts down in its scope: its parameters, and its body. -/
theorem writes_inside (n : Nat) {ps : List (Parameter × Token)} (h : ∀ p ∈ ps, IsName p.1.name) :
    (do
      declareParameters 1 ps
      let _ ← expect .leftBrace .bodyOpen
      statements (statement n) n
      expect .rightBrace .bodyClose : Pass Token).Writes fun es =>
        ∃ fs gs, ParameterRecord (ps.map (·.1)) fs ∧ BodyRecord gs ∧ es = fs ++ gs := by
  have hbody : (do
      let _ ← expect .leftBrace .bodyOpen
      statements (statement n) n
      expect .rightBrace .bodyClose : Pass Token).Writes BodyRecord := by
    apply loose_body.writes_quiet_bind (quiet_expect _ _)
    intro _
    exact loose_body.writes_bind (loose_body.writes_repeatWhile .statements _ (writes_statement n) 1 n)
      fun _ => (quiet_expect _ _).writes .nil
  apply (writes_declareParameters 1 h).bind
  · intro fs hfs _ s hs
    exact (hbody s hs).mono fun gs hgs => ⟨fs, gs, hfs, hgs, rfl⟩
  · intro fs hfs
    exact ⟨[], fs, [], hfs, .nil, rfl⟩

/-- A function puts down its declaration and its head before its scope. -/
theorem writes_function (n : Nat) : Writes (function n) ProgramRecord := by
  apply loose_program.writes_quiet_bind (quiet_expect _ _)
  intro _
  apply (reads_expectName _).writes_bind _ ⟨[], .nil⟩
  intro name hname
  apply loose_program.writes_quiet_bind (quiet_expect _ _)
  intro _
  apply (reads_parameters n).writes_bind _ ⟨[], .nil⟩
  intro ps hps
  apply loose_program.writes_quiet_bind (quiet_expect _ _)
  intro _
  obtain ⟨es, hes⟩ : ∃ es, ParameterRecord (ps.map (·.1)) es :=
    exists_parameterRecord (List.forall_mem_map.2 hps)
  have hscope := (writes_inside n hps).scope
    (by rintro _ ⟨fs, gs, hfs, hgs, rfl⟩; exact hfs.returns.append hgs.returns)
    ⟨_, es, [], hes, .nil, rfl⟩ (quiet_pure ())
  simp only [bind_assoc, bind_pure_unit] at hscope
  have hform : ∀ i j d k fs gs, ParameterRecord (ps.map (·.1)) fs → BodyRecord gs →
      ProgramRecord (.declared ⟨name.text, .function .void (ps.map (·.1))⟩ i ::
        .headed name.text ps.length :: .entered j d :: ((fs ++ gs) ++ [.left k])) := by
    intro i j d k fs gs hfs hgs
    have hrecord := ProgramRecord.function i j d k hname hfs hgs
    rwa [List.length_map] at hrecord
  apply (writes_declare _ name).bind
  · rintro _ ⟨i, rfl⟩ _
    apply (writes_headed _ _).bind
    · rintro _ rfl _ s hs
      apply (hscope s hs).mono
      rintro _ ⟨j, d, k, _, ⟨fs, gs, hfs, hgs, rfl⟩, rfl⟩
      exact hform i j d k fs gs hfs hgs
    · rintro _ rfl
      exact ⟨_, hform i 0 0 0 es [] hes .nil⟩
  · rintro _ ⟨i, rfl⟩
    exact ⟨_, hform i 0 0 0 es [] hes .nil⟩

theorem writes_declaration (n : Nat) : Writes (declaration n) ProgramRecord := by
  apply loose_program.writes_quiet_bind quiet_hand
  intro t
  split
  · exact writes_function n
  · exact loose_program.writes_declarators n

theorem writes_declarations (n : Nat) : Writes (declarations n) ProgramRecord := by
  apply loose_program.writes_bind
    (loose_program.writes_repeatWhile .declarations _ (writes_declaration n) 1 n)
  intro _
  apply loose_program.writes_quiet_bind quiet_hand
  intro t
  split
  · exact (quiet_unexpected _).writes .nil
  · exact (quiet_pure ()).writes .nil

theorem writes_program (n : Nat) : (program n).Writes ProgramRecord := by
  apply loose_program.writes_bind (writes_declarations n)
  intro _
  exact (quiet_last _ _).writes .nil

end Pass

end OnePass
