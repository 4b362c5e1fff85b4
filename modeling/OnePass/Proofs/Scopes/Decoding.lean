-- An outline tells all scopes, their parents and their members: they can be
-- built up again from its lines. Only which scope was current is lost.
import OnePass.Proofs.Concatenation
import OnePass.Proofs.Scopes.Lines

namespace OnePass

namespace Scopes

variable {s t : Scopes}

/-! ## Building scopes up again -/

/-- What is known after some lines: the births, how many scopes there are,
and the way up from the scope of the last line. -/
structure Rebuilt where
  births : List Birth
  scopes : Nat
  way : List Nat

/-- A line that is `depth` deep stands in the scope on the way up that has as
many scopes around it. -/
def Rebuilt.step (r : Rebuilt) (entry : Nat × Option Symbol) : Rebuilt :=
  let way := r.way.drop (r.way.length - entry.1)
  match entry.2 with
  | none => ⟨r.births ++ [.scope (way.headD 0)], r.scopes + 1, r.scopes :: way⟩
  | some x => ⟨r.births ++ [.symbol (way.headD 0) x], r.scopes, way⟩

def rebuild (es : List (Nat × Option Symbol)) : Rebuilt := es.foldl Rebuilt.step ⟨[], 1, [0]⟩

/-- The scopes are known but for how far the last ones were left. -/
structure Rebuilt.Knows (r : Rebuilt) (s : Scopes) : Prop where
  births : r.births = s.births
  scopes : r.scopes = s.scopeCount
  way : s.enclosing s.current <:+ r.way

theorem Ordered.place_of_mem_births (hs : s.Ordered) : ∀ b ∈ s.births, b.place < s.scopeCount := by
  intro b hb
  have hmem : (b.place, b.content) ∈ s.births.map fun b => (b.place, b.content) :=
    List.mem_map_of_mem hb
  rw [← map_numbered 1 0] at hmem
  obtain ⟨m, hm, heq⟩ := List.mem_map.1 hmem
  have hlt := hs.place_lt m hm
  rwa [(Prod.ext_iff.1 heq).1] at hlt

/-- A birth in the current scope adds a line at the end. -/
theorem Grown.entries_append (hs : s.Grown) (ht : t.Grown) {b : Birth} {ps : List Nat}
    (hb : t.births = s.births ++ [b]) (hp : t.parents = s.parents ++ ps)
    (hplace : b.place = s.current) :
    t.entries = s.entries ++ [(s.depth s.current + 1, b.content)] := by
  have hdepth : ∀ id < s.scopeCount, t.depth id = s.depth id := by
    intro id hid
    unfold depth
    rw [hs.ordered.enclosing_of_parents ht.ordered hp id hid]
  have hold : s.births.map (fun b => (t.depth b.place + 1, b.content)) =
      s.births.map fun b => (s.depth b.place + 1, b.content) := by
    apply List.map_congr_left
    intro c hc
    rw [hdepth _ (hs.ordered.place_of_mem_births c hc)]
  rw [ht.entries_eq, hs.entries_eq, hb, List.map_append, hold, List.map_singleton, hplace,
    hdepth _ hs.ordered.current_lt]

namespace Rebuilt

/-- Who knows the scopes finds the way up from the current one. -/
theorem Knows.way_eq {r : Rebuilt} (h : r.Knows s) (hs : s.Ordered) :
    ∃ l, r.way.drop (r.way.length - (s.depth s.current + 1)) = s.current :: l ∧
      s.enclosing s.current = s.current :: l := by
  obtain ⟨l, hl⟩ := hs.exists_enclosing_eq _ hs.current_lt
  have hlength : s.depth s.current + 1 = (s.enclosing s.current).length := by
    rw [depth, hl]
    rfl
  refine ⟨l, ?_, hl⟩
  rw [hlength, ← hl]
  exact (List.suffix_iff_eq_drop.1 h.way).symm

theorem Knows.enter {r : Rebuilt} (h : r.Knows s) (hs : s.Ordered) :
    (r.step (s.depth s.current + 1, none)).Knows s.enter := by
  obtain ⟨l, hway, hl⟩ := h.way_eq hs
  have hstep : r.step (s.depth s.current + 1, none) =
      ⟨r.births ++ [.scope s.current], r.scopes + 1, r.scopes :: s.current :: l⟩ := by
    simp only [step, hway, List.headD_cons]
  rw [hstep]
  refine ⟨?_, ?_, ?_⟩
  · rw [h.births, births_enter]
  · rw [h.scopes, scopeCount_enter]
  · have hchain : s.enter.enclosing s.enter.current = r.scopes :: s.current :: l := by
      rw [current_enter, hs.enclosing_enter, hl, h.scopes]
    exact ⟨[], hchain⟩

theorem Knows.leave {r : Rebuilt} (h : r.Knows s) (hs : s.Ordered) (ht : s.leave? = some t) :
    r.Knows t := by
  obtain ⟨p, hp, rfl⟩ := leave?_eq_some_iff.1 ht
  refine ⟨h.births, h.scopes, ?_⟩
  have hway := h.way
  rw [hs.enclosing_of_parent? hp] at hway
  exact (List.suffix_cons _ _).trans hway

theorem Knows.declare {r : Rebuilt} {x : Symbol} (h : r.Knows s) (hs : s.Ordered)
    (ht : s.declare? x = some t) : (r.step (s.depth s.current + 1, some x)).Knows t := by
  obtain ⟨l, hway, hl⟩ := h.way_eq hs
  have hstep : r.step (s.depth s.current + 1, some x) =
      ⟨r.births ++ [.symbol s.current x], r.scopes, s.current :: l⟩ := by
    simp only [step, hway, List.headD_cons]
  have hparents := parents_declare? ht
  rw [hstep]
  refine ⟨?_, ?_, ?_⟩
  · rw [h.births, births_declare? ht]
  · rw [h.scopes]
    exact (congrArg (·.length + 1) hparents).symm
  · have hchain : t.enclosing t.current = s.current :: l := by
      rw [current_declare? ht, enclosing_congr hparents, hl]
    exact ⟨[], hchain⟩

end Rebuilt

theorem rebuild_concat (es : List (Nat × Option Symbol)) (e : Nat × Option Symbol) :
    rebuild (es ++ [e]) = (rebuild es).step e := by
  rw [rebuild, List.foldl_append]
  rfl

/-- A line for each birth is enough to know the scopes. -/
theorem Grown.knows (h : s.Grown) : (rebuild s.entries).Knows s := by
  induction h with
  | empty =>
    rw [Grown.empty.entries_eq]
    exact ⟨rfl, rfl, by simp [rebuild, Scopes.empty]⟩
  | @enter s hs ih =>
    rw [hs.entries_append hs.enter s.births_enter s.parents_enter rfl, rebuild_concat]
    exact ih.enter hs.ordered
  | @leave s t hs ht ih =>
    have hentries : t.entries = s.entries := by
      rw [(hs.leave ht).entries_eq, hs.entries_eq, births_leave? ht]
      unfold depth enclosing parents
      rw [births_leave? ht]
    rw [hentries]
    exact ih.leave hs.ordered ht
  | @declare s t x hs ht ih =>
    have hparents : t.parents = s.parents ++ [] := by rw [parents_declare? ht, List.append_nil]
    rw [hs.entries_append (hs.declare ht) (births_declare? ht) hparents rfl, rebuild_concat]
    exact ih.declare hs.ordered ht

/-- Scopes with one outline had the same births. -/
theorem Grown.births_unique (hs : s.Grown) (ht : t.Grown) (hsw : s.Named) (htw : t.Named)
    (h : s.outline = t.outline) : s.births = t.births := by
  rw [← hs.knows.births, ← ht.knows.births, hs.entries_unique ht hsw htw h]

theorem outline_congr (hs : s.Ordered) (ht : t.Ordered) (h : t.births = s.births) :
    t.outline = s.outline := by
  unfold outline walk
  rw [hs.walkFrom_congr ht h 0 (Nat.zero_lt_succ _)]

/-! ## Names in scopes -/

theorem names_append {bs : List Birth} (h : t.births = s.births ++ bs) :
    t.names = s.names ++ bs.flatMap Birth.names := by
  rw [names, h, List.flatMap_append]
  rfl

end Scopes

/-- All names that the act brings are written as names are. -/
def Act.Named : Act → Prop
  | .declare x => x.Named
  | _ => True

instance : (a : Act) → Decidable a.Named
  | .declare x => inferInstanceAs (Decidable x.Named)
  | .enter => isTrue trivial
  | .leave => isTrue trivial

namespace Scopes

variable {s t : Scopes}

theorem Named.act (h : s.Named) {a : Act} (ha : a.Named) : (s.act a).2.Named := by
  intro n hn
  cases a with
  | enter =>
    rw [show (s.act .enter).2 = s.enter from rfl, names_append s.births_enter,
      List.mem_append] at hn
    exact hn.elim (h n) fun hn => absurd hn List.not_mem_nil
  | leave =>
    cases ht : s.leave? with
    | none =>
      simp only [Scopes.act, ht] at hn
      exact h n hn
    | some t =>
      simp only [Scopes.act, ht, names, births_leave? ht] at hn
      exact h n hn
  | declare x =>
    cases ht : s.declare? x with
    | none =>
      simp only [Scopes.act, ht] at hn
      exact h n hn
    | some t =>
      simp only [Scopes.act, ht, names_append (births_declare? ht), List.mem_append] at hn
      exact hn.elim (h n) fun hn => ha n (by simpa [Birth.names] using hn)

theorem Named.after (h : s.Named) {acts : List Act} (hacts : ∀ a ∈ acts, a.Named) :
    (s.after acts).Named := by
  induction acts generalizing s with
  | nil => exact h
  | cons a acts ih =>
    obtain ⟨ha, hacts⟩ := List.forall_mem_cons.1 hacts
    exact ih (h.act ha) hacts

end Scopes

/-- All names in the scopes of a program are written as names are. -/
theorem named_of_accepted {source : String} {s : Scopes} (h : (analyze source).verdict = .ok s) :
    s.Named := by
  intro n hn
  rcases List.mem_cons.1 (names_subset h hn) with rfl | hn
  · decide
  · obtain ⟨t, ht, hk, rfl⟩ := mem_namesOf.1 hn
    obtain ⟨cs, hl⟩ := exists_lexes_of_mem ht (by rw [hk]; nofun)
    exact hl.isName (by rw [hk]; rfl)

/-- At the end of a program the global scope is current. -/
theorem current_of_accepted {source : String} {s : Scopes} (h : (analyze source).verdict = .ok s) :
    s.current = 0 := by
  rw [← examine_reel] at h
  obtain ⟨x, -, hx⟩ := exists_program_of_ok h
  have hsteady := Grammar.Check.Steady.forM fun _ hg => x.steady_global hg
  exact (hsteady.adds (x.meaning_eq_ok_iff.1 hx)).current

/-! ## The law -/

/-- What outlines tell, where all names are written as names are. -/
structure OutlinesTell : Prop where
  /-- Scopes that look the same are the same, but for which one is current. -/
  apart : ∀ acts acts' : List Act, (∀ a ∈ acts, a.Named) → (∀ a ∈ acts', a.Named) →
    (Scopes.empty.after acts).outline = (Scopes.empty.after acts').outline →
    Scopes.empty.after acts =
      { Scopes.empty.after acts' with current := (Scopes.empty.after acts).current }
  /-- The outline does not say which one is current, and says all the rest. -/
  readable : ∃ read : String → Scopes, ∀ acts : List Act, (∀ a ∈ acts, a.Named) →
    read (Scopes.empty.after acts).outline = { Scopes.empty.after acts with current := 0 }
  /-- Programs with one outline have the same scopes. -/
  accepted : ∀ (p q : String) (s t : Scopes), (analyze p).verdict = .ok s →
    (analyze q).verdict = .ok t → s.outline = t.outline → s = t

open Scopes in
/-- Scopes are told apart by their outlines. -/
theorem outlines_tell_scopes_apart : OutlinesTell := by
  have hnamed : ∀ acts : List Act, (∀ a ∈ acts, a.Named) → (empty.after acts).Named :=
    fun acts h => Named.after (fun n hn => absurd hn List.not_mem_nil) h
  have hbirths : ∀ acts acts' : List Act, (∀ a ∈ acts, a.Named) → (∀ a ∈ acts', a.Named) →
      (empty.after acts).outline = (empty.after acts').outline →
      (empty.after acts).births = (empty.after acts').births := by
    intro acts acts' h h' heq
    exact (grown_after acts).births_unique (grown_after acts') (hnamed acts h) (hnamed acts' h')
      heq
  refine ⟨?_, ?_, ?_⟩
  · intro acts acts' h h' heq
    exact congrArg (Scopes.mk · _) (hbirths acts acts' h h' heq)
  · -- Any acts with such an outline will do.
    classical
    let read : String → Scopes := fun o =>
      if h : ∃ acts, (∀ a ∈ acts, Act.Named a) ∧ (empty.after acts).outline = o then
        { empty.after h.choose with current := 0 }
      else empty
    refine ⟨read, ?_⟩
    intro acts hacts
    have hex : ∃ acts', (∀ a ∈ acts', Act.Named a) ∧
        (empty.after acts').outline = (empty.after acts).outline := ⟨acts, hacts, rfl⟩
    obtain ⟨hchosen, houtline⟩ := hex.choose_spec
    have hsame := hbirths _ _ hchosen hacts houtline
    show read _ = _
    simp only [read]
    rw [dif_pos hex, hsame]
  · intro p q s t hs ht heq
    have hsame := (grown_of_accepted hs).births_unique (grown_of_accepted ht)
      (named_of_accepted hs) (named_of_accepted ht) heq
    have hcurrent := (current_of_accepted hs).trans (current_of_accepted ht).symm
    obtain ⟨bs, c⟩ := s
    obtain ⟨cs, d⟩ := t
    rw [show bs = cs from hsame, show c = d from hcurrent]

open Scopes in
/-- Two histories of one outline: the global scope is not left, and `f` is
not declared a second time. -/
theorem a_refused_act_has_no_line :
    empty.after [.declare ⟨"f", .function .int [⟨"a", .char⟩, ⟨"b", .double⟩]⟩, .enter] =
      { empty.after [.leave, .declare ⟨"f", .function .int [⟨"a", .char⟩, ⟨"b", .double⟩]⟩,
          .declare ⟨"f", .value .int⟩, .enter, .leave] with current := 1 } := by
  refine outlines_tell_scopes_apart.apart _ _ (by decide) (by decide) ?_
  exact outline_congr (grown_after _).ordered (grown_after _).ordered (by decide)

end OnePass
