-- The trace of an analysis shows every token that was read, in order and
-- once; only the token behind a name that leads a statement is there twice,
-- since the pass looks ahead there to tell a call from an assignment.
import Mathlib.Data.List.Count
import OnePass.Proofs.Blame
import OnePass.Proofs.Journal.Readings
import OnePass.Proofs.Lexicon.Coverage

namespace OnePass

open Grammar

/-! ## Whole passes -/

namespace Pass

/-- At the end of a program all its tokens were read. -/
theorem shows_finish {ts : List Token} {s : Stand Reel} {m : Moment} (hs : s.Shows ts m) :
    (Pass.run (do let _ ← Pass.expect .finish .endOfProgram) s).Keeps (showing ts)
      fun _ t => t.trace = (Moment.inside.readings ts).map .read := by
  rw [run_bind, run_expect]
  by_cases hf : s.hand.kind = .finish
  · obtain ⟨before, more, rfl, hholds, -, htrace⟩ := hs
    obtain rfl := hholds.eq_singleton hf
    have hpull : s.pull.hand = s.hand := (hholds.pull_finish hf).hand
    have hnoted : noted 1 s.hand = [] := if_pos hf
    rw [if_pos hf, run_advance, Stand.advance, Stand.settle, hpull, hf]
    show s.pull.trace = _
    rw [Stand.trace_pull, hpull, hnoted, List.append_nil, htrace]
  · rw [if_neg hf]
    exact ⟨m, hs⟩

/-- What the pass over some tokens reads. -/
theorem whole_shows (r : Reel) {j : Array Event}
    (hj : j.toList.filter (·.severity = .trace) = []) :
    (whole r j).Keeps (showing r.tokens)
      fun _ s => s.trace = (Moment.inside.readings r.tokens).map .read := by
  have hready : (ready r j).pull.Shows r.tokens .inside := by
    refine ⟨[], r.tokens, rfl, Stand.holds_pull _, rfl, ?_⟩
    rw [Stand.trace_pull, List.nil_append, Moment.map_readings_singleton]
    show j.toList.filter _ ++ _ = _
    rw [hj]
    rfl
  unfold whole Stand.advance
  apply (Tells.keeps_settle (B := fun _ => True) hready trivial).andThen
  rintro _ s ⟨m, hs, -⟩
  unfold program Parse.program
  rw [within_eq, run_bind]
  apply (tells_declarations _ s.hand s m rfl hs trivial).andThen
  rintro _ t ⟨m', ht, -⟩
  exact shows_finish ht

end Pass

/-! ## What stands before the last token read -/

theorem Stand.Holds.unique {s : Stand Reel} {us vs : List Token} (h : s.Holds us)
    (h' : s.Holds vs) : us = vs := by
  unfold Stand.Holds at h h'
  split at h
  · rename_i hf
    rw [if_pos hf] at h'
    exact h.1.trans h'.1.symm
  · rename_i hf
    rw [if_neg hf] at h'
    exact h.trans h'.symm

/-- Programs that begin with some tokens say the same of how often these and
the next one are read. -/
theorem Grammar.Program.readings_of_begins {x : Program} {before us : List Token} {t u : Token}
    (hx : x.spelling = before ++ u :: us) :
    readings (before ++ [t]) x.times = Moment.inside.readings (before ++ [t]) := by
  rw [x.times_eq, hx]
  exact Moment.readings_of_counts _ _ _ _ _

theorem mem_of_mem_readings {ts : List Token} {ns : List Nat} {t : Token}
    (h : t ∈ readings ts ns) : t ∈ ts := by
  obtain ⟨⟨u, n⟩, hu, ht⟩ := List.mem_flatMap.1 h
  split at ht
  · cases ht
  · rw [List.eq_of_mem_replicate ht]
    exact (List.of_mem_zip hu).1

/-- Of different tokens none is read more than twice. -/
theorem Moment.count_readings_le {ts : List Token} (h : ts.Nodup) (m : Moment) (t : Token) :
    (m.readings ts).count t ≤ 2 := by
  induction ts generalizing m with
  | nil => exact Nat.zero_le 2
  | cons u ts ih =>
    obtain ⟨hu, hts⟩ := List.nodup_cons.1 h
    have hsplit : m.readings (u :: ts) = m.readings [u] ++ (m.next u.kind).readings ts :=
      m.readings_append [u] ts
    rw [hsplit, List.count_append]
    by_cases htu : t = u
    · subst htu
      have hrest : ((m.next t.kind).readings ts).count t = 0 :=
        List.count_eq_zero_of_not_mem fun hmem => hu (mem_of_mem_readings hmem)
      have hfirst : (m.readings [t]).count t ≤ m.times := by
        rw [readings_singleton]
        split
        · exact Nat.zero_le _
        · rw [List.count_replicate_self]
      have htimes : m.times ≤ 2 := by cases m <;> decide
      omega
    · have hfirst : (m.readings [u]).count t = 0 :=
        List.count_eq_zero_of_not_mem fun hmem =>
          htu (List.mem_singleton.1 (mem_of_mem_readings hmem))
      have hrest := ih hts (m.next u.kind)
      omega

/-! ## The law -/

/-- The entries that tell of tokens read. -/
def Analysis.trace (a : Analysis) : List Event := a.journal.toList.filter (·.severity = .trace)

/-- How the tokens of a text are read. -/
structure ReadInOrder (source : String) : Prop where
  /-- All tokens of a program are read, and its tree says how often. -/
  accepted : ∀ scopes, (analyze source).verdict = .ok scopes →
    (∃ x : Program, x.spelling = tokenize source) ∧
    ∀ x : Program, x.spelling = tokenize source →
      (analyze source).trace = (readings (tokenize source) x.times).map .read
  /-- Of a text that is turned down the tokens are read up to the one that was
  in hand then. Any program that begins with those before it says how often. -/
  rejected : ∀ r, (analyze source).verdict = .error r → ∃ s before more,
    Pass.whole (Cursor.start source.toList) #[.started (Text.bytes source.toList)] =
      .rejected r s ∧
    tokenize source = before ++ s.hand :: more ∧
    (r.cause.stage ≠ .semantic → r.token = s.hand) ∧
    (∃ (x : Program) (ws : List Token), x.spelling = before ++ ws) ∧
    ∀ (x : Program) (ws : List Token), x.spelling = before ++ ws →
      (analyze source).trace = (readings (before ++ [s.hand]) x.times).map .read
  /-- No token but the finish is read more than twice. -/
  twice : ∀ t, (analyze source).trace.count (.read t) ≤ 2

variable {source : String} {t : Stand Reel}

theorem trace_of_done
    (h : Pass.whole (reel source) #[.started (Text.bytes source.toList)] = .done () t) :
    (analyze source).trace = t.trace := by
  rw [← examine_reel, examine_of_done h]
  simp [Analysis.trace, Stand.trace, Event.severity]

theorem trace_of_rejected {r : Rejection}
    (h : Pass.whole (reel source) #[.started (Text.bytes source.toList)] = .rejected r t) :
    (analyze source).trace = t.trace := by
  rw [← examine_reel, examine_of_rejected h]
  rfl

/-- The pass over a text is turned down where the one over its tokens is. -/
theorem exists_whole_cursor {r : Rejection}
    (h : Pass.whole (reel source) #[.started (Text.bytes source.toList)] = .rejected r t) :
    ∃ s, Pass.whole (Cursor.start source.toList) #[.started (Text.bytes source.toList)] =
      .rejected r s ∧ s.hand = t.hand := by
  have hf : (Cursor.tie [.started (Text.bytes source.toList)]).feed
      (Cursor.start source.toList) (reel source) := tokens_reel source
  rcases Lockstep.whole_cases hf rfl rfl rfl with
    ⟨s, u, -, hu, -⟩ | ⟨c, v, w, s, u, hs, hu, hvw, hsu⟩
  · cases h.symm.trans hu
  · cases h.symm.trans hu
    cases (show v = w from hvw)
    exact ⟨s, hs.trans (congrArg (Outcome.rejected ⟨·, v⟩ s) c.rename_id.symm), hsu.hand⟩

/-- Before the token in hand there is no finish yet, so a program that begins
like that goes on. -/
theorem exists_more_of_begins {x : Program} {before more ws : List Token} {u : Token}
    (hT : tokenize source = before ++ u :: more) (hx : x.spelling = before ++ ws) :
    ∃ v us, ws = v :: us := by
  cases ws with
  | cons v us => exact ⟨v, us, rfl⟩
  | nil =>
    rw [List.append_nil] at hx
    have hstop : (reel source).tokens =
        x.declarations.flatMap Declaration.spelling ++ x.stop.1 :: u :: more := by
      rw [tokens_reel, hT, ← hx, Program.spelling, List.append_assoc, List.singleton_append]
    exact absurd ((Reel.finish_iff hstop).1 x.stop.2) (List.cons_ne_nil u more)

/-- No token of a text is in a beginning of its trace more than twice. -/
theorem count_readings_tokens {before more : List Token}
    (h : tokenize source = before ++ more) (u : Token) :
    ((Moment.inside.readings before).map Event.read).count (.read u) ≤ 2 := by
  have hnodup : before.Nodup := by
    have hall := Lexicon.nodup_tokenize source
    rw [h] at hall
    exact (List.nodup_append.1 hall).1
  have hinjective : Function.Injective Event.read := fun _ _ => Event.read.inj
  rw [List.count_map_of_injective _ _ hinjective]
  exact Moment.count_readings_le hnodup _ u

/-- The tokens of a text are read in order, each of them once, but for the
one behind a name that leads a statement. -/
theorem tokens_are_read_in_order (source : String) : ReadInOrder source := by
  have hshows := Pass.whole_shows (reel source) (j := #[.started (Text.bytes source.toList)]) rfl
  have hjudges := judges_whole (reel source) #[.started (Text.bytes source.toList)]
  have hverdict := examine_reel source
  cases hw : Pass.whole (reel source) #[.started (Text.bytes source.toList)] with
  | done _ t =>
    rw [hw, tokens_reel] at hshows hjudges
    obtain ⟨x, hx, -⟩ := hjudges
    have htrace := (trace_of_done hw).trans hshows
    refine ⟨?_, ?_, ?_⟩
    · intro _ _
      refine ⟨⟨x, hx⟩, ?_⟩
      intro y hy
      rw [htrace, y.times_eq, hy]
      rfl
    · intro r hr
      rw [← examine_reel, examine_of_done hw] at hr
      cases hr
    · intro u
      rw [htrace]
      exact count_readings_tokens (List.append_nil _).symm u
  | rejected r t =>
    rw [hw, tokens_reel] at hshows hjudges
    obtain ⟨x, ts, ws, more, hx, hT, hholds, hr⟩ := hjudges
    obtain ⟨m, before, more', hT', hholds', -, htrace⟩ := hshows
    obtain rfl := hholds.unique hholds'
    obtain rfl := List.append_cancel_right (hT.symm.trans hT')
    have htrace := (trace_of_rejected hw).trans htrace
    obtain ⟨s, hs, hhand⟩ := exists_whole_cursor hw
    refine ⟨?_, ?_, ?_⟩
    · intro scopes hscopes
      rw [← examine_reel, examine_of_rejected hw] at hscopes
      cases hscopes
    · intro r' hr'
      rw [← examine_reel, examine_of_rejected hw] at hr'
      cases hr'
      refine ⟨s, ts, more, hs, hhand ▸ hT, ?_, ⟨x, ws, hx⟩, ?_⟩
      · intro hstage
        rcases hr with ⟨-, hr⟩ | hr
        · obtain ⟨v, hv⟩ := Program.cause_of_meaning hr
          rw [hv] at hstage
          exact absurd rfl hstage
        · rw [hhand]
          cases hr <;> rfl
      · intro y us hy
        obtain ⟨v, us, rfl⟩ := exists_more_of_begins hT hy
        rw [htrace, hhand, y.readings_of_begins hy]
    · intro u
      rw [htrace]
      exact count_readings_tokens (by rw [hT, List.append_assoc]; rfl) u
  | exhausted t => exact absurd hw (Pass.whole_ne_exhausted _ _ t)

end OnePass
