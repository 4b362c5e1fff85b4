-- The analysis of a text always makes progress: no round ends and nothing is
-- opened inside itself before a token is put away, and so the run comes to an
-- end, and both depth and rounds stay within the number of the tokens.
import OnePass.Analysis
import OnePass.Proofs.Descent.Nesting

namespace OnePass

namespace Config

/-! ## Moments -/

/-- The analysis of a text, before its first token. -/
def before (source : String) : Stand Cursor :=
  Pass.ready (Cursor.start source.toList) #[.started (Text.bytes source.toList)]

/-- A moment of the analysis of a text, from the first token on. -/
inductive Reached (source : String) : Config Cursor Unit → Prop
  | start {s : Stand Cursor} (h : (before source).advance = .done () s) :
    Reached source ⟨Descent.program (s.left + 1), s, 0, []⟩
  | step {c d : Config Cursor Unit} (hc : Reached source c) (h : Step c d) : Reached source d

variable {source : String} {c : Config Cursor Unit}

theorem Reached.sound (h : Reached source c) : c.Sound := by
  induction h with
  | start h => exact ⟨Descent.orderly_program _ _, .nil, nofun, nofun, nofun⟩
  | step hc h ih => exact ih.step h

theorem Reached.at (h : Reached source c) : c.stand.At (tokenize source) c.index := by
  induction h with
  | @start s h =>
    have hs : (before source).pull = s := by
      rw [← Stand.stand_advance, h]
      rfl
    refine ⟨Cursor.start source.toList, ?_, rfl⟩
    rw [← hs, Stand.hand_pull, Stand.feed_pull]
    rfl
  | step hc h ih => exact h.at ih

/-- What is still to come leads to the end of the whole pass. -/
theorem Reached.run_eq (h : Reached source c) :
    c.rest.plain.run c.stand = Pass.whole (Cursor.start source.toList)
      #[.started (Text.bytes source.toList)] := by
  induction h with
  | @start s h =>
    show _ = (before source).advance.andThen _
    rw [h, Descent.plain_program]
    rfl
  | step hc h ih => rw [h.run_eq, ih]

/-- The run is over, with this verdict. -/
def Ends (c : Config Cursor Unit) : Except Rejection Scopes → Prop
  | .ok scopes => c.rest = .done () ∧ c.frames = [] ∧ c.stand.scopes = scopes
  | .error r => c.rest = .reject r

theorem Reached.step_or_ends (h : Reached source c) :
    (∃ d, Step c d) ∨ c.Ends (analyze source).verdict := by
  have hrun := h.run_eq
  obtain hstep | ⟨_, hrest, hframes⟩ | ⟨r, hrest⟩ | hrest := h.sound.step_or_end
  · exact .inl hstep
  · rw [hrest] at hrun
    have hverdict : (analyze source).verdict = .ok c.stand.scopes :=
      verdict_eq_ok_iff.2 ⟨_, hrun.symm, rfl⟩
    rw [hverdict]
    exact .inr ⟨hrest, hframes, rfl⟩
  · rw [hrest] at hrun
    have hverdict : (analyze source).verdict = .error r := verdict_eq_error_iff.2 ⟨_, hrun.symm⟩
    rw [hverdict]
    exact .inr hrest
  · rw [hrest] at hrun
    exact absurd hrun.symm (Pass.whole_ne_exhausted _ _ _)

/-- From every moment on the run comes to its end. -/
theorem Reached.exists_ends (h : Reached source c) :
    ∃ d, Reached source d ∧ d.Ends (analyze source).verdict := by
  have hacc := wellFounded_step.apply c
  induction hacc with
  | intro c _ ih =>
    obtain ⟨d, hd⟩ | hends := h.step_or_ends
    · exact ih d hd (h.step hd)
    · exact ⟨c, h, hends⟩

/-- The marks hide nothing: wherever the pass comes by, there is a moment. -/
theorem Reached.exists_of_visits {u : Stand Cursor} (h : Reached source c)
    (hu : Pass.Visits c.rest.plain c.stand u) : ∃ d, Reached source d ∧ d.stand = u := by
  obtain ⟨rest, s, i, fs⟩ := c
  induction rest generalizing s i fs with
  | done a =>
    cases hu
    exact ⟨_, h, rfl⟩
  | reject r =>
    cases hu
    exact ⟨_, h, rfl⟩
  | exhausted =>
    cases hu
    exact ⟨_, h, rfl⟩
  | ask m go ih =>
    cases hu with
    | here => exact ⟨_, h, rfl⟩
    | move hm hu => exact ih _ _ _ _ (h.step (.move hm)) hu
    | stop hm => exact ⟨_, h.step (.stop hm), rfl⟩
  | opens site rest ih => exact ih _ _ _ (h.step .opens) hu
  | closes rest ih =>
    obtain ⟨f, gs, rfl, -, -⟩ := h.sound.orderly
    exact ih _ _ _ (h.step .closes) hu

end Config

/-! ## The law -/

open Config in
/-- What progress means for the analysis of a text, with a bound `k` for each
token. -/
structure MakesProgress (k : Nat) (source : String) : Prop where
  /-- The moments are those of the analysis. -/
  moments : ∀ s u, (before source).advance = .done () s →
    Pass.Visits (Pass.program (s.left + 1)) s u → ∃ c, Reached source c ∧ c.stand = u
  hand : ∀ c, Reached source c → (tokenize source)[c.index]? = some c.stand.hand
  /-- A round has put a token away when it is over. -/
  rounds : ∀ c, Reached source c → ∀ rest f fs l n, c.rest = .closes rest → c.frames = f :: fs →
    f.site = .round l n → l ≠ .declared → f.index < c.index
  /-- A production inside itself started after another token was put away. -/
  nested : ∀ c, Reached source c → c.frames.Pairwise fun f g =>
    ∀ p, f.site = .call p → g.site = .call p → g.index < f.index
  /-- Only the program itself puts the finish away. -/
  finish : ∀ c, Reached source c → ∀ go, c.rest = .ask .advance go →
    c.stand.hand.kind = .finish → c.frames = outermost
  /-- A run does not stop without a verdict, and does not go on for ever. -/
  onward : ∀ c, Reached source c → (∃ d, Step c d) ∨ c.Ends (analyze source).verdict
  finite : ∀ c, Reached source c → Acc (fun d c => Step c d) c
  /-- The verdict comes at the end of the run, unless the first token is
  invalid. -/
  verdict : (∃ c, Reached source c ∧ c.Ends (analyze source).verdict) ∨
    ∃ r s, (before source).advance = .rejected r s ∧ (analyze source).verdict = .error r
  /-- Not more is open at a time. -/
  depth : ∀ c, Reached source c → c.frames.length ≤ k * (tokenize source).length
  /-- No repetition has more rounds. -/
  length : ∀ c, Reached source c → ∀ f ∈ c.frames, ∀ l n, f.site = .round l n →
    n ≤ k * (tokenize source).length

open Config in
/-- The marked grammar is the grammar of the analysis, and on every text it
makes progress. -/
theorem parsing_makes_progress :
    (∀ n, (Descent.program n).plain = Pass.program n) ∧ ∃ k, ∀ source, MakesProgress k source := by
  refine ⟨Descent.plain_program, ranks, fun source => ⟨?_, fun c hc => hc.at.getElem?_eq, ?_, ?_, ?_,
    fun c hc => hc.step_or_ends, fun c _ => wellFounded_step.apply c, ?_, ?_, ?_⟩⟩
  · intro s u hs hu
    rw [← Descent.plain_program] at hu
    exact (Reached.start hs).exists_of_visits hu
  · rintro ⟨rest, s, i, fs⟩ hc rest' f gs l n rfl rfl hsite hl
    obtain ⟨_, _, hfs, hpassed, -⟩ := hc.sound.orderly
    cases hfs
    exact hpassed l n hsite hl
  · intro c hc
    refine (List.isChain_iff_pairwise.1 hc.sound.nested).imp fun {f g} h p hf hg => ?_
    exact h.index_lt (by rw [hf, hg])
  · rintro ⟨rest, s, i, fs⟩ hc go rfl hfinish
    exact hc.sound.orderly.1 rfl hfinish
  · cases h : (before source).advance with
    | done _ s => exact .inl (Reached.start h).exists_ends
    | rejected r s =>
      refine .inr ⟨r, s, rfl, verdict_eq_error_iff.2 ⟨s, ?_⟩⟩
      show (before source).advance.andThen _ = _
      rw [h]
      rfl
    | exhausted s => exact absurd h ((before source).perform_ne_exhausted .advance s)
  · intro c hc
    exact hc.sound.depth_le.trans (Nat.mul_le_mul_left _ hc.at.lt_length)
  · intro c hc f hf l n hsite
    have hcounted := hc.sound.counted f hf
    have hbehind := hc.sound.behind f hf
    have hlt := hc.at.lt_length
    rw [hsite] at hcounted
    simp only [Site.number] at hcounted
    unfold ranks
    omega

end OnePass
