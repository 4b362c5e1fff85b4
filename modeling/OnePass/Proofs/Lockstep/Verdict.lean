-- Whole passes and their verdicts side by side.
import OnePass.Analysis
import OnePass.Proofs.Lockstep.Program

namespace OnePass

variable {φ ψ : Type} [Feed φ] [Feed ψ] {T : Tie φ ψ} {f : φ} {g : ψ} {j k : Array Event}

/-- Passes over feeds that are in step agree, even if the budgets differ. -/
theorem Lockstep.whole (hf : T.feed f g) (hj : j.toList = T.begun.1)
    (hk : k.toList = T.begun.2) : T.Agree Eq (Pass.whole f j) (Pass.whole g k) := by
  have hn : T.Noted j k := by
    refine ⟨[], [], ?_, ?_, .nil⟩
    · rw [hj, List.append_nil]
    · rw [hk, List.append_nil]
  unfold Pass.whole
  apply (Tie.agree_advance (s := Pass.ready f j) (t := Pass.ready g k) hf rfl hn).andThen
  · intro _ s
    exact (Pass.program _).left_run_le s
  · intro _ _ s t _ hs
    exact program (s.left + 1) (t.left + 1) s t hs

/-- While there is no bound on the tie, the passes end alike. -/
theorem Lockstep.whole_cases (hf : T.feed f g) (hj : j.toList = T.begun.1)
    (hk : k.toList = T.begun.2) (hr : T.reserve = 0) :
    (∃ s t, Pass.whole f j = .done () s ∧ Pass.whole g k = .done () t ∧ T.Abreast s t) ∨
      ∃ c u v s t, Pass.whole f j = .rejected ⟨c, u⟩ s ∧
        Pass.whole g k = .rejected ⟨c.rename T.word, v⟩ t ∧ T.same u v ∧ T.Abreast s t := by
  have h := Lockstep.whole hf hj hk
  have hf' := Pass.whole_ne_exhausted f j
  have hg' := Pass.whole_ne_exhausted g k
  generalize Pass.whole f j = o at h hf'
  generalize Pass.whole g k = o' at h hg'
  cases h with
  | @done _ _ s t _ hs => exact Or.inl ⟨s, t, rfl, rfl, hs⟩
  | @rejected c u v s t hu hs => exact Or.inr ⟨c, u, v, s, t, rfl, rfl, hu, hs⟩
  | beyond hb =>
    rw [hr] at hb
    exact absurd hb (Nat.not_lt_zero _)
  | firstShort s => exact absurd rfl (hf' s)
  | secondShort _ t => exact absurd rfl (hg' t)

/-- Both programs are accepted with the same scopes, or both are turned down
for the same cause, but for the names. -/
theorem Lockstep.verdicts (hf : T.feed f g) (hj : j.toList = T.begun.1)
    (hk : k.toList = T.begun.2) (hr : T.reserve = 0) :
    (∃ scopes, (examine f j).verdict = .ok scopes ∧
      (examine g k).verdict = .ok (scopes.rename T.word)) ∨
      ∃ c u v, (examine f j).verdict = .error ⟨c, u⟩ ∧
        (examine g k).verdict = .error ⟨c.rename T.word, v⟩ ∧ T.same u v := by
  rcases Lockstep.whole_cases hf hj hk hr with ⟨s, t, hs, ht, hst⟩ | ⟨c, u, v, s, t, hs, ht, hu, -⟩
  · refine Or.inl ⟨s.scopes, ?_, ?_⟩
    · rw [examine_of_done hs]
    · rw [examine_of_done ht, hst.scopes]
  · refine Or.inr ⟨c, u, v, ?_, ?_, hu⟩
    · rw [examine_of_rejected hs]
    · rw [examine_of_rejected ht]

/-! ## Ties that change nothing -/

theorem Tie.eq_of_told (hw : T.word = id) (hs : ∀ u v, T.same u v → u = v) {e e' : Event}
    (h : T.Told e e') : e = e' := by
  cases h with
  | read h => rw [hs _ _ h]
  | declared x i => rw [hw, Symbol.rename_id]
  | headed n i => rw [hw]; rfl
  | entered | left => rfl

/-- If tokens stand only for themselves, then the whole analyses are equal,
their journals included. -/
theorem Lockstep.examine_eq (hf : T.feed f g) (hw : T.word = id)
    (hs : ∀ u v, T.same u v → u = v) (hj : j.toList = T.begun.1) (hb : T.begun.1 = T.begun.2)
    (hr : T.reserve = 0) : examine f j = examine g j := by
  have journals : ∀ {s : Stand φ} {t : Stand ψ}, T.Abreast s t → s.journal = t.journal := by
    intro s t h
    obtain ⟨es, fs, he, hf, hef⟩ := h.journal
    have : es = fs := by
      have := hef.imp fun _ _ => Tie.eq_of_told hw hs
      rwa [List.forall₂_eq_eq_eq] at this
    apply Array.toList_inj.1
    rw [he, hf, hb, this]
  rcases Lockstep.whole_cases hf hj (hj.trans hb) hr with
    ⟨s, t, h1, h2, hst⟩ | ⟨c, u, v, s, t, h1, h2, hu, hst⟩
  · have hscopes : t.scopes = s.scopes := by rw [hst.scopes, hw, Scopes.rename_id]
    rw [examine_of_done h1, examine_of_done h2, journals hst, hscopes]
  · rw [examine_of_rejected h1, examine_of_rejected h2, journals hst, hs u v hu, hw,
      Cause.rename_id]

end OnePass
