-- The analysis of a program: one pass over its tokens, after which either
-- all scopes are known, or the first thing that is wrong.
import OnePass.Pass.Budget

namespace OnePass

/-- What an analysis leaves: its journal, and the scopes or the reason why
the program was turned down. -/
structure Analysis where
  journal : Array Event
  verdict : Except Rejection Scopes

namespace Pass

variable {φ : Type} [Feed φ]

/-- Where a pass stands before its first token. Until that one comes, a
finish is in hand. -/
def ready (feed : φ) (journal : Array Event) : Stand φ :=
  ⟨feed, .finish 1 0, .empty, journal⟩

/-- The pass over all tokens of a feed. -/
def whole (feed : φ) (journal : Array Event) : Outcome φ Unit :=
  (ready feed journal).advance.andThen fun _ s => (program (s.left + 1)).run s

/-- The pass always comes to an end of its own. -/
theorem whole_ne_exhausted (feed : φ) (journal : Array Event) (s : Stand φ) :
    whole feed journal ≠ .exhausted s := by
  unfold whole Stand.advance Stand.settle
  split
  · nofun
  · exact suffices_program _ φ _ (Nat.lt_succ_self _) s

end Pass

/-- The analysis of the tokens of a feed, with a journal that was begun. -/
def examine {φ : Type} [Feed φ] (feed : φ) (journal : Array Event) : Analysis :=
  match h : Pass.whole feed journal with
  | .done _ s =>
    ⟨s.journal.push (.finished s.scopes.scopeCount s.scopes.symbolCount), .ok s.scopes⟩
  | .rejected r s => ⟨s.journal, .error r⟩
  | .exhausted s => absurd h (Pass.whole_ne_exhausted feed journal s)

/-! ## Verdicts -/

section
variable {φ : Type} [Feed φ] {feed : φ} {journal : Array Event}

theorem examine_of_done {s : Stand φ} (h : Pass.whole feed journal = .done () s) :
    examine feed journal =
      ⟨s.journal.push (.finished s.scopes.scopeCount s.scopes.symbolCount), .ok s.scopes⟩ := by
  unfold examine
  split
  · rename_i heq
    cases h.symm.trans heq
    rfl
  · rename_i heq
    cases h.symm.trans heq
  · rename_i heq
    exact absurd heq (Pass.whole_ne_exhausted feed journal _)

theorem examine_of_rejected {r : Rejection} {s : Stand φ}
    (h : Pass.whole feed journal = .rejected r s) :
    examine feed journal = ⟨s.journal, .error r⟩ := by
  unfold examine
  split
  · rename_i heq
    cases h.symm.trans heq
  · rename_i heq
    cases h.symm.trans heq
    rfl
  · rename_i heq
    exact absurd heq (Pass.whole_ne_exhausted feed journal _)

/-- A program is accepted with the scopes in which the pass over it ends. -/
theorem verdict_eq_ok_iff {scopes : Scopes} :
    (examine feed journal).verdict = .ok scopes ↔
      ∃ s, Pass.whole feed journal = .done () s ∧ s.scopes = scopes := by
  match h : Pass.whole feed journal with
  | .done () s => simp [examine_of_done h]
  | .rejected r s => simp [examine_of_rejected h]
  | .exhausted s => exact absurd h (Pass.whole_ne_exhausted feed journal s)

/-- A program is turned down for the reason for which the pass over it is. -/
theorem verdict_eq_error_iff {r : Rejection} :
    (examine feed journal).verdict = .error r ↔
      ∃ s, Pass.whole feed journal = .rejected r s := by
  match h : Pass.whole feed journal with
  | .done () s => simp [examine_of_done h]
  | .rejected r' s => simp [examine_of_rejected h]
  | .exhausted s => exact absurd h (Pass.whole_ne_exhausted feed journal s)

end

/-- The analysis of a text. -/
def analyze (source : String) : Analysis :=
  examine (Cursor.start source.toList) #[.started (Text.bytes source.toList)]

end OnePass
