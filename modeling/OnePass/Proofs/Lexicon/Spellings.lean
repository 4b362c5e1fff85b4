-- Every token of a text is a lexeme, so what the rules say of lexemes can be
-- said of the tokens: an operator has the one spelling that it has, and the
-- name `main` is told apart by its spelling.
import OnePass.Proofs.Lexicon.Tokens
import OnePass.Proofs.Reels

namespace OnePass

/-! ## Lexemes -/

namespace Lexicon

variable {cs text : List Char} {k : Kind}

/-- An operator is spelled as operators are. -/
theorem Lexes.operator_spelling {o : Operator} (h : Lexes cs (.operator o) text) :
    text = o.spelling.toList := by
  have hfixed : ∀ o ∈ Operator.all, ∀ x ∈ fixed, x.2 = .operator o → x.1 = o.spelling := by
    decide
  cases h with
  | rule _ hr hv =>
    cases hv with
    | fixed =>
      obtain ⟨hmem, rfl⟩ := follows_fixed_iff.1 hr.follows
      exact congrArg String.toList (hfixed o o.mem_all _ hmem rfl)
    | number hw => cases hw

/-- A lexeme that is a name is `main` or another one. -/
theorem Lexes.main_iff (h : Lexes cs k text) (hk : k.isName = true) :
    k = .mainWord ↔ text = "main".toList := by
  have hfixed : ∀ x ∈ fixed, x.2.isName = true → x = ("main", .mainWord) := by decide
  cases h with
  | stray => cases hk
  | rule _ hr hv =>
    cases hv with
    | fixed =>
      obtain ⟨hmem, rfl⟩ := follows_fixed_iff.1 hr.follows
      cases hfixed _ hmem hk
      exact ⟨fun _ => rfl, fun _ => rfl⟩
    | name =>
      refine ⟨nofun, fun hw => ?_⟩
      have hmain : ("main", Kind.mainWord) ∈ fixed := by decide
      exact absurd (follows_fixed_iff.2 ⟨hmain, hw⟩) (hr.no_name rfl "main" .mainWord)
    | number hw => cases hw <;> cases hk
    | _ => cases hk

end Lexicon

/-! ## Tokens -/

namespace Cursor

/-- Every token of a cursor is the next one of some cursor. -/
theorem exists_next_of_mem {t : Token} (c : Cursor) (h : t ∈ c.tokens) :
    ∃ d : Cursor, t = d.next.1 := by
  rw [tokens_eq] at h
  rcases List.mem_cons.1 h with rfl | h
  · exact ⟨c, rfl⟩
  · by_cases hk : c.next.1.kind = .finish
    · rw [if_pos hk] at h
      cases h
    · have := length_next_lt hk
      rw [if_neg hk] at h
      exact c.next.2.exists_next_of_mem h
termination_by c.rest.length

end Cursor

open Lexicon

variable {source : String} {t : Token}

/-- Every token of a text but the finish is a lexeme. -/
theorem exists_lexes_of_mem (h : t ∈ tokenize source) (hk : t.kind ≠ .finish) :
    ∃ cs, Lexes cs t.kind t.text.toList := by
  obtain ⟨c, rfl⟩ := Cursor.exists_next_of_mem _ h
  unfold Cursor.next at hk ⊢
  cases hr : c.skipGap.rest with
  | nil =>
    rw [Cursor.read_of_rest_nil hr] at hk
    exact absurd rfl hk
  | cons x xs =>
    rw [Cursor.read_of_rest_cons hr]
    exact ⟨x :: xs, lexes_iff.2 ⟨rfl, String.toList_ofList⟩⟩

theorem text_of_operator {o : Operator} (h : t ∈ tokenize source) (hk : t.kind = .operator o) :
    t.text = o.spelling := by
  obtain ⟨cs, hl⟩ := exists_lexes_of_mem h (by rw [hk]; nofun)
  rw [hk] at hl
  exact String.toList_injective hl.operator_spelling

/-- The word `main` is not among the other names. -/
theorem kind_mainWord_iff (h : t ∈ tokenize source) (hk : t.kind.isName = true) :
    t.kind = .mainWord ↔ t.text = "main" := by
  obtain ⟨cs, hl⟩ := exists_lexes_of_mem h (Kind.ne_finish_of_isName hk)
  exact (hl.main_iff hk).trans String.toList_inj

end OnePass
