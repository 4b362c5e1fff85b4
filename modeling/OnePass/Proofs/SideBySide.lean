-- Two lists of tokens read side by side, up to an index at which both still
-- have a token. Names may be changed from the one to the other. A pass that
-- stops before it has gone beyond the index does the same on both lists,
-- whatever they hold behind it, and it can only blame a token that it has
-- come to.
import OnePass.Proofs.Layout

namespace OnePass

/-- Two tokens of one kind. If they are names, the one is renamed to the
other, and else they are spelled alike. -/
structure Token.Renamed (word : String → String) (t u : Token) : Prop where
  kind : u.kind = t.kind
  name : t.kind.isName = true → u.text = word t.text
  text : t.kind.isName = false → u.text = t.text

theorem Token.Alike.renamed {t u : Token} (h : t.Alike u) : t.Renamed id u :=
  ⟨h.1, fun _ => h.2, fun _ => h.2⟩

/-! ## Lists and their lengths -/

namespace Reel

theorem length_tokens (r : Reel) : r.tokens.length = r.ahead.length + 1 := List.length_append

theorem leftAfter_eq (r : Reel) : Feed.leftAfter r = r.ahead.length := by
  show r.next.2.ahead.length + (if r.next.1.kind = .finish then 0 else 1) = _
  cases h : r.ahead with
  | nil =>
    rw [next_nil h, if_pos r.last_eq, h]
    rfl
  | cons t ts =>
    have ht : t.kind ≠ .finish := r.ahead_ne t (by rw [h]; exact List.mem_cons_self)
    rw [next_cons h, if_neg ht]
    rfl

/-- The finish is the last token of a list, and no other. -/
theorem kind_getElem?_iff {r : Reel} {i : Nat} {t : Token} (h : r.tokens[i]? = some t) :
    t.kind = .finish ↔ i = r.ahead.length := by
  unfold tokens at h
  constructor
  · intro ht
    rcases Nat.lt_or_ge i r.ahead.length with hi | hi
    · rw [List.getElem?_append_left hi] at h
      exact absurd ht (r.ahead_ne t (List.mem_of_getElem? h))
    · obtain ⟨hlt, -⟩ := List.getElem?_eq_some_iff.1 h
      rw [List.length_append, List.length_singleton] at hlt
      omega
  · rintro rfl
    rw [List.getElem?_append_right (Nat.le_refl _), Nat.sub_self] at h
    cases h
    exact r.last_eq

end Reel

/-! ## Lists side by side -/

/-- Both lists have a token at the index `j`, and up to there the tokens of
the second are those of the first, with names changed by `word`. -/
structure SideBySide (word : String → String) (r s : Reel) (j : Nat) : Prop where
  left : j ≤ r.ahead.length
  right : j ≤ s.ahead.length
  renamed : ∀ i ≤ j, ∀ t u, r.tokens[i]? = some t → s.tokens[i]? = some u → t.Renamed word u

namespace SideBySide

variable {word : String → String} {r s : Reel} {j : Nat}

/-- Lists with the same beginnings are side by side so far. -/
theorem of_take (hj : j ≤ r.ahead.length)
    (h : List.Forall₂ (Token.Renamed word) (r.tokens.take (j + 1)) (s.tokens.take (j + 1))) :
    SideBySide word r s j := by
  have hl := h.length_eq
  rw [List.length_take, List.length_take, r.length_tokens, s.length_tokens] at hl
  refine ⟨hj, by omega, ?_⟩
  intro i hi t u ht hu
  rw [← List.getElem?_take_of_lt (Nat.lt_succ_of_le hi)] at ht hu
  obtain ⟨hit, rfl⟩ := List.getElem?_eq_some_iff.1 ht
  obtain ⟨hiu, rfl⟩ := List.getElem?_eq_some_iff.1 hu
  exact h.get hit hiu

/-- The tokens with one index, not behind `j`, in two lists. -/
def SameWithin (r s : Reel) (j : Nat) (t u : Token) : Prop :=
  ∃ i ≤ j, r.tokens[i]? = some t ∧ s.tokens[i]? = some u

theorem renamed_of_sameWithin (h : SideBySide word r s j) {t u : Token}
    (htu : SameWithin r s j t u) : t.Renamed word u := by
  obtain ⟨i, hi, ht, hu⟩ := htu
  exact h.renamed i hi t u ht hu

/-- If the one list ends at the index, then so does the other. -/
theorem length_eq (h : SideBySide word r s j) (hj : j = r.ahead.length) :
    j = s.ahead.length := by
  obtain ⟨t, ht⟩ : ∃ t, r.tokens[j]? = some t :=
    ⟨_, List.getElem?_eq_getElem (by rw [r.length_tokens, hj]; exact Nat.lt_succ_self _)⟩
  obtain ⟨u, hu⟩ : ∃ u, s.tokens[j]? = some u :=
    ⟨_, List.getElem?_eq_getElem (by rw [s.length_tokens]; exact Nat.lt_succ_of_le h.right)⟩
  have hk := (h.renamed j (Nat.le_refl j) t u ht hu).kind
  rw [(Reel.kind_getElem?_iff ht).2 hj] at hk
  exact (Reel.kind_getElem?_iff hu).1 hk

/-- Reading on from the index `i` gives tokens of one index, or else the
first list is left behind `j`. -/
theorem next (h : SideBySide word r s j) (i : Nat) :
    Feed.leftAfter (r.drop i) < r.ahead.length - j ∨
      SameWithin r s j (r.drop i).next.1 (s.drop i).next.1 := by
  have hl := h.left
  have hr := h.right
  rw [Reel.next_drop, Reel.next_drop]
  rcases Nat.lt_or_ge j i with hi | hi
  · by_cases hj : j = r.ahead.length
    · -- The finish is given again.
      refine Or.inr ⟨j, Nat.le_refl j, ?_, ?_⟩
      · rw [← r.getD_tokens i, Nat.min_eq_right (by omega), hj]
      · rw [← s.getD_tokens i, ← h.length_eq hj, Nat.min_eq_right (Nat.le_of_lt hi)]
    · refine Or.inl ?_
      rw [Reel.leftAfter_eq]
      show (r.ahead.drop i).length < _
      rw [List.length_drop]
      omega
  · refine Or.inr ⟨i, hi, ?_, ?_⟩
    · rw [← r.getD_tokens i, Nat.min_eq_left (by omega)]
    · rw [← s.getD_tokens i, Nat.min_eq_left (by omega)]

/-- The lists as feeds that are tied together up to the index. -/
def tie (h : SideBySide word r s j) (hw : Function.Injective word)
    (begun : List Event × List Event) : Tie Reel Reel where
  word := word
  word_injective := hw
  same := SameWithin r s j
  kind_eq htu := (h.renamed_of_sameWithin htu).kind
  name_eq htu := (h.renamed_of_sameWithin htu).name
  text_eq htu := (h.renamed_of_sameWithin htu).text
  reserve := r.ahead.length - j
  feed f g := ∃ i, f = r.drop i ∧ g = s.drop i
  next := by
    rintro _ _ ⟨i, rfl, rfl⟩
    refine (h.next i).imp id fun hsame => ⟨hsame, i + 1, ?_, ?_⟩
    · exact congrArg Prod.snd (r.next_drop i)
    · exact congrArg Prod.snd (s.next_drop i)
  begun := begun

/-- A pass that stops at the index, or before it, has seen nothing that is
behind it, so the same goes wrong on both lists. The tokens that are blamed
have one index, which the pass had come to. -/
theorem rejected (h : SideBySide word r s j) (hw : Function.Injective word) {a b : Array Event}
    {c : Rejection} {t : Stand Reel} (hc : Pass.whole r a = .rejected c t)
    (ht : r.ahead.length - j ≤ t.left) :
    ∃ u, (examine s b).verdict = .error ⟨c.cause.rename word, u⟩ ∧
      SameWithin r s j c.token u := by
  have ho : (h.tie hw (a.toList, b.toList)).Agree Eq (Pass.whole r a) (Pass.whole s b) :=
    Lockstep.whole ⟨0, rfl, rfl⟩ rfl rfl
  have hne := Pass.whole_ne_exhausted s b
  rw [hc] at ho
  generalize hs : Pass.whole s b = o at ho hne
  cases ho with
  | @rejected _ _ u _ _ hu _ =>
    rw [examine_of_rejected hs]
    exact ⟨u, rfl, hu⟩
  | beyond hb =>
    have hb : t.left < r.ahead.length - j := hb
    omega
  | secondShort _ t => exact absurd rfl (hne t)

/-- Lists that are side by side to their ends are judged alike. -/
theorem verdicts (h : SideBySide word r s r.ahead.length) (hw : Function.Injective word)
    (a b : Array Event) :
    (∃ scopes, (examine r a).verdict = .ok scopes ∧
      (examine s b).verdict = .ok (scopes.rename word)) ∨
    ∃ (c : Cause) (t u : Token) (i : Nat), (examine r a).verdict = .error ⟨c, t⟩ ∧
      (examine s b).verdict = .error ⟨c.rename word, u⟩ ∧
      r.tokens[i]? = some t ∧ s.tokens[i]? = some u := by
  have hf : (h.tie hw (a.toList, b.toList)).feed r s := ⟨0, rfl, rfl⟩
  rcases Lockstep.verdicts hf rfl rfl (Nat.sub_self _) with hok | ⟨c, t, u, h1, h2, i, -, ht, hu⟩
  · exact Or.inl hok
  · exact Or.inr ⟨c, t, u, i, h1, h2, ht, hu⟩

end SideBySide

end OnePass
