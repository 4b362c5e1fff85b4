-- The analysis sees the tokens of a text and nothing else of it. With its
-- looking ahead and coming back, it says what it says of the finished list
-- of tokens; and where the tokens stand in the text only decides where a
-- rejection points.
import OnePass.Proofs.Lockstep.Verdict
import OnePass.Proofs.Reels

namespace OnePass

/-! ## A text and its tokens -/

namespace Cursor

/-- A cursor and the list of its tokens give the same tokens. -/
theorem next_of_tokens_eq {c : Cursor} {r : Reel} (h : r.tokens = c.tokens) :
    r.next.1 = c.next.1 ∧ r.next.2.tokens = c.next.2.tokens := by
  have hc := c.tokens_eq
  rw [← h, r.tokens_eq] at hc
  obtain ⟨ht, hrest⟩ := List.cons.inj hc
  refine ⟨ht, ?_⟩
  rw [ht] at hrest
  by_cases hk : c.next.1.kind = .finish
  · have hr : r.next.1.kind = .finish := by rw [ht, hk]
    have hagain : c.next.2.tokens = c.tokens := by
      rw [c.next.2.tokens_eq, next_next_of_finish hk, c.tokens_eq]
    rw [Reel.next_next_of_finish hr, hagain, h]
  · rw [if_neg hk, if_neg hk] at hrest
    exact hrest

/-- A cursor in step with the list of its tokens. -/
def tie (begun : List Event) : Tie Cursor Reel :=
  .plain (fun c r => r.tokens = c.tokens) 0
    (fun h => Or.inr ⟨(next_of_tokens_eq h).1.symm, (next_of_tokens_eq h).2⟩) (begun, begun)

end Cursor

/-- The analysis of a text is the analysis of the list of its tokens. -/
theorem examine_reel (source : String) :
    examine (reel source) #[.started (Text.bytes source.toList)] = analyze source := by
  have hf : (Cursor.tie [.started (Text.bytes source.toList)]).feed
      (Cursor.start source.toList) (reel source) := tokens_reel source
  exact (Lockstep.examine_eq hf rfl (fun _ _ h => h) rfl rfl rfl).symm

/-! ## Two texts with the same tokens -/

/-- Two tokens of one kind and one spelling, wherever they stand. -/
def Token.Alike (t u : Token) : Prop := u.kind = t.kind ∧ u.text = t.text

namespace Reel

/-- The tokens with one index in two lists. -/
def SameIndex (r s : Reel) (t u : Token) : Prop :=
  ∃ i : Nat, r.tokens[i]? = some t ∧ s.tokens[i]? = some u

variable {r s : Reel}

theorem alike_of_sameIndex (h : List.Forall₂ Token.Alike r.tokens s.tokens) {t u : Token}
    (htu : SameIndex r s t u) : t.Alike u := by
  obtain ⟨i, ht, hu⟩ := htu
  obtain ⟨hi, rfl⟩ := List.getElem?_eq_some_iff.1 ht
  obtain ⟨hj, rfl⟩ := List.getElem?_eq_some_iff.1 hu
  exact h.get hi hj

theorem getD_tokens (r : Reel) (i : Nat) :
    r.tokens[min i r.ahead.length]? = some (r.tokens.getD i r.last) := by
  unfold tokens
  rcases Nat.lt_or_ge i r.ahead.length with hi | hi
  · rw [Nat.min_eq_left (Nat.le_of_lt hi), List.getD_append _ _ _ _ hi,
      List.getElem?_append_left hi, List.getD_eq_getElem _ _ hi, List.getElem?_eq_getElem hi]
  · rw [Nat.min_eq_right hi, List.getD_append_right _ _ _ _ hi,
      List.getElem?_append_right (Nat.le_refl _), Nat.sub_self]
    cases i - r.ahead.length with
    | zero => rfl
    | succ n => rfl

theorem sameIndex_next (h : r.ahead.length = s.ahead.length) (i : Nat) :
    SameIndex r s (r.drop i).next.1 (s.drop i).next.1 := by
  rw [next_drop, next_drop]
  refine ⟨min i r.ahead.length, r.getD_tokens i, ?_⟩
  rw [h]
  exact s.getD_tokens i

/-- Two lists with the same tokens, read side by side. -/
def tie (h : List.Forall₂ Token.Alike r.tokens s.tokens) (begun : List Event × List Event) :
    Tie Reel Reel where
  word := id
  word_injective := Function.injective_id
  same := SameIndex r s
  kind_eq htu := (alike_of_sameIndex h htu).1
  name_eq htu _ := (alike_of_sameIndex h htu).2
  text_eq htu _ := (alike_of_sameIndex h htu).2
  reserve := 0
  feed f g := ∃ i, f = r.drop i ∧ g = s.drop i
  next := by
    rintro _ _ ⟨i, rfl, rfl⟩
    have hl : r.ahead.length = s.ahead.length := by
      have := h.length_eq
      simpa [tokens] using this
    refine Or.inr ⟨sameIndex_next hl i, i + 1, ?_, ?_⟩
    · exact congrArg Prod.snd (r.next_drop i)
    · exact congrArg Prod.snd (s.next_drop i)
  begun := begun

/-- Lists with the same tokens are judged alike. -/
theorem verdicts_of_alike (h : List.Forall₂ Token.Alike r.tokens s.tokens)
    (j k : Array Event) :
    (∃ scopes, (examine r j).verdict = .ok scopes ∧ (examine s k).verdict = .ok scopes) ∨
      ∃ c t u, (examine r j).verdict = .error ⟨c, t⟩ ∧ (examine s k).verdict = .error ⟨c, u⟩ ∧
        SameIndex r s t u := by
  have hf : (tie h (j.toList, k.toList)).feed r s := ⟨0, rfl, rfl⟩
  rcases Lockstep.verdicts hf rfl rfl rfl with ⟨scopes, h1, h2⟩ | ⟨c, t, u, h1, h2, htu⟩
  · refine Or.inl ⟨scopes, h1, ?_⟩
    rw [h2]
    exact congrArg Except.ok scopes.rename_id
  · refine Or.inr ⟨c, t, u, h1, ?_, htu⟩
    rw [h2]
    exact congrArg (fun c => Except.error (Rejection.mk c u)) c.rename_id

end Reel

/-! ## The laws -/

/-- Looking ahead in a text and coming back is reading its list of tokens by
index: token `i` is taken, the kind of token `i + 1` is looked at, and the
last token stays. So two texts with the same tokens are accepted with the
same scopes, or turned down for the same cause at tokens of one index. -/
theorem the_analysis_sees_only_the_tokens (source : String) :
    (reel source).tokens = tokenize source ∧
    (∀ i, Feed.next ((reel source).drop i) =
        ((tokenize source).getD i (reel source).last, (reel source).drop (i + 1)) ∧
      Feed.peek ((reel source).drop i) =
        ((tokenize source).getD i (reel source).last, (reel source).drop i)) ∧
    examine (reel source) #[.started (Text.bytes source.toList)] = analyze source ∧
    ∀ other, List.Forall₂ Token.Alike (tokenize source) (tokenize other) →
      (∃ scopes, (analyze source).verdict = .ok scopes ∧ (analyze other).verdict = .ok scopes) ∨
      ∃ (cause : Cause) (t u : Token) (i : Nat), (analyze source).verdict = .error ⟨cause, t⟩ ∧
        (analyze other).verdict = .error ⟨cause, u⟩ ∧
        (tokenize source)[i]? = some t ∧ (tokenize other)[i]? = some u := by
  refine ⟨tokens_reel source, ?_, examine_reel source, ?_⟩
  · intro i
    have hn : ((reel source).drop i).next =
        ((tokenize source).getD i (reel source).last, (reel source).drop (i + 1)) := by
      rw [Reel.next_drop, tokens_reel]
    refine ⟨hn, ?_⟩
    rw [Feed.peek_eq]
    exact congrArg (fun n => (n.1, (reel source).drop i)) hn
  · intro other halike
    rw [← tokens_reel source, ← tokens_reel other] at halike ⊢
    rcases Reel.verdicts_of_alike halike #[.started (Text.bytes source.toList)]
      #[.started (Text.bytes other.toList)] with ⟨scopes, h1, h2⟩ | ⟨c, t, u, h1, h2, i, ht, hu⟩
    · rw [examine_reel] at h1 h2
      exact Or.inl ⟨scopes, h1, h2⟩
    · rw [examine_reel] at h1 h2
      exact Or.inr ⟨c, t, u, i, h1, h2, ht, hu⟩

end OnePass
