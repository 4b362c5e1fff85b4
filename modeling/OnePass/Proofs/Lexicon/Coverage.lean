-- Gaps and tokens, in turn, are the text: nothing of it is lost, no token
-- reaches into another, and each one tells where it stands. A cursor keeps
-- its place and its line right from token to token, and so all the tokens
-- that it hands out are right.
import Mathlib.Logic.Function.Iterate
import OnePass.Proofs.Lexicon.Gaps
import OnePass.Proofs.Reels

namespace OnePass

open Text

/-! ## Tokens in their text -/

namespace Lexicon

/-- After the text `before` come the gap `g` and the token `t`, which tells
its place and its line. -/
structure Placed (before g : List Char) (t : Token) : Prop where
  gap : IsGap g
  inner : t.kind ≠ .finish
  nonempty : t.text.toList ≠ []
  span : t.span = ⟨bytes (before ++ g), bytes (before ++ g ++ t.text.toList)⟩
  line : t.line = 1 + newlines (before ++ g)

/-- The tokens cover the text that comes after the text `before`: gaps and
tokens take turns, and the finish comes last. -/
inductive Covers : (before : List Char) → List Char → List Token → Prop
  | finish {before g : List Char} (hg : IsGap g) :
    Covers before g [.finish (1 + newlines (before ++ g)) (bytes (before ++ g))]
  | token {before g rest : List Char} {t : Token} {ts : List Token} (ht : Placed before g t)
    (h : Covers (before ++ g ++ t.text.toList) rest ts) :
    Covers before (g ++ t.text.toList ++ rest) (t :: ts)

end Lexicon

/-! ## One token after another -/

namespace Cursor

open Lexicon

/-- The cursor stands after the text `before`, and has counted its bytes and
its newlines. -/
structure After (before : List Char) (c : Cursor) : Prop where
  position : c.position = bytes before
  line : c.line = 1 + newlines before

variable {before : List Char} {c : Cursor}

theorem after_start (source : List Char) : (start source).After [] := ⟨rfl, rfl⟩

theorem After.pass (h : c.After before) {passed rest : List Char} (hr : c.rest = passed ++ rest) :
    (c.pass passed rest hr).After (before ++ passed) := by
  refine ⟨?_, ?_⟩
  · rw [bytes_append, ← h.position]
    rfl
  · rw [newlines_append, ← Nat.add_assoc, ← h.line]
    rfl

/-- The next token is the finish behind a last gap, or else it is placed
behind a gap, and the cursor goes on behind it. -/
theorem After.next (h : c.After before) :
    (IsGap c.rest ∧ c.next.2.rest = [] ∧ c.next.2.After (before ++ c.rest) ∧
      c.next.1 = .finish (1 + newlines (before ++ c.rest)) (bytes (before ++ c.rest))) ∨
    ∃ g, Placed before g c.next.1 ∧ c.rest = g ++ c.next.1.text.toList ++ c.next.2.rest ∧
      c.next.2.After (before ++ g ++ c.next.1.text.toList) := by
  have hgap : IsGap (Gap.split c.rest).1 := (isGap_splitFrom c.rest).1
  have hsplit := Gap.split_append c.rest
  have hrest : c.skipGap.rest = (Gap.split c.rest).2 := c.rest_skipGap
  have hskip : c.skipGap.After (before ++ (Gap.split c.rest).1) := h.pass hsplit.symm
  unfold Cursor.next
  cases hb : (Gap.split c.rest).2 with
  | nil =>
    rw [hb] at hrest
    rw [hb, List.append_nil] at hsplit
    rw [hsplit] at hgap hskip
    rw [read_of_rest_nil hrest]
    refine Or.inl ⟨hgap, hrest, hskip, ?_⟩
    rw [← hskip.line, ← hskip.position]
  | cons x xs =>
    rw [hb] at hrest hsplit
    have hcut := Lexeme.first_append x xs
    have htext : (String.ofList (Lexeme.first x xs).text).toList = (Lexeme.first x xs).text :=
      String.toList_ofList
    have hbehind := hskip.pass (hrest.trans hcut.symm)
    rw [read_of_rest_cons hrest]
    refine Or.inr ⟨_, ⟨hgap, Lexeme.first_kind_ne_finish x xs, ?_, ?_, hskip.line⟩, ?_, ?_⟩
    · rw [htext]
      exact Lexeme.first_text_ne_nil x xs
    · rw [htext, ← hskip.position, ← hbehind.position]
    · rw [htext]
      show c.rest = _ ++ _ ++ (Lexeme.first x xs).rest
      rw [List.append_assoc, hcut, hsplit]
    · rw [htext]
      exact hbehind

/-- The tokens from a cursor on cover what is left of the text. -/
theorem After.covers {before : List Char} {c : Cursor} (h : c.After before) :
    Covers before c.rest c.tokens := by
  rw [tokens_eq]
  rcases h.next with ⟨hg, -, -, ht⟩ | ⟨g, ht, hr, hc⟩
  · rw [ht, if_pos (Token.kind_finish _ _)]
    exact .finish hg
  · have hlt : c.next.2.rest.length < c.rest.length := length_next_lt ht.inner
    rw [if_neg ht.inner, hr]
    exact .token ht hc.covers
termination_by c.rest.length

/-! ## Calls beyond the last token -/

/-- The cursor after so many calls of `next`. -/
def advance (c : Cursor) (n : Nat) : Cursor := (fun c => c.next.2)^[n] c

/-- A cursor at the end of its text stays there. -/
theorem advance_of_rest_nil {c : Cursor} (h : c.rest = []) (n : Nat) : c.advance n = c := by
  apply Function.iterate_fixed
  rw [next_of_rest_nil h]

/-- After all its tokens a cursor is at the end of the text. -/
theorem After.advance {before : List Char} {c : Cursor} (h : c.After before) {n : Nat}
    (hn : c.tokens.length ≤ n) :
    (c.advance n).rest = [] ∧ (c.advance n).After (before ++ c.rest) := by
  rw [tokens_eq, List.length_cons] at hn
  obtain ⟨m, rfl⟩ : ∃ m, n = m + 1 := ⟨n - 1, by omega⟩
  show (c.next.2.advance m).rest = [] ∧ (c.next.2.advance m).After _
  rcases h.next with ⟨-, hnil, hc, -⟩ | ⟨g, ht, hr, hc⟩
  · rw [advance_of_rest_nil hnil]
    exact ⟨hnil, hc⟩
  · have hlt : c.next.2.rest.length < c.rest.length := length_next_lt ht.inner
    rw [if_neg ht.inner] at hn
    obtain ⟨hnil, hend⟩ := hc.advance (Nat.le_of_succ_le_succ hn)
    refine ⟨hnil, ?_⟩
    rw [hr, List.append_assoc, ← List.append_assoc, ← List.append_assoc]
    exact hend
termination_by c.rest.length

end Cursor

/-! ## What coverage means -/

namespace Lexicon

variable {before cs : List Char} {ts : List Token}

/-- The text that gaps and tokens make up, a gap before each token. -/
def weave (pieces : List (List Char × Token)) : List Char :=
  pieces.flatMap fun x => x.1 ++ x.2.text.toList

@[simp] theorem weave_nil : weave [] = [] := rfl

@[simp] theorem weave_cons (g : List Char) (t : Token) (pieces : List (List Char × Token)) :
    weave ((g, t) :: pieces) = g ++ t.text.toList ++ weave pieces := rfl

/-- A text that is covered is woven from gaps and tokens, with a gap at its
end, and each token is placed behind what comes before it. -/
theorem Covers.woven (h : Covers before cs ts) :
    ∃ pieces ending, ts = pieces.map Prod.snd ++
        [.finish (1 + newlines (before ++ cs)) (bytes (before ++ cs))] ∧
      cs = weave pieces ++ ending ∧ IsGap ending ∧
      ∀ front g t back, pieces = front ++ (g, t) :: back → Placed (before ++ weave front) g t := by
  induction h with
  | @finish before g hg => exact ⟨[], g, rfl, rfl, hg, by simp⟩
  | @token before g rest t ts ht _ ih =>
    obtain ⟨pieces, ending, hts, hrest, hending, hplaced⟩ := ih
    refine ⟨(g, t) :: pieces, ending, ?_, ?_, hending, ?_⟩
    · rw [hts]
      simp only [List.map_cons, List.cons_append, List.append_assoc]
    · rw [hrest, weave_cons]
      simp only [List.append_assoc]
    · intro front g' t' back hp
      cases front with
      | nil =>
        obtain ⟨hx, -⟩ := List.cons.inj hp
        cases hx
        rw [weave_nil, List.append_nil]
        exact ht
      | cons x front =>
        obtain ⟨rfl, hpieces⟩ := List.cons.inj hp
        have hx := hplaced front g' t' back hpieces
        rw [weave_cons]
        simp only [List.append_assoc] at hx ⊢
        exact hx

/-- What comes after a text starts where the text ends, or behind it. -/
theorem Covers.le_start (h : Covers before cs ts) : ∀ t ∈ ts, bytes before ≤ t.span.start := by
  induction h with
  | finish => simp [Token.finish]
  | @token before g rest t ts ht _ ih =>
    intro u hu
    rcases List.mem_cons.1 hu with rfl | hu
    · rw [ht.span, bytes_append]
      exact Nat.le_add_right _ _
    · have hle := ih u hu
      simp only [bytes_append] at hle
      omega

/-- No token starts before those before it have ended. -/
theorem Covers.pairwise (h : Covers before cs ts) :
    ts.Pairwise fun t u => t.span.stop ≤ u.span.start := by
  induction h with
  | finish => exact List.pairwise_singleton _ _
  | @token before g rest t ts ht h ih =>
    refine List.pairwise_cons.2 ⟨?_, ih⟩
    intro u hu
    rw [ht.span]
    exact h.le_start u hu

theorem Placed.start_lt {g : List Char} {t : Token} (h : Placed before g t) :
    t.span.start < t.span.stop := by
  rw [h.span, bytes_append (before ++ g)]
  exact Nat.lt_add_of_pos_right (Nat.pos_of_ne_zero (mt bytes_eq_zero.1 h.nonempty))

/-- Every token starts behind the start of those before it, so no token is
there twice. -/
theorem Covers.pairwise_start (h : Covers before cs ts) :
    ts.Pairwise fun t u => t.span.start < u.span.start := by
  induction h with
  | finish => exact List.pairwise_singleton _ _
  | @token before g rest t ts ht h ih =>
    refine List.pairwise_cons.2 ⟨?_, ih⟩
    intro u hu
    have hstop := (Covers.token ht h).pairwise
    exact Nat.lt_of_lt_of_le ht.start_lt ((List.pairwise_cons.1 hstop).1 u hu)

/-- The tokens of a text cover it. -/
theorem covers_tokenize (source : String) : Covers [] source.toList (tokenize source) :=
  (Cursor.after_start source.toList).covers

/-- No token of a text is there twice. -/
theorem nodup_tokenize (source : String) : (tokenize source).Nodup := by
  refine (covers_tokenize source).pairwise_start.imp ?_
  rintro t u htu rfl
  exact Nat.lt_irrefl _ htu

/-- Two tokens of a text are the same only at one index. -/
theorem index_unique {source : String} {i j : Nat} {t : Token}
    (hi : (tokenize source)[i]? = some t) (hj : (tokenize source)[j]? = some t) : i = j := by
  obtain ⟨hlt, -⟩ := List.getElem?_eq_some_iff.1 hi
  exact (List.getElem?_inj hlt (nodup_tokenize source)).1 (hi.trans hj.symm)

/-! ## The law -/

/-- The tokens of a text, with the gaps between them, are the text. -/
structure Lossless (source : String) : Prop where
  /-- The text is woven from gaps and tokens, with a gap at its end. The list
  of tokens goes on with one finish, which stands at the end of the text. -/
  woven : ∃ pieces ending, source.toList = weave pieces ++ ending ∧ IsGap ending ∧
    tokenize source = pieces.map Prod.snd ++
      [.finish (1 + newlines source.toList) (bytes source.toList)] ∧
    ∀ front g t back, pieces = front ++ (g, t) :: back → Placed (weave front) g t
  /-- A token that is not the finish is the piece of the text between its two
  places, and it is not empty. -/
  slice : ∀ t ∈ tokenize source, t.kind ≠ .finish → t.span.start < t.span.stop ∧
    ∃ front back, source.toList = front ++ t.text.toList ++ back ∧
      bytes front = t.span.start ∧ bytes (front ++ t.text.toList) = t.span.stop ∧
      t.line = 1 + newlines front
  order : (tokenize source).Pairwise fun t u => t.span.stop ≤ u.span.start
  fault : ∀ t ∈ tokenize source, (∃ f, t.kind.fault? = some f) ↔ t.kind.isInvalid = true
  /-- Behind its last token, a cursor gives the finish and does not move. -/
  endless : ∀ n, (tokenize source).length ≤ n →
    ((Cursor.start source.toList).advance n).After source.toList ∧
      ((Cursor.start source.toList).advance n).next =
        (.finish (1 + newlines source.toList) (bytes source.toList),
          (Cursor.start source.toList).advance n)

/-- Nothing of a text is lost when it is cut into tokens, and every token
tells its place and its line. -/
theorem nothing_of_a_text_is_lost (source : String) : Lossless source := by
  have hcovers := covers_tokenize source
  obtain ⟨pieces, ending, htokens, hwoven, hending, hplaced⟩ := hcovers.woven
  simp only [List.nil_append] at htokens hplaced
  refine ⟨⟨pieces, ending, hwoven, hending, htokens, hplaced⟩, ?_, hcovers.pairwise, ?_, ?_⟩
  · intro t ht hne
    rw [htokens, List.mem_append, List.mem_singleton] at ht
    rcases ht with ht | rfl
    · obtain ⟨⟨g, u⟩, hu, rfl⟩ := List.mem_map.1 ht
      obtain ⟨front, back, hsplit⟩ := List.append_of_mem hu
      have hu := hplaced front g u back hsplit
      refine ⟨hu.start_lt, weave front ++ g, weave back ++ ending, ?_, ?_, ?_, hu.line⟩
      · rw [hwoven, hsplit, weave, List.flatMap_append, List.flatMap_cons]
        simp only [weave, List.append_assoc]
      · rw [hu.span]
      · rw [hu.span]
    · exact absurd (Token.kind_finish _ _) hne
  · intro t _
    exact (Kind.isInvalid_iff t.kind).symm
  · intro n hn
    obtain ⟨hnil, hend⟩ := (Cursor.after_start source.toList).advance hn
    refine ⟨hend, ?_⟩
    rw [Cursor.next_of_rest_nil hnil, hend.line, hend.position]
    rfl

end Lexicon

end OnePass
