-- Two texts in a row, with a newline between them. The newline ends what the
-- first text ends with, even a comment, and belongs to no token. So the
-- tokens are those of the first text, and then those of the second one, which
-- tell places and lines further on.
import OnePass.Proofs.Lexicon.Coverage
import OnePass.Proofs.Lexicon.Longest

namespace OnePass

open Text

/-! ## Gaps -/

namespace Gap

/-- If something stands behind the gap, the gap ends there as before. If not,
the newline and what is blank behind it belong to the gap. -/
theorem splitFrom_seam (b : Bool) (cs q : List Char) :
    splitFrom b (cs ++ '\n' :: q) =
      if (splitFrom b cs).2 = [] then (cs ++ '\n' :: (split q).1, (split q).2)
      else ((splitFrom b cs).1, (splitFrom b cs).2 ++ '\n' :: q) := by
  induction cs generalizing b with
  | nil => cases b <;> rfl
  | cons c cs ih =>
    rw [List.cons_append, splitFrom, splitFrom]
    have hhead : (cs ++ '\n' :: q).head? = some '/' ↔ cs.head? = some '/' := by
      cases cs with
      | nil => simp
      | cons d cs => rfl
    have hstep : ∀ b', Prod.map (c :: ·) id (splitFrom b' (cs ++ '\n' :: q)) =
        if (splitFrom b' cs).2 = [] then (c :: (cs ++ '\n' :: (split q).1), (split q).2)
        else (c :: (splitFrom b' cs).1, (splitFrom b' cs).2 ++ '\n' :: q) := by
      intro b'
      rw [ih b']
      split <;> rfl
    by_cases hb : b = true
    · rw [if_pos hb, if_pos hb]
      exact hstep _
    · rw [if_neg hb, if_neg hb]
      by_cases hblank : isBlank c = true
      · rw [if_pos hblank, if_pos hblank]
        exact hstep _
      · rw [if_neg hblank, if_neg hblank]
        by_cases hs : c = '/' ∧ cs.head? = some '/'
        · rw [if_pos hs, if_pos ⟨hs.1, hhead.2 hs.2⟩]
          exact hstep _
        · rw [if_neg hs, if_neg fun h => hs ⟨h.1, hhead.1 h.2⟩]
          rfl

end Gap

/-! ## Cuts -/

theorem takeWhile_seam {p : Char → Bool} (hp : p '\n' = false) (cs q : List Char) :
    (cs ++ '\n' :: q).takeWhile p = cs.takeWhile p := by
  induction cs with
  | nil => simp [hp]
  | cons c cs ih => simp [List.takeWhile_cons, ih]

theorem dropWhile_seam {p : Char → Bool} (hp : p '\n' = false) (cs q : List Char) :
    (cs ++ '\n' :: q).dropWhile p = cs.dropWhile p ++ '\n' :: q := by
  induction cs with
  | nil => simp [hp]
  | cons c cs ih =>
    by_cases hc : p c = true <;> simp [hc, ih]

namespace Cut

/-- The same cut, with another text on the next line. -/
def onward (cut : Cut) (q : List Char) : Cut := { cut with rest := cut.rest ++ '\n' :: q }

theorem opensHex_seam {cs : List Char} (h : opensNumber cs = true) (q : List Char) :
    Lexicon.OpensHex (cs ++ '\n' :: q) ↔ Lexicon.OpensHex cs := by
  match cs with
  | [] => cases h
  | [c] =>
    constructor
    · rintro ⟨x, w, heq, hx⟩
      simp only [List.cons_append, List.nil_append, List.cons.injEq] at heq
      obtain ⟨-, rfl, -⟩ := heq
      simp at hx
    · rintro ⟨x, w, heq, -⟩
      simp at heq
  | c :: d :: cs =>
    constructor
    · rintro ⟨x, w, heq, hx⟩
      simp only [List.cons_append, List.cons.injEq] at heq
      exact ⟨x, cs, by rw [heq.1, heq.2.1], hx⟩
    · rintro ⟨x, w, heq, hx⟩
      rw [heq]
      exact ⟨x, w ++ '\n' :: q, rfl, hx⟩

theorem number_seam {cs : List Char} (h : opensNumber cs = true) (q : List Char) :
    number (cs ++ '\n' :: q) = (number cs).onward q := by
  have hdigits : (cs ++ '\n' :: q).dropWhile Char.isDigit =
      cs.dropWhile Char.isDigit ++ '\n' :: q := dropWhile_seam (by decide) cs q
  by_cases hx : Lexicon.OpensHex cs
  · obtain ⟨x, w, rfl, hx⟩ := hx
    rw [List.cons_append, List.cons_append, Lexicon.number_hexadecimal hx,
      Lexicon.number_hexadecimal hx, takeWhile_seam (by decide), dropWhile_seam (by decide)]
    rfl
  · have hx' := mt (opensHex_seam h q).1 hx
    rcases Lexicon.number_of_not_opensHex hx with ⟨rest, hrest, hcut⟩ | ⟨hrest, hcut⟩
    · rcases Lexicon.number_of_not_opensHex hx' with ⟨rest', hrest', hcut'⟩ | ⟨hrest', -⟩
      · rw [hdigits, hrest, List.cons_append] at hrest'
        obtain ⟨-, rfl⟩ := List.cons.inj hrest'
        rw [hcut, hcut', takeWhile_seam (by decide), takeWhile_seam (by decide),
          dropWhile_seam (by decide)]
        rfl
      · rw [hdigits, hrest] at hrest'
        exact absurd rfl (hrest' _)
    · rcases Lexicon.number_of_not_opensHex hx' with ⟨rest', hrest', -⟩ | ⟨-, hcut'⟩
      · rw [hdigits] at hrest'
        cases hd : cs.dropWhile Char.isDigit with
        | nil =>
          rw [hd] at hrest'
          simp at hrest'
        | cons d ds =>
          rw [hd, List.cons_append] at hrest'
          obtain ⟨rfl, -⟩ := List.cons.inj hrest'
          exact absurd hd (hrest ds)
      · rw [hcut, hcut', takeWhile_seam (by decide), hdigits]
        rfl

/-- A quote that is closed does not reach further. -/
theorem quoteTail_seam {cs : List Char} (h : isClosedQuote ('\'' :: (quoteTail cs).1) = true)
    (q : List Char) :
    quoteTail (cs ++ '\n' :: q) = ((quoteTail cs).1, (quoteTail cs).2 ++ '\n' :: q) := by
  unfold quoteTail at h ⊢
  split at h <;> simp_all [isClosedQuote]

theorem head?_pair (c : Char) (cs q : List Char) :
    (cs ++ '\n' :: q).head?.bind (pair? c) = cs.head?.bind (pair? c) := by
  cases cs with
  | nil =>
    show pair? c '\n' = none
    unfold pair?
    split <;> simp_all
  | cons d cs => rfl

/-- Nothing is cut off that reaches over the newline, unless it is a quote that
is not closed. -/
theorem first_seam {c : Char} {cs : List Char}
    (h : (first c cs).shape = .quote → isClosedQuote (first c cs).text = true) (q : List Char) :
    first c (cs ++ '\n' :: q) = (first c cs).onward q := by
  have hopens : opensNumber (c :: (cs ++ '\n' :: q)) = opensNumber (c :: cs) := by
    by_cases hc : c = '.'
    · subst hc
      cases cs <;> rfl
    · simp [opensNumber, hc]
  unfold first at h ⊢
  rw [hopens, head?_pair]
  by_cases hname : startsName c = true
  · rw [if_pos hname, if_pos hname, takeWhile_seam (by decide), dropWhile_seam (by decide)]
    rfl
  rw [if_neg hname] at h
  rw [if_neg hname, if_neg hname]
  by_cases hnumber : opensNumber (c :: cs) = true
  · rw [if_pos hnumber, if_pos hnumber]
    exact number_seam hnumber q
  rw [if_neg hnumber] at h
  rw [if_neg hnumber, if_neg hnumber]
  by_cases hquote : c = '\''
  · subst hquote
    rw [if_pos rfl] at h
    rw [if_pos rfl, if_pos rfl, quoteTail_seam (h rfl)]
    rfl
  rw [if_neg hquote, if_neg hquote]
  cases hpair : cs.head?.bind (pair? c) with
  | some k =>
    cases cs with
    | nil => cases hpair
    | cons d cs => rfl
  | none => cases single? c <;> rfl

end Cut

namespace Lexeme

/-- The same lexeme, with another text on the next line. -/
def onward (x : Lexeme) (q : List Char) : Lexeme := { x with rest := x.rest ++ '\n' :: q }

theorem ofNumber_seam (k : Kind) (text rest q : List Char) :
    ofNumber k text (rest ++ '\n' :: q) = (ofNumber k text rest).onward q := by
  cases rest with
  | nil => rfl
  | cons c rest =>
    simp only [List.cons_append, ofNumber]
    split <;> rfl

theorem judgeNumber_seam (k : Kind) (cut : Cut) (q : List Char) :
    judgeNumber k (cut.onward q) = (judgeNumber k cut).onward q := by
  unfold judgeNumber
  dsimp only [Cut.onward]
  cases overLimit? cut.shape cut.text with
  | some f => rfl
  | none => exact ofNumber_seam k cut.text cut.rest q

theorem ofCut_seam (cut : Cut) (q : List Char) : ofCut (cut.onward q) = (ofCut cut).onward q := by
  obtain ⟨shape, text, rest⟩ := cut
  cases shape with
  | decimal => exact judgeNumber_seam _ _ q
  | hexadecimal => exact judgeNumber_seam _ _ q
  | floating => exact judgeNumber_seam _ _ q
  | _ => rfl

/-- A valid lexeme is the same with another text on the next line. -/
theorem first_seam {c : Char} {cs : List Char} (h : (first c cs).kind.fault? = none)
    (q : List Char) : first c (cs ++ '\n' :: q) = (first c cs).onward q := by
  unfold first at h ⊢
  rw [Cut.first_seam _ q, ofCut_seam]
  intro hshape
  unfold ofCut at h
  rw [hshape] at h
  by_contra hopen
  rw [if_neg hopen] at h
  cases h

end Lexeme

/-! ## The same tokens further on -/

/-- The token with its place that many lines and bytes further on. -/
def Token.moved (lines bytes : Nat) (t : Token) : Token :=
  { t with line := t.line + lines, span := ⟨t.span.start + bytes, t.span.stop + bytes⟩ }

namespace Cursor

variable {c d : Cursor} {l n : Nat} {q : List Char}

theorem skipGap_eq_pass {g r : List Char} (h : Gap.split c.rest = (g, r)) (hc : c.rest = g ++ r) :
    c.skipGap = c.pass g r hc := by
  obtain ⟨rfl, rfl⟩ := Prod.ext_iff.1 h
  rfl

theorem pass_pass {g g' r r' : List Char} (h : c.rest = g ++ r) (h' : r = g' ++ r')
    (hboth : c.rest = (g ++ g') ++ r') :
    (c.pass g r h).pass g' r' h' = c.pass (g ++ g') r' hboth := by
  apply Cursor.ext
  · rfl
  · rfl
  · show c.position + bytes g + bytes g' = c.position + bytes (g ++ g')
    rw [bytes_append, Nat.add_assoc]
  · show c.line + newlines g + newlines g' = c.line + newlines (g ++ g')
    rw [newlines_append, Nat.add_assoc]

/-- The cursor `d` stands that many lines and bytes further on than `c`, before
the same text. -/
structure Leads (c d : Cursor) (l n : Nat) : Prop where
  rest : d.rest = c.rest
  position : d.position = c.position + n
  line : d.line = c.line + l

theorem Leads.pass (h : c.Leads d l n) {g r : List Char} (hc : c.rest = g ++ r)
    (hd : d.rest = g ++ r) : (c.pass g r hc).Leads (d.pass g r hd) l n := by
  refine ⟨rfl, ?_, ?_⟩
  · show d.position + bytes g = c.position + bytes g + n
    rw [h.position]
    omega
  · show d.line + newlines g = c.line + newlines g + l
    rw [h.line]
    omega

theorem Leads.skipGap (h : c.Leads d l n) : c.skipGap.Leads d.skipGap l n := by
  have hd : d.rest = (Gap.split c.rest).1 ++ (Gap.split c.rest).2 :=
    h.rest.trans (Gap.split_append c.rest).symm
  rw [skipGap_eq_pass (congrArg Gap.split h.rest) hd]
  exact h.pass _ hd

theorem Leads.read (h : c.Leads d l n) :
    d.read.1 = c.read.1.moved l n ∧ c.read.2.Leads d.read.2 l n := by
  cases hr : c.rest with
  | nil =>
    rw [read_of_rest_nil hr, read_of_rest_nil (h.rest.trans hr), h.line, h.position]
    exact ⟨rfl, h⟩
  | cons x xs =>
    rw [read_of_rest_cons hr, read_of_rest_cons (h.rest.trans hr)]
    have hpass := h.pass (hr.trans (Lexeme.first_append x xs).symm)
      ((h.rest.trans hr).trans (Lexeme.first_append x xs).symm)
    refine ⟨?_, hpass⟩
    simp only [Token.moved, Token.mk.injEq, Span.mk.injEq, true_and]
    exact ⟨h.line, h.position, hpass.position⟩

/-- The same text has the same tokens, which tell other places. -/
theorem Leads.tokens {c d : Cursor} (h : c.Leads d l n) :
    d.tokens = c.tokens.map (Token.moved l n) := by
  obtain ⟨htoken, hnext⟩ := h.skipGap.read
  rw [tokens_eq c, tokens_eq d, List.map_cons]
  have hkind : d.next.1.kind = c.next.1.kind := by
    show d.skipGap.read.1.kind = _
    rw [htoken]
    rfl
  rw [hkind]
  by_cases hf : c.next.1.kind = .finish
  · rw [if_pos hf, if_pos hf]
    exact congrArg (· :: []) htoken
  · have hlt := length_next_lt hf
    rw [if_neg hf, if_neg hf]
    have hlead : c.next.2.Leads d.next.2 l n := hnext
    exact congrArg₂ List.cons htoken hlead.tokens
termination_by c.rest.length

/-! ## The seam -/

/-- The cursors stand at one place, and the text of `d` goes on with `q` on a
new line. -/
structure Joins (c d : Cursor) (q : List Char) : Prop where
  rest : d.rest = c.rest ++ '\n' :: q
  position : d.position = c.position
  line : d.line = c.line

theorem Joins.pass (h : c.Joins d q) {g r : List Char} (hc : c.rest = g ++ r)
    (hd : d.rest = g ++ (r ++ '\n' :: q)) : (c.pass g r hc).Joins (d.pass g _ hd) q := by
  refine ⟨rfl, ?_, ?_⟩
  · show d.position + bytes g = c.position + bytes g
    rw [h.position]
  · show d.line + newlines g = c.line + newlines g
    rw [h.line]

theorem Joins.split (h : c.Joins d q) :
    Gap.split d.rest =
      if (Gap.split c.rest).2 = [] then (c.rest ++ '\n' :: (Gap.split q).1, (Gap.split q).2)
      else ((Gap.split c.rest).1, (Gap.split c.rest).2 ++ '\n' :: q) := by
  rw [h.rest]
  exact Gap.splitFrom_seam false c.rest q

/-- Before a token the gap ends as it did. -/
theorem Joins.skipGap (h : c.Joins d q) (hr : c.skipGap.rest ≠ []) :
    c.skipGap.Joins d.skipGap q := by
  have hsplit := h.split
  rw [rest_skipGap] at hr
  rw [if_neg hr] at hsplit
  have hd : d.rest = (Gap.split c.rest).1 ++ ((Gap.split c.rest).2 ++ '\n' :: q) := by
    rw [h.rest, ← List.append_assoc, Gap.split_append]
  rw [skipGap_eq_pass hsplit hd]
  exact h.pass _ hd

/-- A valid token is the same token, and what follows it goes on alike. -/
theorem Joins.read (h : c.Joins d q) (hr : c.rest ≠ []) (hv : c.read.1.kind.fault? = none) :
    d.read.1 = c.read.1 ∧ c.read.2.Joins d.read.2 q := by
  obtain ⟨x, xs, hc⟩ := List.exists_cons_of_ne_nil hr
  have hd : d.rest = x :: (xs ++ '\n' :: q) := by
    rw [h.rest, hc]
    rfl
  rw [read_of_rest_cons hc] at hv
  have hfirst := Lexeme.first_seam hv q
  have hd' : d.rest = (Lexeme.first x xs).text ++ ((Lexeme.first x xs).rest ++ '\n' :: q) := by
    rw [h.rest, hc, ← List.append_assoc, Lexeme.first_append]
  have hpass := h.pass (hc.trans (Lexeme.first_append x xs).symm) hd'
  rw [read_of_rest_cons hc, read_of_rest_cons hd]
  simp only [hfirst]
  refine ⟨?_, hpass⟩
  simp only [Token.mk.injEq, Span.mk.injEq]
  exact ⟨rfl, rfl, h.line, h.position, hpass.position⟩

/-- Where the first text is at its end, the second one comes. -/
theorem Joins.tokens_of_end (h : c.Joins d q) (hr : c.skipGap.rest = []) :
    d.tokens = (d.pass (c.rest ++ ['\n']) q (by simp [h.rest])).tokens := by
  have hd : d.rest = c.rest ++ ['\n'] ++ q := by simp [h.rest]
  have hsplit := h.split
  rw [rest_skipGap] at hr
  rw [if_pos hr] at hsplit
  rw [List.append_cons] at hsplit
  have hboth : d.rest = c.rest ++ ['\n'] ++ (Gap.split q).1 ++ (Gap.split q).2 := by
    rw [hd, List.append_assoc _ _ (Gap.split q).2, Gap.split_append]
  have hskip : (d.pass (c.rest ++ ['\n']) q hd).skipGap = d.skipGap := by
    rw [skipGap_eq_pass hsplit hboth]
    exact pass_pass hd _ hboth
  have hnext : (d.pass (c.rest ++ ['\n']) q hd).next = d.next := congrArg Cursor.read hskip
  rw [tokens_eq d, tokens_eq (d.pass _ q hd), hnext]

/-- All valid tokens of the first text come before those of the second one. -/
theorem Joins.tokens {before : List Char} {c d : Cursor} (h : c.Joins d q) (hb : c.After before)
    (hv : ∀ t ∈ c.tokens, t.kind.fault? = none) :
    ∃ e : Cursor, e.rest = q ∧ e.After (before ++ c.rest ++ ['\n']) ∧
      d.tokens = c.tokens.dropLast ++ e.tokens := by
  by_cases hr : c.skipGap.rest = []
  · have hd : d.rest = c.rest ++ ['\n'] ++ q := by simp [h.rest]
    have hafter : d.After before := ⟨h.position.trans hb.position, h.line.trans hb.line⟩
    refine ⟨d.pass (c.rest ++ ['\n']) q hd, rfl, ?_, ?_⟩
    · rw [List.append_assoc]
      exact hafter.pass hd
    · have hfinish : c.next.1.kind = .finish := by
        rw [next, read_of_rest_nil hr]
        rfl
      rw [h.tokens_of_end hr, tokens_eq c, if_pos hfinish]
      rfl
  · have hinner : c.next.1.kind ≠ .finish := by
      obtain ⟨x, xs, hc⟩ := List.exists_cons_of_ne_nil hr
      rw [next, read_of_rest_cons hc]
      exact Lexeme.first_kind_ne_finish x xs
    have hlt := length_next_lt hinner
    have htokens := tokens_eq c
    rw [if_neg hinner] at htokens
    rw [htokens] at hv
    obtain ⟨hvalid, hv⟩ := List.forall_mem_cons.1 hv
    obtain ⟨htoken, hjoins⟩ := (h.skipGap hr).read hr hvalid
    rcases hb.next with ⟨-, -, -, hfinish⟩ | ⟨g, -, hsplit, hafter⟩
    · rw [hfinish] at hinner
      exact absurd rfl hinner
    · obtain ⟨e, he, heafter, hetokens⟩ := Joins.tokens (c := c.next.2) (d := d.next.2) hjoins hafter hv
      refine ⟨e, he, ?_, ?_⟩
      · rw [hsplit]
        simpa only [List.append_assoc] using heafter
      · have hdtoken : d.next.1 = c.next.1 := htoken
        obtain ⟨ts, t, hts, -, -⟩ := c.next.2.exists_tokens_eq
        rw [tokens_eq d, hdtoken, if_neg hinner, hetokens, htokens, hts]
        simp [List.dropLast_cons_of_ne_nil]
termination_by c.rest.length

end Cursor

/-! ## The law -/

/-- The tokens of two texts, with a newline between them: those of the first
text but the finish, and then those of the second one with their places
moved. -/
theorem tokenize_seam {first : String} (second : String)
    (hv : ∀ t ∈ tokenize first, t.kind.fault? = none) :
    tokenize (first ++ "\n" ++ second) = (tokenize first).dropLast ++
      (tokenize second).map
        (Token.moved (newlines first.toList + 1) (bytes first.toList + 1)) := by
  have hjoins : (Cursor.start first.toList).Joins
      (Cursor.start (first ++ "\n" ++ second).toList) second.toList := by
    refine ⟨?_, rfl, rfl⟩
    show (first ++ "\n" ++ second).toList = first.toList ++ '\n' :: second.toList
    simp
  obtain ⟨e, he, hafter, htokens⟩ := hjoins.tokens (Cursor.after_start _) hv
  have hleads : (Cursor.start second.toList).Leads e (newlines first.toList + 1)
      (bytes first.toList + 1) := by
    refine ⟨he, ?_, ?_⟩
    · rw [hafter.position]
      show bytes ([] ++ first.toList ++ ['\n']) = 0 + (bytes first.toList + 1)
      simp
      rfl
    · rw [hafter.line]
      show 1 + newlines ([] ++ first.toList ++ ['\n']) = 1 + (newlines first.toList + 1)
      simp
      rfl
  show (Cursor.start _).tokens = _
  rw [htokens, hleads.tokens]
  rfl

end OnePass
