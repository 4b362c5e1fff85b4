-- Where a complaint is shown. A cursor counts lines as it goes, and a snippet
-- looks its place up in the table of all lines; both tell the line of the
-- first character of the token. A mark goes over several lines only for a
-- quote that holds a newline.
import OnePass.Proofs.Lexicon.Respacing
import OnePass.Proofs.Provenance
import OnePass.Proofs.Report.Lines
import OnePass.Report.Snippet

namespace OnePass

open Text

/-! ## Newlines in lexemes -/

namespace Lexicon

variable {r : Rule} {cs w rest text : List Char} {k : Kind}

/-- No spelling but a quote holds a newline. -/
theorem Follows.quote_of_newline (h : Follows r w) (hn : '\n' ∈ w) : r = .quote := by
  rcases h.quote_or_slash hn (Or.inl rfl) with hr | rfl
  · exact hr
  · simp at hn

/-- The character that is taken into a faulty number is no newline. -/
theorem Verdict.newline_mem (h : Verdict r w rest k text) (hn : '\n' ∈ text) :
    '\n' ∈ w ∧ (r = .quote → text = w) := by
  cases h with
  | @numberGlued _ w rest c _ hw hc =>
    have hne : c ≠ '\n' := by
      rintro rfl
      revert hc
      decide
    refine ⟨by simpa [hne.symm] using hn, ?_⟩
    rintro rfl
    cases hw
  | _ => exact ⟨hn, fun _ => rfl⟩

/-- Only a lexeme that starts with a quote holds a newline. -/
theorem Lexes.quote_of_newline (h : Lexes cs k text) (hcs : cs.head? ≠ some '\n')
    (hn : '\n' ∈ text) : text.head? = some '\'' := by
  cases h with
  | rule _ hr hv =>
    obtain ⟨hw, htext⟩ := hv.newline_mem hn
    have hquote := hr.follows.quote_of_newline hw
    rw [htext hquote]
    have hf := hr.follows
    rw [hquote] at hf
    cases hf
    rfl
  | @stray c cs _ =>
    rw [List.mem_singleton] at hn
    rw [hn] at hcs
    exact absurd rfl hcs

/-! ## Tokens in their text -/

variable {before : List Char} {ts : List Token} {t : Token}

/-- A token cuts the text where it stands. The finish marks nothing. -/
theorem Covers.exists_cut (h : Covers before cs ts) (ht : t ∈ ts) :
    ∃ front body back, before ++ cs = front ++ body ++ back ∧
      t.span = ⟨bytes front, bytes (front ++ body)⟩ ∧ t.line = lineBehind front ∧
      (body = t.text.toList ∨ body = [] ∧ back = [] ∧ t.text = "EOF") := by
  induction h with
  | @finish before g hg =>
    rw [List.mem_singleton.1 ht]
    refine ⟨before ++ g, [], [], ?_, ?_, Nat.add_comm _ _, Or.inr ⟨rfl, rfl, rfl⟩⟩
    · simp
    · simp [Token.finish]
  | @token before g rest u ts hu _ ih =>
    rcases List.mem_cons.1 ht with rfl | ht
    · refine ⟨before ++ g, t.text.toList, rest, ?_, hu.span, ?_, Or.inl rfl⟩
      · simp
      · rw [hu.line, lineBehind, Nat.add_comm]
    · obtain ⟨front, body, back, hcut, hrest⟩ := ih ht
      refine ⟨front, body, back, ?_, hrest⟩
      rw [← hcut]
      simp

end Lexicon

open Lexicon

variable {source : String} {t : Token}

/-- A token with a newline in it starts with a quote. -/
theorem quote_of_newline (h : t ∈ tokenize source) (hn : '\n' ∈ t.text.toList) :
    t.text.toList.head? = some '\'' := by
  obtain ⟨c, rfl⟩ := Cursor.exists_next_of_mem _ h
  unfold Cursor.next at hn ⊢
  cases hr : c.skipGap.rest with
  | nil =>
    rw [Cursor.read_of_rest_nil hr] at hn
    simp [Token.finish] at hn
  | cons x xs =>
    rw [Cursor.read_of_rest_cons hr] at hn ⊢
    have hblank : isBlank x = false := (Gap.split_stops c.rest x xs hr).1
    have hx : x ≠ '\n' := by
      rintro rfl
      cases hblank
    have hlexes : Lexes (x :: xs) _ _ := lexes_iff.2 ⟨rfl, String.toList_ofList⟩
    exact hlexes.quote_of_newline (by simpa using hx) hn

/-! ## The law -/

namespace Snippet

/-- The digits of the number of the line behind a text. -/
def numberWidth (front : List Char) : Nat := (toString (lineBehind front)).length

/-- The line above the lines of a snippet: a line and a column of a text. -/
def heading (w : Nat) (name : String) (line column : Nat) : String :=
  many w ' ' ++ " ┌─ " ++ name ++ ":" ++ toString line ++ ":" ++ toString column

/-- The remark below the lines of a snippet. -/
def remark (line : Nat) (lexeme : String) : String :=
  "on line " ++ toString line ++ ", found token \"" ++ lexeme ++ "\""

end Snippet

open Snippet

/-- The program is turned down at the part `body` of its text, which comes
after the part `front`, and the complaint is shown there. -/
structure ShownAt (source : List Char) (r : Rejection) (front body back : List Char) : Prop where
  text : source = front ++ body ++ back
  span : r.complaint.span? = some ⟨bytes front, bytes (front ++ body)⟩
  /-- The part is the lexeme. The finish is no part of the text, and stands at
  its end. -/
  lexeme : body = r.complaint.lexeme.toList ∨
    body = [] ∧ back = [] ∧ r.complaint.lexeme = "EOF"
  /-- The line that was counted, the one in the table of lines and that of the
  first character are the same. -/
  line : r.complaint.line = lineBehind front ∧
    lineIndex source (bytes front) + 1 = lineBehind front
  column : column source (bytes front) = columnBehind front
  /-- The mark goes over several lines if the lexeme does. -/
  several_iff : lineIndex source (bytes front) ≠ lineIndex source (bytes (front ++ body)) ↔
    '\n' ∈ r.complaint.lexeme.toList
  quote : '\n' ∈ r.complaint.lexeme.toList → r.complaint.lexeme.toList.head? = some '\''
  /-- What is written: a title, the line and the column in a heading, the
  marked lines, and the same line once more in a remark. -/
  written : ∀ name, r.complaint.render name source =
    String.join ((["error: " ++ r.cause.stage.title ++ " error",
      heading (numberWidth (front ++ body)) name (lineBehind front) (columnBehind front)] ++
      (if '\n' ∈ r.complaint.lexeme.toList then
        several (numberWidth (front ++ body)) source (newlines front) (newlines (front ++ body))
          r.token.span r.cause.message
      else
        single (numberWidth (front ++ body)) (lineBehind front)
          (trimmed (lineAt source (newlines front)).text)
          (bytes (lastLine front)) (bytes (lastLine front ++ body)) r.cause.message) ++
      note (numberWidth (front ++ body)) (remark (lineBehind front) r.complaint.lexeme) ++
      [""]).map (· ++ "\n"))

/-- A mark over a part of a text, on one line or on several. -/
theorem located_append (name : String) (front body back : List Char) (message noted : String) :
    located name (front ++ body ++ back) ⟨bytes front, bytes (front ++ body)⟩ message noted =
      [heading (numberWidth (front ++ body)) name (lineBehind front) (columnBehind front)] ++
        (if '\n' ∈ body then
          several (numberWidth (front ++ body)) (front ++ body ++ back) (newlines front)
            (newlines (front ++ body)) ⟨bytes front, bytes (front ++ body)⟩ message
        else
          single (numberWidth (front ++ body)) (lineBehind front)
            (trimmed (lineAt (front ++ body ++ back) (newlines front)).text)
            (bytes (lastLine front)) (bytes (lastLine front ++ body)) message) ++
        note (numberWidth (front ++ body)) noted := by
  have hstart := lineIndex_append front (body ++ back)
  have hcolumn := column_append front (body ++ back)
  have hstop := lineIndex_append (front ++ body) back
  obtain ⟨place, l, hline, hplace⟩ := lineAt_append front (body ++ back)
  rw [← List.append_assoc] at hstart hcolumn hline
  have hfrom : bytes front - place = bytes (lastLine front) := by omega
  have hto : bytes (front ++ body) - place = bytes (lastLine front ++ body) := by
    rw [bytes_append, bytes_append]
    omega
  have hmax : max (newlines front) (newlines (front ++ body)) = newlines (front ++ body) := by
    rw [newlines_append]
    omega
  have hsame : newlines front = newlines (front ++ body) ↔ '\n' ∉ body := by
    rw [newlines_append, ← newlines_eq_zero]
    omega
  simp only [located, hstart, hstop, hcolumn, hline, hfrom, hto, hmax, hsame, ite_not, heading,
    numberWidth, lineBehind]

variable {r : Rejection}

/-- A complaint is written as a title and a snippet with a remark. -/
theorem Rejection.render_complaint (r : Rejection) (name : String) (source : List Char) :
    r.complaint.render name source = String.join ((("error: " ++ r.cause.stage.title ++ " error") ::
      located name source r.token.span r.cause.message (remark r.token.line r.token.text) ++
        [""]).map (· ++ "\n")) := rfl

/-- Every complaint about a program is shown where its token stands. -/
theorem a_complaint_is_shown_at_its_token (h : (analyze source).verdict = .error r) :
    r.token ∈ tokenize source ∧
      ∃ front body back, ShownAt source.toList r front body back := by
  have hmem := token_mem_of_verdict h
  refine ⟨hmem, ?_⟩
  obtain ⟨front, body, back, htext, hspan, hline, hbody⟩ :=
    (covers_tokenize source).exists_cut hmem
  rw [List.nil_append] at htext
  have hnewline : '\n' ∈ r.token.text.toList ↔ '\n' ∈ body := by
    rcases hbody with rfl | ⟨rfl, -, heof⟩
    · rfl
    · simp [heof]
  have hstart := lineIndex_append front (body ++ back)
  have hcolumn := column_append front (body ++ back)
  have hstop := lineIndex_append (front ++ body) back
  rw [← List.append_assoc, ← htext] at hstart hcolumn
  rw [← htext] at hstop
  refine ⟨front, body, back, ?_⟩
  constructor
  · exact htext
  · exact congrArg some hspan
  · exact hbody
  · exact ⟨hline, congrArg (· + 1) hstart⟩
  · exact hcolumn
  · rw [r.complaint_pointsAt.lexeme, hstart, hstop, hnewline, newlines_append, ← not_iff_not,
      ← newlines_eq_zero]
    omega
  · exact quote_of_newline hmem
  · intro name
    have hlocated := located_append name front body back r.cause.message
      (remark (lineBehind front) r.token.text)
    rw [← htext, ← hspan] at hlocated
    rw [r.complaint_pointsAt.lexeme, r.render_complaint, hline, hlocated,
      if_congr hnewline rfl rfl]
    simp only [List.cons_append, List.nil_append]

/-- A quote that is not closed before the end of its line, on the line behind a
letter of two bytes. -/
theorem an_open_quote_is_shown_on_two_lines :
    (analyze "// é\nchar c = '\n;").verdict =
        .error ⟨.spelling .quoteOpen, ⟨.invalid .quoteOpen, "'\n", 2, ⟨15, 17⟩⟩⟩ ∧
      ⟨.invalid .quoteOpen, "'\n", 2, ⟨15, 17⟩⟩ ∈ tokenize "// é\nchar c = '\n;" ∧
      ∃ front body back, ShownAt "// é\nchar c = '\n;".toList
        ⟨.spelling .quoteOpen, ⟨.invalid .quoteOpen, "'\n", 2, ⟨15, 17⟩⟩⟩ front body back := by
  have h : (analyze "// é\nchar c = '\n;").verdict =
      .error ⟨.spelling .quoteOpen, ⟨.invalid .quoteOpen, "'\n", 2, ⟨15, 17⟩⟩⟩ := by
    decide +kernel
  exact ⟨h, a_complaint_is_shown_at_its_token h⟩

end OnePass
