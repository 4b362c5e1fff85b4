-- The first lexeme of a text: the verdict on what was cut off its head. The
-- verdict may find a fault, and may take one more character into a faulty
-- number.
import OnePass.Token.Shape

namespace OnePass

/-! ## Verdict -/

/-- The words of the language. -/
def words : List (String × Kind) :=
  [("void", .voidWord), ("short", .shortWord), ("long", .longWord), ("int", .intWord),
    ("double", .doubleWord), ("char", .charWord), ("while", .whileWord), ("main", .mainWord)]

/-- The kind of a word: one of the language, or else a name. -/
def wordKind (text : List Char) : Kind :=
  match words.lookup (String.ofList text) with
  | some k => k
  | none => if text.length ≤ longestName then .name else .invalid .nameTooLong

/-- The limit that a number breaks. The digits on both sides of a point
are counted apart, and so are those after `0x`. -/
def overLimit? (shape : Shape) (text : List Char) : Option Fault :=
  match shape with
  | .decimal => if text.length ≤ mostDecimalDigits then none else some .decimalTooLong
  | .hexadecimal =>
    if text.length ≤ 2 then some .hexWithoutDigits
    else if text.length ≤ 2 + mostHexDigits then none
    else some .hexTooLong
  | .floating =>
    if (text.takeWhile (· ≠ '.')).length ≤ mostFloatDigits ∧
        (text.dropWhile (· ≠ '.')).length ≤ 1 + mostFloatDigits then none
    else some .floatTooLong
  | _ => none

/-- A quote that holds one character and is closed. -/
def isClosedQuote : List Char → Bool
  | [q, c, r] => q == '\'' && c != '\\' && r == '\''
  | [q, b, _, r] => q == '\'' && b == '\\' && r == '\''
  | _ => false

/-- A lexeme: the kind, the characters, and the text after them. -/
structure Lexeme where
  kind : Kind
  text : List Char
  rest : List Char

namespace Lexeme

/-- A number within its limits, unless it runs into something. The
character that it runs into is then part of the lexeme. -/
def ofNumber (k : Kind) (text rest : List Char) : Lexeme :=
  match rest with
  | c :: r =>
    if mayFollowNumber c then ⟨k, text, rest⟩ else ⟨.invalid .numberGlued, text ++ [c], r⟩
  | [] => ⟨k, text, []⟩

/-- The verdict on a number. A broken limit comes before anything that
follows the number. -/
def judgeNumber (k : Kind) (cut : Cut) : Lexeme :=
  match overLimit? cut.shape cut.text with
  | some f => ⟨.invalid f, cut.text, cut.rest⟩
  | none => ofNumber k cut.text cut.rest

/-- The verdict on what was cut off. -/
def ofCut (cut : Cut) : Lexeme :=
  match cut.shape with
  | .word => ⟨wordKind cut.text, cut.text, cut.rest⟩
  | .decimal => judgeNumber .decimal cut
  | .hexadecimal => judgeNumber .hexadecimal cut
  | .floating => judgeNumber .floating cut
  | .quote =>
    ⟨if isClosedQuote cut.text then .character else .invalid .quoteOpen, cut.text, cut.rest⟩
  | .mark k => ⟨k, cut.text, cut.rest⟩
  | .stray => ⟨.invalid .strayCharacter, cut.text, cut.rest⟩

/-- The first lexeme of `c :: cs`. -/
def first (c : Char) (cs : List Char) : Lexeme := ofCut (Cut.first c cs)

end Lexeme

/-! ## Laws -/

namespace Lexeme

theorem ofNumber_append (k : Kind) (text rest : List Char) :
    (ofNumber k text rest).text ++ (ofNumber k text rest).rest = text ++ rest := by
  unfold ofNumber
  split
  · split <;> simp
  · simp

theorem judgeNumber_append (k : Kind) (cut : Cut) :
    (judgeNumber k cut).text ++ (judgeNumber k cut).rest = cut.text ++ cut.rest := by
  unfold judgeNumber
  split
  · rfl
  · exact ofNumber_append ..

theorem ofCut_append (cut : Cut) : (ofCut cut).text ++ (ofCut cut).rest = cut.text ++ cut.rest := by
  unfold ofCut
  split
  case h_2 | h_3 | h_4 => exact judgeNumber_append ..
  all_goals rfl

theorem ofNumber_text_ne_nil (k : Kind) {text : List Char} (rest : List Char) (h : text ≠ []) :
    (ofNumber k text rest).text ≠ [] := by
  unfold ofNumber
  split
  · split <;> simp [h]
  · exact h

theorem judgeNumber_text_ne_nil (k : Kind) {cut : Cut} (h : cut.text ≠ []) :
    (judgeNumber k cut).text ≠ [] := by
  unfold judgeNumber
  split
  · exact h
  · exact ofNumber_text_ne_nil k _ h

theorem ofCut_text_ne_nil {cut : Cut} (h : cut.text ≠ []) : (ofCut cut).text ≠ [] := by
  unfold ofCut
  split
  case h_2 | h_3 | h_4 => exact judgeNumber_text_ne_nil _ h
  all_goals exact h

/-- A lexeme has at least one character. -/
theorem first_text_ne_nil (c : Char) (cs : List Char) : (first c cs).text ≠ [] :=
  ofCut_text_ne_nil (Cut.first_text_ne_nil c cs)

/-- A lexeme and the text after it make up the text. -/
theorem first_append (c : Char) (cs : List Char) :
    (first c cs).text ++ (first c cs).rest = c :: cs := by
  rw [first, ofCut_append, Cut.first_append]

/-- What is left after a lexeme is shorter. -/
theorem first_rest_length (c : Char) (cs : List Char) :
    (first c cs).rest.length < (c :: cs).length := by
  have h := congrArg List.length (first_append c cs)
  have := List.length_pos_iff.2 (first_text_ne_nil c cs)
  rw [List.length_append] at h
  omega

theorem wordKind_ne_finish (text : List Char) : wordKind text ≠ .finish := by
  unfold wordKind
  split
  · rename_i k h
    rintro rfl
    obtain ⟨before, after, hw, -⟩ := List.lookup_eq_some_iff.1 h
    have : (String.ofList text, Kind.finish) ∈ words := by rw [hw]; simp
    simp [words] at this
  · split <;> simp

theorem judgeNumber_ne_finish {k : Kind} (cut : Cut) (h : k ≠ .finish) :
    (judgeNumber k cut).kind ≠ .finish := by
  unfold judgeNumber ofNumber
  split
  · simp
  · split
    · split
      · exact h
      · simp
    · exact h

/-- No lexeme is the finish. -/
theorem first_kind_ne_finish (c : Char) (cs : List Char) : (first c cs).kind ≠ .finish := by
  unfold first ofCut
  split
  · exact wordKind_ne_finish _
  · exact judgeNumber_ne_finish _ (by simp)
  · exact judgeNumber_ne_finish _ (by simp)
  · exact judgeNumber_ne_finish _ (by simp)
  · split <;> simp
  · rename_i k h
    rintro rfl
    exact Cut.first_shape_ne_finish c cs h
  · simp

end Lexeme

end OnePass
