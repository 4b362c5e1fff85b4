-- The extent of the first lexeme of a text, by the longest match of any
-- shape. Limits on the length of a lexeme play no part yet.
import OnePass.Token.Kind

namespace OnePass

/-! ## Characters -/

/-- A letter or an underscore. -/
def startsName (c : Char) : Bool := c.isAlpha || c = '_'

/-- A letter, an underscore or a digit. -/
def continuesName (c : Char) : Bool := c.isAlphanum || c = '_'

/-- A digit in base sixteen. -/
def isHexDigit (c : Char) : Bool :=
  c.isDigit || ('a' ≤ c && c ≤ 'f') || ('A' ≤ c && c ≤ 'F')

/-- A character that may stand directly after a number. The form feed and
the vertical tab are blanks, but not among them. -/
def mayFollowNumber (c : Char) : Bool :=
  [' ', '\t', '\n', '\r', '(', ')', '[', ']', '{', '}', ';', ',', '+', '-', '*', '/', '%', '<',
    '>', '=', '&', '|', '^'].contains c

/-! ## Shapes -/

/-- The shape of a lexeme, before anything is said of limits. -/
inductive Shape where
  /-- A run of letters, underscores and digits. -/
  | word
  | decimal | hexadecimal | floating
  /-- A quote and what belongs to it, closed or not. -/
  | quote
  /-- An operator or a punctuation mark. -/
  | mark (k : Kind)
  /-- A character that starts no lexeme. -/
  | stray
deriving DecidableEq

/-- A lexeme cut off the head of a text: its shape, its characters, and
the text after them. -/
structure Cut where
  shape : Shape
  text : List Char
  rest : List Char

namespace Cut

/-- A mark of two characters. -/
def pair? : Char → Char → Option Kind
  | '=', '=' => some (.operator .equal)
  | '!', '=' => some (.operator .notEqual)
  | '<', '=' => some (.operator .lessEqual)
  | '>', '=' => some (.operator .greaterEqual)
  | '<', '<' => some (.operator .shiftLeft)
  | '>', '>' => some (.operator .shiftRight)
  | _, _ => none

/-- A mark of one character. -/
def single? : Char → Option Kind
  | '|' => some (.operator .bitOr)
  | '^' => some (.operator .bitXor)
  | '&' => some (.operator .bitAnd)
  | '<' => some (.operator .less)
  | '>' => some (.operator .greater)
  | '+' => some (.operator .plus)
  | '-' => some (.operator .minus)
  | '*' => some (.operator .times)
  | '/' => some (.operator .divide)
  | '%' => some (.operator .remainder)
  | '=' => some .assign
  | ';' => some .semicolon
  | ',' => some .comma
  | '(' => some .leftParen
  | ')' => some .rightParen
  | '{' => some .leftBrace
  | '}' => some .rightBrace
  | _ => none

/-- The text starts with a digit, or with a point and a digit. -/
def opensNumber : List Char → Bool
  | '.' :: d :: _ => d.isDigit
  | c :: _ => c.isDigit
  | [] => false

/-- A number: hexadecimal after `0x`, with a fraction after a point, or a
run of digits. -/
def number (cs : List Char) : Cut :=
  match cs with
  | '0' :: 'x' :: r => ⟨.hexadecimal, '0' :: 'x' :: r.takeWhile isHexDigit, r.dropWhile isHexDigit⟩
  | '0' :: 'X' :: r => ⟨.hexadecimal, '0' :: 'X' :: r.takeWhile isHexDigit, r.dropWhile isHexDigit⟩
  | _ =>
    match cs.dropWhile Char.isDigit with
    | '.' :: r =>
      ⟨.floating, cs.takeWhile Char.isDigit ++ '.' :: r.takeWhile Char.isDigit,
        r.dropWhile Char.isDigit⟩
    | r => ⟨.decimal, cs.takeWhile Char.isDigit, r⟩

/-- What follows an opening quote: at most one character, which a
backslash may precede, and the closing quote if it is there. A backslash
alone is not taken. -/
def quoteTail : List Char → List Char × List Char
  | '\\' :: c :: '\'' :: r => (['\\', c, '\''], r)
  | '\\' :: c :: r => (['\\', c], r)
  | '\\' :: [] => ([], ['\\'])
  | c :: '\'' :: r => ([c, '\''], r)
  | c :: r => ([c], r)
  | [] => ([], [])

/-- The longest lexeme at the head of `c :: cs`. -/
def first (c : Char) (cs : List Char) : Cut :=
  if startsName c then ⟨.word, c :: cs.takeWhile continuesName, cs.dropWhile continuesName⟩
  else if opensNumber (c :: cs) then number (c :: cs)
  else if c = '\'' then ⟨.quote, c :: (quoteTail cs).1, (quoteTail cs).2⟩
  else
    match cs.head?.bind (pair? c) with
    | some k => ⟨.mark k, c :: cs.take 1, cs.drop 1⟩
    | none =>
      match single? c with
      | some k => ⟨.mark k, [c], cs⟩
      | none => ⟨.stray, [c], cs⟩

end Cut

/-! ## Laws -/

namespace Cut

theorem number_append (cs : List Char) : (number cs).text ++ (number cs).rest = cs := by
  unfold number
  split
  · simp
  · simp
  · have h := List.takeWhile_append_dropWhile (p := Char.isDigit) (l := cs)
    split
    · rename_i r hr
      rw [hr] at h
      simpa using h
    · exact h

theorem number_text_ne_nil {cs : List Char} (h : opensNumber cs = true) : (number cs).text ≠ [] := by
  unfold number
  split
  · simp
  · simp
  · split
    · simp
    · rename_i hr
      cases cs with
      | nil => cases h
      | cons c cs =>
        by_cases hc : c.isDigit = true
        · simp [hc]
        · by_cases hp : c = '.'
          · subst hp
            exact absurd rfl (hr cs)
          · cases cs <;> simp_all [opensNumber]

theorem quoteTail_append (cs : List Char) : (quoteTail cs).1 ++ (quoteTail cs).2 = cs := by
  unfold quoteTail
  split <;> simp

/-- What was cut off and the rest make up the text. -/
theorem first_append (c : Char) (cs : List Char) : (first c cs).text ++ (first c cs).rest = c :: cs := by
  unfold first
  split
  · simp
  · split
    · exact number_append _
    · split
      · simp [quoteTail_append]
      · split
        · simp only [List.cons_append, List.take_append_drop]
        · split <;> simp

theorem first_text_ne_nil (c : Char) (cs : List Char) : (first c cs).text ≠ [] := by
  unfold first
  split
  · simp
  · split
    · exact number_text_ne_nil ‹_›
    · split
      · simp
      · split
        · simp
        · split <;> simp

theorem pair?_ne_finish (c d : Char) : pair? c d ≠ some .finish := by
  unfold pair?
  split <;> simp

theorem single?_ne_finish (c : Char) : single? c ≠ some .finish := by
  unfold single?
  split <;> simp

theorem first_shape_ne_finish (c : Char) (cs : List Char) : (first c cs).shape ≠ .mark .finish := by
  unfold first
  split
  · simp
  · split
    · unfold number
      split
      · simp
      · simp
      · split <;> simp
    · split
      · simp
      · split
        · rename_i k hk
          simp only [ne_eq, Shape.mark.injEq]
          rintro rfl
          cases cs with
          | nil => simp at hk
          | cons d cs => exact pair?_ne_finish c d (by simpa using hk)
        · split
          · rename_i k hk
            simp only [ne_eq, Shape.mark.injEq]
            rintro rfl
            exact single?_ne_finish c hk
          · simp

end Cut

end OnePass
