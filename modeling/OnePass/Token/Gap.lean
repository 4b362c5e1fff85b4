-- What stands between tokens: blanks and comments. A comment starts with
-- two slashes and goes on to the end of the line.
import OnePass.Text.Bytes

namespace OnePass

/-- A blank between tokens: space, tab, newline, carriage return, form
feed or vertical tab. -/
def isBlank (c : Char) : Bool :=
  c = ' ' || c = '\t' || c = '\n' || c = '\r' || c = '\x0c' || c = '\x0b'

namespace Gap

/-- The gap at the head of a text and what comes after it. The flag tells
whether the text starts inside a comment. -/
def splitFrom (inComment : Bool) : List Char → List Char × List Char
  | [] => ([], [])
  | c :: cs =>
    if inComment then (splitFrom (c ≠ '\n') cs).map (c :: ·) id
    else if isBlank c then (splitFrom false cs).map (c :: ·) id
    else if c = '/' ∧ cs.head? = some '/' then (splitFrom true cs).map (c :: ·) id
    else ([], c :: cs)

/-- The longest gap at the head of a text and what comes after it. -/
def split (cs : List Char) : List Char × List Char := splitFrom false cs

/-! ## Laws -/

/-- The gap and the rest make up the text. -/
theorem splitFrom_append (b : Bool) (cs : List Char) :
    (splitFrom b cs).1 ++ (splitFrom b cs).2 = cs := by
  fun_induction splitFrom b cs <;> simp_all

theorem split_append (cs : List Char) : (split cs).1 ++ (split cs).2 = cs :=
  splitFrom_append false cs

/-- The rest starts neither with a blank nor with a comment. -/
def Stops (cs : List Char) : Prop :=
  ∀ c r, cs = c :: r → isBlank c = false ∧ ¬(c = '/' ∧ r.head? = some '/')

theorem splitFrom_stops (b : Bool) (cs : List Char) : Stops (splitFrom b cs).2 := by
  fun_induction splitFrom b cs <;> simp_all [Stops]

/-- The gap is as long as can be: no further blank or comment follows. -/
theorem split_stops (cs : List Char) : Stops (split cs).2 :=
  splitFrom_stops false cs

/-- A text that starts with neither has no gap. -/
theorem split_of_stops {cs : List Char} (h : Stops cs) : split cs = ([], cs) := by
  cases cs with
  | nil => rfl
  | cons c cs =>
    obtain ⟨h1, h2⟩ := h c cs rfl
    simp [split, splitFrom, h1, h2]

end Gap

end OnePass
