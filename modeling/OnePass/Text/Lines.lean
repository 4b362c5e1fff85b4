-- The lines of a text, and the line and the column of a place in it. A
-- newline ends its line and is part of it, so a text that ends in a newline
-- has an empty line at its end.
import OnePass.Text.Bytes

namespace OnePass.Text

/-- A line of a text, and the place where it starts. -/
structure Line where
  start : Nat
  text : List Char

/-- The lines of a text that starts at the place `start`. -/
def linesFrom (start : Nat) : List Char → List Line
  | [] => [⟨start, []⟩]
  | c :: cs =>
    if c = '\n' then ⟨start, [c]⟩ :: linesFrom (start + 1) cs
    else
      match linesFrom (start + c.utf8Size) cs with
      | l :: ls => ⟨start, c :: l.text⟩ :: ls
      | [] => [⟨start, [c]⟩]

/-- The lines of a text. There is always at least one. -/
def lines (cs : List Char) : List Line := linesFrom 0 cs

theorem linesFrom_ne_nil (start : Nat) (cs : List Char) : linesFrom start cs ≠ [] := by
  fun_cases linesFrom start cs <;> simp_all

/-- How many lines start before a place or at it, the first one left out:
the line of the place, counted from 0. -/
def lineIndex (cs : List Char) (place : Nat) : Nat :=
  ((lines cs).countP fun l => l.start ≤ place) - 1

/-- A line by its number, counted from 0. -/
def lineAt (cs : List Char) (index : Nat) : Line :=
  (lines cs).getD index ⟨bytes cs, []⟩

/-- How many characters lie wholly within the first `n` bytes. -/
def charsWithin (n : Nat) : List Char → Nat
  | [] => 0
  | c :: cs => if c.utf8Size ≤ n then charsWithin (n - c.utf8Size) cs + 1 else 0

/-- The column of a place in its line, counted from 1. -/
def column (cs : List Char) (place : Nat) : Nat :=
  let line := lineAt cs (lineIndex cs place)
  charsWithin (place - line.start) line.text + 1

end OnePass.Text
