-- A cursor stands at a place of a text and hands out the token that starts
-- there, or the next one after a gap. It counts the newlines that it
-- passes. It can be set to any other place; the count of lines stays as it
-- is then, unless it is set too.
import OnePass.Token.Basic
import OnePass.Token.Gap
import OnePass.Token.Lexeme

namespace OnePass

open Text

/-- A place in a text, and the line that is counted for it. -/
structure Cursor where
  source : List Char
  /-- The text from the cursor on. -/
  rest : List Char
  /-- The bytes before the cursor. -/
  position : Nat
  line : Nat
  stands : after? source position = some rest

namespace Cursor

/-- A cursor at the start of a text. -/
def start (source : List Char) : Cursor :=
  ⟨source, source, 0, 1, after?_zero source⟩

/-- The cursor moved over the text `passed`, which lies ahead of it. -/
def pass (c : Cursor) (passed rest : List Char) (h : c.rest = passed ++ rest) : Cursor where
  source := c.source
  rest := rest
  position := c.position + bytes passed
  line := c.line + newlines passed
  stands := by rw [after?_add c.stands, h]; exact after?_append passed rest

/-- The cursor behind the gap at which it stands. -/
def skipGap (c : Cursor) : Cursor :=
  c.pass (Gap.split c.rest).1 (Gap.split c.rest).2 (Gap.split_append c.rest).symm

/-- The token that starts at the cursor, which is not in a gap. -/
def read (c : Cursor) : Token × Cursor :=
  match h : c.rest with
  | [] => (.finish c.line c.position, c)
  | x :: xs =>
    let lexeme := Lexeme.first x xs
    let after := c.pass lexeme.text lexeme.rest (h.trans (Lexeme.first_append x xs).symm)
    (⟨lexeme.kind, String.ofList lexeme.text, c.line, ⟨c.position, after.position⟩⟩, after)

/-- The next token, and the cursor behind it. At the end of the text the
token is the finish, over and over. -/
def next (c : Cursor) : Token × Cursor := c.skipGap.read

/-- The cursor set to another place, or to the end if the text ends before
it; nothing if the place is inside a character. -/
def seek (c : Cursor) (target : Nat) : Option Cursor :=
  match h : after? c.source (min target (bytes c.source)) with
  | some rest => some ⟨c.source, rest, min target (bytes c.source), c.line, h⟩
  | none => none

/-- The cursor with another line counted for its place. -/
def atLine (c : Cursor) (line : Nat) : Cursor := { c with line }

/-- The token after the next call of `next` would be given, without taking
it: the cursor goes there and comes back. -/
def peek (c : Cursor) : Token × Cursor :=
  match c.next with
  | (t, after) =>
    match after.seek c.position with
    | some back => (t, back.atLine c.line)
    | none => (t, after)

/-! ## Laws -/

@[ext] theorem ext {a b : Cursor} (h1 : a.source = b.source) (h2 : a.rest = b.rest)
    (h3 : a.position = b.position) (h4 : a.line = b.line) : a = b := by
  cases a; cases b; simp_all

@[simp] theorem source_pass (c : Cursor) (passed rest h) : (c.pass passed rest h).source = c.source :=
  rfl

@[simp] theorem source_skipGap (c : Cursor) : c.skipGap.source = c.source := rfl

@[simp] theorem source_read (c : Cursor) : c.read.2.source = c.source := by
  unfold read; split <;> rfl

@[simp] theorem source_next (c : Cursor) : c.next.2.source = c.source := by
  simp [next]

/-- A cursor does not stand behind the end of its text. -/
theorem position_le (c : Cursor) : c.position ≤ bytes c.source := by
  obtain ⟨a, ha, hb⟩ := after?_eq_some_iff.1 c.stands
  rw [ha, bytes_append]
  omega

/-- A cursor can always go back to where another cursor of the text stands. -/
theorem seek_position {c d : Cursor} (h : d.source = c.source) :
    d.seek c.position = some ⟨c.source, c.rest, c.position, d.line, c.stands⟩ := by
  unfold seek
  have hm : min c.position (bytes d.source) = c.position := by
    rw [h]; exact Nat.min_eq_left c.position_le
  split
  · rename_i rest hr
    rw [hm, h, c.stands] at hr
    cases hr
    congr 1
    exact Cursor.ext h rfl hm rfl
  · rename_i hr
    rw [hm, h, c.stands] at hr
    cases hr

/-- Looking ahead leaves the cursor as it was. -/
theorem peek_eq (c : Cursor) : c.peek = (c.next.1, c) := by
  unfold peek
  rw [show c.next = (c.next.1, c.next.2) from rfl]
  simp only [seek_position (source_next c)]
  rfl

theorem rest_skipGap (c : Cursor) : c.skipGap.rest = (Gap.split c.rest).2 := rfl

theorem length_skipGap_le (c : Cursor) : c.skipGap.rest.length ≤ c.rest.length := by
  have h := congrArg List.length (Gap.split_append c.rest)
  rw [List.length_append] at h
  rw [rest_skipGap]
  omega

/-- At the end of the text there is only the finish, and nothing moves. -/
theorem read_of_rest_nil {c : Cursor} (h : c.rest = []) :
    c.read = (.finish c.line c.position, c) := by
  unfold read
  split
  · rfl
  · rename_i heq
    rw [h] at heq
    cases heq

/-- Inside the text the token is the lexeme that starts there. -/
theorem read_of_rest_cons {c : Cursor} {x : Char} {xs : List Char} (h : c.rest = x :: xs) :
    c.read =
      let lexeme := Lexeme.first x xs
      let after := c.pass lexeme.text lexeme.rest (h.trans (Lexeme.first_append x xs).symm)
      (⟨lexeme.kind, String.ofList lexeme.text, c.line, ⟨c.position, after.position⟩⟩, after) := by
  unfold read
  split
  · rename_i heq
    rw [h] at heq
    cases heq
  · rename_i heq
    cases h.symm.trans heq
    rfl

/-- A token other than the finish takes something off the text. -/
theorem length_next_lt {c : Cursor} (h : c.next.1.kind ≠ .finish) :
    c.next.2.rest.length < c.rest.length := by
  refine Nat.lt_of_lt_of_le ?_ c.length_skipGap_le
  unfold next at h ⊢
  match hr : c.skipGap.rest with
  | [] => exact absurd (by rw [read_of_rest_nil hr]; rfl) h
  | x :: xs =>
    rw [read_of_rest_cons hr]
    exact Lexeme.first_rest_length x xs

/-- The finish comes when the text is used up. -/
theorem rest_next_of_finish {c : Cursor} (h : c.next.1.kind = .finish) : c.next.2.rest = [] := by
  unfold next at h ⊢
  match hr : c.skipGap.rest with
  | [] => rw [read_of_rest_nil hr]; exact hr
  | x :: xs =>
    rw [read_of_rest_cons hr] at h
    exact absurd h (Lexeme.first_kind_ne_finish x xs)

/-! ## All tokens -/

/-- The tokens from the cursor on, the finish included. -/
def tokens (c : Cursor) : List Token :=
  match hn : c.next with
  | (t, after) =>
    if h : t.kind = .finish then [t]
    else
      have : after.rest.length < c.rest.length := by
        simpa [hn] using length_next_lt (c := c) (by simpa [hn] using h)
      t :: after.tokens
termination_by c.rest.length

end Cursor

/-- The tokens of a text, the finish included. -/
def tokenize (source : String) : List Token := (Cursor.start source.toList).tokens

end OnePass
