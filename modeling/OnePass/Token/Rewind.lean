-- A cursor that is set to other places and other lines of a text, again and
-- again. Any line can be set, and the count of lines is kept in 64 bits: it
-- has an end, which no text that is read once from its first line gets near.
-- What comes behind the end depends on how the program was built.
import OnePass.Token.Cursor

namespace OnePass

/-! ## Counting to an end -/

/-- The largest line that can be counted. -/
def highestLine : Nat := UInt64.size - 1

/-- What a count does at its end: it stops the program, or it goes on from 0. -/
inductive Overflow where
  | stops
  | wraps

/-- A number as it is counted. -/
def Overflow.count (o : Overflow) (n : Nat) : Option Nat :=
  if n ≤ highestLine then some n
  else
    match o with
    | .stops => none
    | .wraps => some (n % (highestLine + 1))

namespace Cursor

/-- The next token, and the cursor behind it, with lines that are counted to
an end. The newlines of the gap and those of the token are added one after
the other, which wraps as adding all of them at once does. -/
def nextCounted (o : Overflow) (c : Cursor) : Option (Token × Cursor) := do
  let (t, after) := c.next
  return ({ t with line := ← o.count t.line }, after.atLine (← o.count after.line))

theorem kind_nextCounted {o : Overflow} {c after : Cursor} {t : Token}
    (h : c.nextCounted o = some (t, after)) :
    t.kind = c.next.1.kind ∧ after.rest = c.next.2.rest := by
  simp only [nextCounted, Option.bind_eq_bind, Option.pure_def, Option.bind_eq_some_iff,
    Option.some.injEq, Prod.mk.injEq] at h
  obtain ⟨_, _, _, _, rfl, rfl⟩ := h
  exact ⟨rfl, rfl⟩

/-- The tokens from the cursor on, the finish included, with lines that are
counted to an end. -/
def tokensCounted (o : Overflow) (c : Cursor) : Option (List Token) :=
  match hn : c.nextCounted o with
  | none => none
  | some (t, after) =>
    if h : t.kind = .finish then some [t]
    else
      have : after.rest.length < c.rest.length := by
        obtain ⟨hkind, hrest⟩ := kind_nextCounted hn
        rw [hrest]
        exact length_next_lt (hkind ▸ h)
      (after.tokensCounted o).map (t :: ·)
termination_by c.rest.length

/-! ## Histories -/

/-- What can be done with a cursor. -/
inductive Step where
  | next
  | seek (target : Nat)
  | atLine (line : Nat)

/-- The cursor after a step; nothing if the step seeks the inside of a
character, or if the count of lines stops. -/
def step (o : Overflow) (c : Cursor) : Step → Option Cursor
  | .next => (c.nextCounted o).map (·.2)
  | .seek n => c.seek n
  | .atLine l => some (c.atLine l)

end Cursor

end OnePass
