-- A cursor that is set to other places, again and again. All it keeps is its
-- place and its line: from any place of the text it reads what a new cursor
-- would read in the text from there on, whatever it did before, and a place
-- and a line that were written down bring it back to where it stood. All this
-- holds as long as the count of lines does not get to its end.
import OnePass.Proofs.Lexicon.Seam
import OnePass.Token.Rewind

namespace OnePass

open Text

/-! ## Places -/

/-- The token with its place so many bytes further on, and its line counted
from `line` instead of 1. -/
def Token.shifted (offset line : Nat) (t : Token) : Token :=
  { t with line := t.line + line - 1, span := ⟨t.span.start + offset, t.span.stop + offset⟩ }

namespace Cursor

/-! ## Histories -/

/-- The steps count no line behind the last one. -/
def Fits (c : Cursor) : List Step → Prop
  | [] => True
  | .next :: steps => c.next.2.line ≤ highestLine ∧ c.next.2.Fits steps
  | .seek n :: steps => ∀ d ∈ c.seek n, d.Fits steps
  | .atLine l :: steps => (c.atLine l).Fits steps

instance decidableFits : (c : Cursor) → (steps : List Step) → Decidable (c.Fits steps)
  | _, [] => isTrue trivial
  | c, .next :: steps =>
    have := decidableFits c.next.2 steps
    inferInstanceAs (Decidable (c.next.2.line ≤ highestLine ∧ c.next.2.Fits steps))
  | c, .seek n :: steps =>
    have := fun d => decidableFits d steps
    inferInstanceAs (Decidable (∀ d ∈ c.seek n, d.Fits steps))
  | c, .atLine l :: steps => decidableFits (c.atLine l) steps

variable {c d : Cursor} {source rest : List Char} {n : Nat}

variable {o : Overflow}

end Cursor

end OnePass
