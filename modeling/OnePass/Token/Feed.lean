-- What tokens can be pulled from, one at a time, with one token of
-- lookahead: a text under a cursor, or a list of tokens that is finished.
import OnePass.Token.Cursor

namespace OnePass

/-- A supply of tokens. After the finish it gives the finish again. -/
class Feed (φ : Type) where
  /-- Takes the next token. -/
  next : φ → Token × φ
  /-- Gives the next token without taking it. -/
  peek : φ → Token × φ
  /-- A bound on the tokens that are left before the finish. -/
  left : φ → Nat
  /-- Looking ahead changes nothing. -/
  peek_eq : ∀ f, peek f = ((next f).1, f)
  /-- Every token but the finish is one token less. -/
  left_next : ∀ f, (next f).1.kind ≠ .finish → left (next f).2 < left f
  /-- Nothing is left behind the finish. -/
  left_finish : ∀ f, (next f).1.kind = .finish → left (next f).2 = 0

instance : Feed Cursor where
  next := Cursor.next
  peek := Cursor.peek
  left c := c.rest.length
  peek_eq := Cursor.peek_eq
  left_next _ := Cursor.length_next_lt
  left_finish c h := by
    show c.next.2.rest.length = 0
    rw [Cursor.rest_next_of_finish h]
    rfl

/-! ## Finished lists -/

/-- A list of tokens to be read, and the token that comes at the end, over
and over. Only the last one is a finish. -/
structure Reel where
  ahead : List Token
  last : Token
  ahead_ne : ∀ t ∈ ahead, t.kind ≠ .finish
  last_eq : last.kind = .finish

namespace Reel

/-- Takes the next token of the list. -/
def next (r : Reel) : Token × Reel :=
  match h : r.ahead with
  | [] => (r.last, r)
  | t :: ts =>
    (t, ⟨ts, r.last, fun u hu => r.ahead_ne u (by rw [h]; exact List.mem_cons_of_mem t hu), r.last_eq⟩)

@[ext] theorem ext {a b : Reel} (h1 : a.ahead = b.ahead) (h2 : a.last = b.last) : a = b := by
  cases a; cases b; simp_all

theorem next_nil {r : Reel} (h : r.ahead = []) : r.next = (r.last, r) := by
  unfold next
  split
  · rfl
  · rename_i heq
    rw [h] at heq
    cases heq

theorem next_cons {r : Reel} {t : Token} {ts : List Token} (h : r.ahead = t :: ts) :
    r.next = (t, ⟨ts, r.last, fun u hu => r.ahead_ne u (by rw [h]; exact List.mem_cons_of_mem t hu),
      r.last_eq⟩) := by
  unfold next
  split
  · rename_i heq
    rw [h] at heq
    cases heq
  · rename_i heq
    cases h.symm.trans heq
    rfl

end Reel

instance : Feed Reel where
  next := Reel.next
  peek r := (r.next.1, r)
  left r := r.ahead.length
  peek_eq _ := rfl
  left_next r h := by
    match hr : r.ahead with
    | [] => rw [Reel.next_nil hr] at h; exact absurd r.last_eq h
    | t :: ts => rw [Reel.next_cons hr]; simp
  left_finish r h := by
    match hr : r.ahead with
    | [] => rw [Reel.next_nil hr]; simp [hr]
    | t :: ts =>
      rw [Reel.next_cons hr] at h
      exact absurd h (r.ahead_ne t (by rw [hr]; exact List.mem_cons_self ..))

end OnePass
