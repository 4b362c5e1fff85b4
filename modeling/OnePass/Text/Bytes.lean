-- Texts measured in bytes of UTF-8. A place in a text is the number of
-- bytes before it, and not every number is a place: it may fall inside a
-- character, or behind the end.

namespace OnePass.Text

/-! ## Size -/

/-- The bytes that the characters take. -/
def bytes : List Char → Nat
  | [] => 0
  | c :: cs => c.utf8Size + bytes cs

@[simp] theorem bytes_nil : bytes [] = 0 := rfl

@[simp] theorem bytes_cons (c : Char) (cs : List Char) : bytes (c :: cs) = c.utf8Size + bytes cs :=
  rfl

@[simp] theorem bytes_append (a b : List Char) : bytes (a ++ b) = bytes a + bytes b := by
  induction a with
  | nil => simp
  | cons c a ih => simp [ih, Nat.add_assoc]

/-- Only the empty text takes no bytes. -/
theorem bytes_eq_zero {cs : List Char} : bytes cs = 0 ↔ cs = [] := by
  cases cs with
  | nil => simp
  | cons c cs => have := c.utf8Size_pos; simp; omega

/-! ## Places -/

/-- The text after its first `n` bytes, if `n` is a place in it. -/
def after? : List Char → Nat → Option (List Char)
  | cs, 0 => some cs
  | [], _ + 1 => none
  | c :: cs, n + 1 => if c.utf8Size ≤ n + 1 then after? cs (n + 1 - c.utf8Size) else none

@[simp] theorem after?_zero (cs : List Char) : after? cs 0 = some cs := by
  cases cs <;> rfl

/-- The place after a part of a text is where the rest starts. -/
theorem after?_append (a b : List Char) : after? (a ++ b) (bytes a) = some b := by
  induction a with
  | nil => simp
  | cons c a ih =>
    obtain ⟨n, hn⟩ : ∃ n, bytes (c :: a) = n + 1 :=
      ⟨bytes (c :: a) - 1, by have := c.utf8Size_pos; simp; omega⟩
    rw [hn, List.cons_append, after?, ← hn]
    simp [ih]

/-- A place cuts the text in two, the first part having as many bytes as
the place says. -/
theorem after?_eq_some_iff {cs rest : List Char} {n : Nat} :
    after? cs n = some rest ↔ ∃ a, cs = a ++ rest ∧ bytes a = n := by
  constructor
  · intro h
    fun_induction after? cs n with
    | case1 => exact ⟨[], by simpa using h, rfl⟩
    | case2 => cases h
    | case3 c cs n hc ih =>
      obtain ⟨a, ha, hb⟩ := ih h
      exact ⟨c :: a, by simp [ha], by simp [hb]; omega⟩
    | case4 => cases h
  · rintro ⟨a, rfl, rfl⟩
    exact after?_append a rest

/-- A place in the rest is a place in the whole. -/
theorem after?_add {cs rest : List Char} {n m : Nat} (h : after? cs n = some rest) :
    after? cs (n + m) = after? rest m := by
  obtain ⟨a, rfl, rfl⟩ := after?_eq_some_iff.1 h
  clear h
  induction a with
  | nil => simp
  | cons c a ih =>
    obtain ⟨k, hk⟩ : ∃ k, bytes (c :: a) + m = k + 1 :=
      ⟨bytes (c :: a) + m - 1, by have := c.utf8Size_pos; simp; omega⟩
    have hc : c.utf8Size ≤ k + 1 := by rw [← hk]; simp; omega
    have hs : k + 1 - c.utf8Size = bytes a + m := by rw [← hk]; simp; omega
    rw [hk, List.cons_append, after?, if_pos hc, hs, ih]

/-! ## Lines -/

/-- The newlines in a text. No other character ends a line. -/
def newlines (cs : List Char) : Nat := cs.count '\n'

@[simp] theorem newlines_nil : newlines [] = 0 := rfl

@[simp] theorem newlines_append (a b : List Char) : newlines (a ++ b) = newlines a + newlines b :=
  List.count_append

end OnePass.Text
