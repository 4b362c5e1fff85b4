-- What keeps a run going forward. Every production and every round has a
-- rank. Whatever is opened inside another has a lower rank than that, unless a
-- token was put away in between. So nothing is opened inside itself without
-- one, and what is open at a time is bounded by the tokens behind it.
import OnePass.Proofs.Descent.Grammar
import OnePass.Proofs.Promise

namespace OnePass

/-! ## Ranks -/

def Production.rank : Production → Nat
  | typeWord | function | block | loop | assignment | call | primary => 0
  | signed | declarators | names | parameter => 1
  | tier tiers => tiers.length + 1
  | statement => 2
  | parameters | declarations => 3
  | statements | program => 4
  | arguments => 11

def Repetition.rank : Repetition → Nat
  | operators | names | declared => 0
  | parameters | declarations => 2
  | statements => 3
  | arguments => 10

/-- There are so many ranks. -/
def ranks : Nat := 12

namespace Site

def rank : Site → Nat
  | call p => p.rank
  | round l _ => l.rank

/-- The number of a round. -/
def number : Site → Nat
  | call _ => 0
  | round _ k => k

end Site

theorem Repetition.rank_lt (l : Repetition) : l.rank < ranks := by
  cases l <;> decide

/-! ## Frames -/

namespace Frame

/-- The frame may stand right inside another one. -/
def Inside (f g : Frame) : Prop :=
  g.index < f.index ∨ g.index = f.index ∧ f.site.rank < g.site.rank

/-- What has started may do so inside the frames `fs`, and there were not
more rounds before it than tokens. -/
structure Fits (f : Frame) (fs : List Frame) : Prop where
  low : f.site.rank < ranks
  inside : ∀ g ∈ fs.head?, f.Inside g
  counted : f.site.number ≤ f.index + 1

/-- When the token with the index `i` is in hand, a round may be over. The
parameters of a function are declared without reading. -/
def Passed (f : Frame) (i : Nat) : Prop :=
  ∀ l k, f.site = .round l k → l ≠ .declared → f.index < i

theorem Inside.trans {f g h : Frame} (hf : f.Inside g) (hg : g.Inside h) : f.Inside h := by
  unfold Inside at *
  omega

end Frame

/-- At the index `i` there is room inside the frames for what has a rank below
`r`. -/
def Room (r i : Nat) (fs : List Frame) : Prop :=
  ∀ g ∈ fs.head?, g.index < i ∨ g.index = i ∧ r ≤ g.site.rank

section
variable {r r' i j : Nat} {fs : List Frame}

theorem Room.anti (h : Room r i fs) (hr : r' ≤ r) : Room r' i fs := by
  intro g hg
  have := h g hg
  omega

theorem Room.later (h : Room r i fs) (hij : i ≤ j) : Room r j fs := by
  intro g hg
  have := h g hg
  omega

/-- After a token was put away there is room for everything. -/
theorem Room.behind (h : Room r i fs) (hij : i < j) : Room r' j fs := by
  intro g hg
  have := h g hg
  omega

/-- Inside a frame there is room below its rank. -/
theorem room_cons (f : Frame) : Room f.site.rank f.index (f :: fs) := by
  rintro g hg
  cases hg
  exact .inr ⟨rfl, Nat.le_refl _⟩

end

/-! ## Orderly runs -/

/-- The frames in which the finish may be put away: the program is open, and
nothing in it. -/
def outermost : List Frame := [⟨.call .program, 0⟩]

namespace Descent

variable {φ α β : Type} [Feed φ]

/-- From a moment on the run is orderly: what is opened fits, every round but
those that declare has put a token away when it is over, the finish is put
away by the program itself only, and `Q` holds at the end. -/
def Orderly (Q : α → Nat → List Frame → Prop) :
    Descent α → Stand φ → Nat → List Frame → Prop
  | done a, _, i, fs => Q a i fs
  | reject _, _, _, _ => True
  | exhausted, _, _, _ => True
  | ask m go, s, i, fs =>
    (m = .advance → s.hand.kind = .finish → fs = outermost) ∧
      ∀ x t, s.perform m = .done x t → (go x).Orderly Q t (s.indexAfter m i) fs
  | opens site rest, s, i, fs =>
    Frame.Fits ⟨site, i⟩ fs ∧ rest.Orderly Q s i (⟨site, i⟩ :: fs)
  | closes rest, s, i, fs => ∃ f gs, fs = f :: gs ∧ f.Passed i ∧ rest.Orderly Q s i gs

variable {d : Descent α} {q : α → Descent β} {s : Stand φ} {i : Nat} {fs : List Frame}

theorem Orderly.bind {Q : α → Nat → List Frame → Prop} {R : β → Nat → List Frame → Prop}
    (h : d.Orderly Q s i fs)
    (hq : ∀ a t j gs, Q a j gs → (q a).Orderly R (t : Stand φ) j gs) :
    (d >>= q).Orderly R s i fs := by
  show (d.andThen q).Orderly R s i fs
  induction d generalizing s i fs with
  | done a => exact hq a s i fs h
  | reject r => trivial
  | exhausted => trivial
  | ask m go ih => exact ⟨h.1, fun x t hx => ih x (h.2 x t hx)⟩
  | opens site rest ih => exact ⟨h.1, ih h.2⟩
  | closes rest ih =>
    obtain ⟨f, gs, rfl, hf, hrest⟩ := h
    exact ⟨f, gs, rfl, hf, ih hrest⟩

theorem Orderly.mono {Q R : α → Nat → List Frame → Prop} (h : d.Orderly Q s i fs)
    (hQR : ∀ a j gs, Q a j gs → R a j gs) : d.Orderly R s i fs := by
  rw [← d.andThen_done]
  exact h.bind fun a _ j gs ha => hQR a j gs ha

/-! ## Laws -/

/-- With the token `t` in hand, the index of which is `i`, and room for what
has a rank below `r`, the descent is orderly. At its end the frames are those
from before, and `Q` holds of the index then. -/
def Descends (t : Token) (r i : Nat) (d : Descent α) (Q : α → Nat → Prop) : Prop :=
  ∀ (φ : Type) [Feed φ] (s : Stand φ) (fs : List Frame), s.hand = t → Room r i fs →
    d.Orderly (fun a j gs => gs = fs ∧ i ≤ j ∧ Q a j) s i fs

/-- It may put tokens away. -/
abbrev Goes (t : Token) (r i : Nat) (d : Descent α) : Prop := Descends t r i d fun _ _ => True

/-- It puts a token away. -/
abbrev Reads (t : Token) (r i : Nat) (d : Descent α) : Prop := Descends t r i d fun _ j => i < j

variable {t : Token} {r r' i : Nat} {Q R : α → Nat → Prop}

theorem Descends.imp (h : Descends t r i d Q) (hr : r ≤ r')
    (hQR : ∀ a j, i ≤ j → Q a j → R a j) : Descends t r' i d R := by
  intro φ _ s fs ht hroom
  refine (h φ s fs ht (hroom.anti hr)).mono ?_
  rintro a j gs ⟨hgs, hij, ha⟩
  exact ⟨hgs, hij, hQR a j hij ha⟩

theorem Descends.raise (h : Descends t r i d Q) (hr : r ≤ r') : Descends t r' i d Q :=
  h.imp hr fun _ _ _ ha => ha

theorem Goes.raise (h : Goes t r i d) (hr : r ≤ r') : Goes t r' i d := Descends.raise h hr

theorem Reads.raise (h : Reads t r i d) (hr : r ≤ r') : Reads t r' i d := Descends.raise h hr

theorem Reads.goes (h : Reads t r i d) : Goes t r i d :=
  h.imp (Nat.le_refl r) fun _ _ _ _ => trivial

theorem descends_done {a : α} (h : Q a i) : Descends t r i (done a) Q :=
  fun _ _ _ _ _ _ => ⟨rfl, Nat.le_refl i, h⟩

theorem goes_pure (a : α) : Goes t r i (pure a : Descent α) := descends_done trivial

theorem descends_exhausted : Descends t r i (exhausted : Descent α) Q :=
  fun _ _ _ _ _ _ => trivial

/-- Two descents in a row. -/
theorem Descends.bind {R : β → Nat → Prop} (h : Descends t r i d Q)
    (hq : ∀ a j u, i ≤ j → Q a j → Descends u r j (q a) R) : Descends t r i (d >>= q) R := by
  intro φ _ s fs ht hroom
  refine (h φ s fs ht hroom).bind ?_
  rintro a s' j gs ⟨rfl, hij, ha⟩
  refine (hq a j s'.hand hij ha φ s' gs rfl (hroom.later hij)).mono ?_
  rintro b k gs' ⟨hgs, hjk, hb⟩
  exact ⟨hgs, Nat.le_trans hij hjk, hb⟩

/-- After a token was put away there is room for everything. -/
theorem Reads.before {R : β → Nat → Prop} (h : Reads t r i d)
    (hq : ∀ a j u, i < j → Descends u ranks j (q a) R) : Descends t r i (d >>= q) R := by
  intro φ _ s fs ht hroom
  refine (h φ s fs ht hroom).bind ?_
  rintro a s' j gs ⟨rfl, -, hij⟩
  refine (hq a j s'.hand hij φ s' gs rfl (hroom.behind hij)).mono ?_
  rintro b k gs' ⟨hgs, hjk, hb⟩
  exact ⟨hgs, by omega, hb⟩

theorem Goes.bind (h : Goes t r i d) (hq : ∀ a j u, Goes u r j (q a)) : Goes t r i (d >>= q) :=
  Descends.bind h fun a j u _ _ => hq a j u

/-- What reads first, reads. -/
theorem Reads.bind (h : Reads t r i d) (hq : ∀ a j u, Goes u ranks j (q a)) :
    Reads t r i (d >>= q) := by
  refine h.before fun a j u hij => ?_
  exact (hq a j u).imp (Nat.le_refl _) fun _ k hjk _ => Nat.lt_of_lt_of_le hij hjk

end Descent

end OnePass
