-- Every value of a program is a number: only numbers are declared, and an
-- operator makes a number of numbers. So there are ways in which no pass is
-- ever turned down. Here they are told apart from the others, and each step
-- of a pass is seen to keep to the others.
import OnePass.Pass.Marks
import OnePass.Proofs.Promise

namespace OnePass

variable {α β : Type}

/-! ## Scopes of numbers -/

namespace Scopes

/-- Every variable and every parameter holds a number. -/
def Numeric (s : Scopes) : Prop :=
  ∀ x ∈ s.symbols, x.2.role.isFunction = false → x.2.type.isNumber = true

variable {s t : Scopes} {x : Symbol}

theorem numeric_empty : empty.Numeric := by
  intro x hx
  cases hx

theorem Numeric.of_symbols (h : s.Numeric) (hst : t.symbols = s.symbols) : t.Numeric := by
  unfold Numeric
  rwa [hst]

theorem Numeric.enter (h : s.Numeric) : s.enter.Numeric := h.of_symbols s.symbols_enter

theorem Numeric.leave (h : s.Numeric) (ht : s.leave? = some t) : t.Numeric := by
  apply h.of_symbols
  unfold symbols
  rw [births_leave? ht]

theorem Numeric.declare (h : s.Numeric)
    (hx : x.role.isFunction = false → x.type.isNumber = true) (ht : s.declare? x = some t) :
    t.Numeric := by
  intro y hy
  rw [symbols_declare? ht, List.mem_append, List.mem_singleton] at hy
  rcases hy with hy | rfl
  · exact h y hy
  · exact hx

theorem Numeric.lookup (h : s.Numeric) {name : String} (hx : s.lookup name = some x)
    (hf : x.role.isFunction = false) : x.type.isNumber = true := by
  obtain ⟨id, -, hid⟩ := Option.bind_eq_some_iff.1 hx
  obtain ⟨y, hy, rfl⟩ := Option.map_eq_some_iff.1 hid
  exact h y (List.mem_of_getElem? hy) hf

end Scopes

/-! ## What can be wrong -/

/-- The expectation can be disappointed. The others are asked for where the
token is known from a look at it. -/
def Expectation.isOpen : Expectation → Bool
  | functionStart | blockOpen | loopStart | target | callee | argumentsOpen => false
  | _ => true

/-- A program of numbers can make no sense in this way, at the token `t`. -/
def Violation.Arises (t : Token) : Violation → Prop
  | unfitOperands spelling left right =>
    spelling = t.text ∧ (left = .double ∨ right = .double) ∧
      ∃ o ∈ [Operator.remainder, .bitOr, .bitXor, .bitAnd, .shiftLeft, .shiftRight],
        t.kind = .operator o
  | unfitValue value target => target.type = .char ∧ value ≠ .char
  | unfitSign .. | voidCondition => False
  | _ => True

/-- A program of numbers can be turned down like this. -/
def Rejection.Arises (r : Rejection) : Prop :=
  match r.cause with
  | .spelling _ => True
  | .grammar e => e.isOpen = true
  | .meaning v => v.Arises r.token

/-! ## Checks -/

theorem checkSign_of_isNumber (op : Token) {t : ValueType} (h : t.isNumber = true) :
    checkSign op t = .ok t := if_pos h

theorem isNumber_of_checkOperands {op : Token} {l r t : ValueType}
    (h : checkOperands l op r = .ok t) : t.isNumber = true := by
  unfold checkOperands at h
  cases hk : op.kind with
  | operator o =>
    simp only [hk] at h
    cases ho : o.result? l r with
    | some u =>
      rw [ho] at h
      cases h
      exact Operator.isNumber_of_result? ho
    | none =>
      rw [ho] at h
      cases h
  | _ =>
    rw [hk] at h
    cases h

theorem arises_of_checkOperands {op : Token} {o : Operator} {l r : ValueType} {v : Violation}
    (ho : op.kind = .operator o) (hl : l.isNumber = true) (hr : r.isNumber = true)
    (h : checkOperands l op r = .error v) : v.Arises op := by
  unfold checkOperands at h
  simp only [ho] at h
  cases hres : o.result? l r with
  | some u =>
    rw [hres] at h
    cases h
  | none =>
    rw [hres] at h
    cases h
    obtain ⟨hd, hm⟩ := Operator.double_of_result?_none hl hr hres
    exact ⟨rfl, hd, o, hm, ho⟩

theorem arises_of_checkAssignment {t : Token} {target : Symbol} {value : ValueType}
    {v : Violation} (ht : target.role.isFunction = false → target.type.isNumber = true)
    (hv : value.isNumber = true) (h : checkAssignment target value = .error v) :
    v.Arises t := by
  unfold checkAssignment at h
  split at h
  · cases h
    trivial
  · rename_i hf
    split at h
    · cases h
    · rename_i hfit
      cases h
      exact (ValueType.fits_iff (ht (Bool.eq_false_iff.2 hf)) hv).1 (Bool.eq_false_iff.2 hfit)

theorem checkCondition_of_isNumber {value : ValueType} (h : value.isNumber = true) :
    checkCondition value = .ok () := by
  unfold checkCondition
  rw [if_neg]
  rintro rfl
  cases h

theorem arises_of_checkArgument {t : Token} {f : Symbol} {i : Nat} {value : ValueType}
    {v : Violation} (h : checkArgument f i value = .error v) : v.Arises t := by
  unfold checkArgument at h
  dsimp only at h
  split at h
  · cases h
    trivial
  · split at h
    · cases h
    · cases h
      trivial

theorem arises_of_checkCount {t : Token} {f : Symbol} {n : Nat} {v : Violation}
    (h : checkCount f n = .error v) : v.Arises t := by
  unfold checkCount at h
  split at h
  · cases h
  · cases h
    trivial

/-! ## Steps -/

/-- All scopes are numeric on the way, and a rejection is one that can
arise. -/
def keepingNumbers {φ : Type} : Promise φ where
  stand s := s.scopes.Numeric
  rejection r s := s.scopes.Numeric ∧ r.Arises

/-- A token may be turned down for its spelling. -/
theorem keepingNumbers_settle {φ : Type} {s : Stand φ} (hs : s.scopes.Numeric) :
    s.settle.Keeps keepingNumbers fun _ t => t = s := by
  unfold Stand.settle
  split
  · exact ⟨hs, trivial⟩
  · exact rfl

namespace Pass

/-- Among numbers the pass keeps to numbers, and `A` holds of its result. -/
def Numeric (p : Pass α) (A : α → Prop) : Prop :=
  ∀ (φ : Type) [Feed φ] (s : Stand φ), s.scopes.Numeric →
    p.Keeps keepingNumbers s fun a _ => A a

variable {A : α → Prop} {B : β → Prop} {p : Pass α} {q : α → Pass β}

theorem Numeric.bind (h : p.Numeric A) (hq : ∀ a, A a → (q a).Numeric B) :
    (p >>= q).Numeric B := by
  intro φ _ s hs
  apply (h φ s hs).bind
  intro a t ht ha
  exact hq a ha φ t ht

/-- After the first pass its stand no longer matters. -/
theorem Keeps.numeric_bind {φ : Type} [Feed φ] {s : Stand φ} {Q : α → Stand φ → Prop}
    (h : p.Keeps keepingNumbers s Q) (hq : ∀ a, (q a).Numeric B) :
    (p >>= q).Keeps keepingNumbers s fun b _ => B b :=
  h.bind fun a t ht _ => hq a φ t ht

theorem numeric_pure {a : α} (h : A a) : (pure a : Pass α).Numeric A := by
  intro φ _ s hs
  exact ⟨hs, h⟩

theorem numeric_exhausted : (exhausted : Pass α).Numeric A := by
  intro φ _ s hs
  exact hs

theorem numeric_refuse {v : Violation} {t : Token} (h : v.Arises t) :
    (refuse v t : Pass α).Numeric A := by
  intro φ _ s hs
  exact ⟨hs, hs, h⟩

theorem numeric_demand {check : Except Violation α} {t : Token}
    (hok : ∀ a, check = .ok a → A a) (herror : ∀ v, check = .error v → v.Arises t) :
    (demand check t).Numeric A := by
  cases check with
  | ok a => exact numeric_pure (hok a rfl)
  | error v => exact numeric_refuse (herror v rfl)

theorem numeric_hand : hand.Numeric fun _ => True := by
  intro φ _ s hs
  exact ⟨hs, hs, trivial⟩

theorem numeric_enter : enter.Numeric fun _ => True := by
  intro φ _ s hs
  exact ⟨hs, hs.enter, trivial⟩

theorem numeric_leave : leave.Numeric fun _ => True := by
  intro φ _ s hs
  refine ⟨hs, ?_, trivial⟩
  show s.leave.scopes.Numeric
  unfold Stand.leave
  split
  · exact hs.leave ‹_›
  · exact hs

theorem numeric_headed (name : String) (n : Nat) : (headed name n).Numeric fun _ => True := by
  intro φ _ s hs
  exact ⟨hs, hs, trivial⟩

/-- What a name means is a function or holds a number. -/
theorem numeric_lookup (name : String) :
    (lookup name).Numeric fun x? =>
      ∀ x, x? = some x → x.role.isFunction = false → x.type.isNumber = true := by
  intro φ _ s hs
  exact ⟨hs, hs, fun x hx hf => hs.lookup hx hf⟩

theorem numeric_declare {x : Symbol} (t : Token)
    (hx : x.role.isFunction = false → x.type.isNumber = true) :
    (declare x t).Numeric fun _ => True := by
  intro φ _ s hs
  refine ⟨hs, ?_⟩
  show (s.declare x).Keeps _ _
  unfold Stand.declare
  split
  · have ht := hs.declare hx ‹_›
    exact ⟨ht, trivial⟩
  · exact ⟨hs, hs, trivial⟩

section
variable {φ : Type} [Feed φ] {s : Stand φ}

/-- The token that comes into hand is the next one. -/
theorem keeps_advance (hs : s.scopes.Numeric) :
    advance.Keeps keepingNumbers s
      fun _ t => t.hand.kind = (Feed.next s.feed).1.kind := by
  have hpull : s.pull.scopes.Numeric := by rwa [Stand.scopes_pull]
  refine ⟨hs, hs, (keepingNumbers_settle hpull).mono ?_⟩
  rintro _ _ rfl
  exact ⟨hpull, congrArg Token.kind s.hand_pull⟩

theorem keeps_unexpected {e : Expectation} {Q : α → Stand φ → Prop} (hs : s.scopes.Numeric)
    (h : e.isOpen = true) : (unexpected e : Pass α).Keeps keepingNumbers s Q :=
  ⟨hs, hs, hs, h⟩

theorem keeps_expect {k : Kind} {e : Expectation} (hs : s.scopes.Numeric)
    (h : s.hand.kind = k ∨ e.isOpen = true) :
    (expect k e).Keeps keepingNumbers s
      fun _ t => t.hand.kind = (Feed.next s.feed).1.kind := by
  refine ⟨hs, ?_⟩
  show (if s.hand.kind = k then advance else unexpected e).Keeps _ _ _
  split
  · exact keeps_advance hs
  · exact keeps_unexpected hs (h.resolve_left ‹_›)

theorem keeps_expectName {e : Expectation} (hs : s.scopes.Numeric)
    (h : s.hand.kind.isName = true ∨ e.isOpen = true) :
    (expectName e).Keeps keepingNumbers s
      fun _ t => t.hand.kind = (Feed.next s.feed).1.kind := by
  refine ⟨hs, ?_⟩
  show (if s.hand.kind.isName then advance else unexpected e).Keeps _ _ _
  split
  · exact keeps_advance hs
  · exact keeps_unexpected hs (h.resolve_left ‹_›)

theorem keeps_lookup (name : String) (hs : s.scopes.Numeric) :
    (lookup name).Keeps keepingNumbers s fun _ t => t = s :=
  ⟨hs, hs, rfl⟩

/-- A look ahead tells what the next token is, and changes nothing. -/
theorem keeps_peek (hs : s.scopes.Numeric) :
    peek.Keeps keepingNumbers s fun k t =>
      k = (Feed.next t.feed).1.kind ∧ t.hand.kind = s.hand.kind := by
  refine ⟨hs, ?_⟩
  show s.peek.Keeps _ _
  unfold Stand.peek
  simp only [Feed.peek_eq]
  refine ⟨?_, ?_, ?_⟩
  · show (Stand.noteRead s _).scopes.Numeric
    rwa [Stand.scopes_noteRead]
  · show _ = (Feed.next (Stand.noteRead s _).feed).1.kind
    rw [Stand.feed_noteRead]
  · show (Stand.noteRead s _).hand.kind = _
    rw [Stand.hand_noteRead]

end

theorem numeric_unexpected {e : Expectation} (h : e.isOpen = true) :
    (unexpected e : Pass α).Numeric A := by
  intro φ _ s hs
  exact keeps_unexpected hs h

theorem numeric_advance : advance.Numeric fun _ => True := by
  intro φ _ s hs
  apply (keeps_advance hs).mono
  intros
  trivial

theorem numeric_expect (k : Kind) {e : Expectation} (h : e.isOpen = true) :
    (expect k e).Numeric fun _ => True := by
  intro φ _ s hs
  apply (keeps_expect hs (Or.inr h)).mono
  intros
  trivial

/-- The last token of a construct. -/
theorem numeric_last (k : Kind) {e : Expectation} (h : e.isOpen = true) :
    (expect k e >>= fun _ => pure () : Pass Unit).Numeric fun _ => True :=
  (numeric_expect k h).bind fun _ _ => numeric_pure trivial

theorem numeric_expectName {e : Expectation} (h : e.isOpen = true) :
    (expectName e).Numeric fun _ => True := by
  intro φ _ s hs
  apply (keeps_expectName hs (Or.inr h)).mono
  intros
  trivial

theorem numeric_accept (k : Kind) : (accept k).Numeric fun _ => True := by
  apply numeric_hand.bind
  intro t _
  split
  · apply numeric_advance.bind
    intro _ _
    exact numeric_pure trivial
  · exact numeric_pure trivial

/-! ## Repetitions -/

theorem numeric_repeatWhile (l : Repetition) (opens : Kind → Bool) {body : Pass Unit}
    (h : body.Numeric fun _ => True) :
    ∀ n k, Numeric (Parse.repeatWhile l opens body k n) fun _ => True
  | 0, _ => numeric_exhausted
  | n + 1, k => by
    apply numeric_hand.bind
    intro t _
    split
    · apply h.bind
      intro _ _
      exact numeric_repeatWhile l opens h n (k + 1)
    · exact numeric_pure trivial

theorem numeric_separated {l : Repetition} {item : Nat → Pass α}
    (h : ∀ i, (item i).Numeric A) :
    ∀ n i, Numeric (Parse.separated l item i n) fun as => ∀ a ∈ as, A a
  | 0, _ => numeric_exhausted
  | n + 1, i => by
    rw [separated_succ]
    apply (h i).bind
    intro a ha
    apply (numeric_accept .comma).bind
    intro more _
    cases more with
    | true =>
      apply (numeric_separated h n (i + 1)).bind
      intro as has
      exact numeric_pure (List.forall_mem_cons.2 ⟨ha, has⟩)
    | false => exact numeric_pure (List.forall_mem_singleton.2 ha)

end Pass

end OnePass
