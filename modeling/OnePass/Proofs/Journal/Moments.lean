-- How often each token of a program is read. A pass looks ahead where a
-- statement starts with a name, and nowhere else, so the token behind such a
-- name is read twice. Where a statement starts can be told from the token
-- before it.
import OnePass.Proofs.Grammar.Tree

namespace OnePass

/-! ## Tokens before a statement -/

/-- A statement may start right behind the token. -/
def Kind.precedesStatement : Kind → Bool
  | leftBrace | rightBrace | semicolon | rightParen => true
  | _ => false

/-- The token says nothing of what comes behind it. -/
def Kind.isPlain (k : Kind) : Bool := !k.precedesStatement && !k.isName

namespace Kind

variable {k : Kind}

theorem precedesStatement_of_isName (h : k.isName = true) : k.precedesStatement = false := by
  cases k <;> first | rfl | cases h

theorem isPlain_of_isSign (h : k.isSign = true) : k.isPlain = true := by
  cases k <;> first | rfl | cases h

theorem isPlain_of_isOperatorOf {tier : List Operator} (h : k.isOperatorOf tier = true) :
    k.isPlain = true := by
  cases k <;> first | rfl | cases h

theorem isPlain_of_constantType? (h : k.constantType?.isSome = true) : k.isPlain = true := by
  cases k <;> first | rfl | cases h

theorem isPlain_of_isTypeWord (h : k.isTypeWord = true) : k.isPlain = true := by
  cases k <;> first | rfl | cases h

end Kind

/-! ## Moments -/

/-- Where a pass is among the tokens. -/
inductive Moment where
  /-- A name that comes now leads a statement. -/
  | fresh
  /-- Right behind a name that leads a statement. -/
  | led
  | inside
deriving DecidableEq

namespace Moment

/-- The moment behind a token. -/
def next (m : Moment) (k : Kind) : Moment :=
  if k.precedesStatement then fresh else if m = fresh ∧ k.isName = true then led else inside

/-- How often the token that comes now is read. -/
def times : Moment → Nat
  | led => 2
  | _ => 1

/-- The moment behind some tokens. -/
def after (m : Moment) : List Token → Moment
  | [] => m
  | t :: ts => (m.next t.kind).after ts

/-- How often each of the tokens is read. -/
def counts (m : Moment) : List Token → List Nat
  | [] => []
  | t :: ts => m.times :: (m.next t.kind).counts ts

variable {m : Moment} {k : Kind}

theorem inside_ne_led : inside ≠ led := nofun

theorem fresh_ne_led : fresh ≠ led := nofun

theorem times_eq_one (h : m ≠ led) : m.times = 1 := by
  cases m <;> first | rfl | exact absurd rfl h

theorem next_eq_fresh (h : k.precedesStatement = true) (m : Moment) : m.next k = fresh := if_pos h

theorem next_eq_inside (h : k.isPlain = true) (m : Moment) : m.next k = inside := by
  simp only [Kind.isPlain, Bool.and_eq_true, Bool.not_eq_true'] at h
  simp [next, h]

/-- A name leads a statement only where one may start. -/
theorem next_of_isName (h : k.isName = true) : m.next k = if m = fresh then led else inside := by
  simp [next, Kind.precedesStatement_of_isName h, h]

theorem after_append (m : Moment) (ts us : List Token) :
    m.after (ts ++ us) = (m.after ts).after us := by
  induction ts generalizing m with
  | nil => rfl
  | cons t ts ih => exact ih _

theorem counts_append (m : Moment) (ts us : List Token) :
    m.counts (ts ++ us) = m.counts ts ++ (m.after ts).counts us := by
  induction ts generalizing m with
  | nil => rfl
  | cons t ts ih => exact congrArg (List.cons _) (ih _)

theorem length_counts (m : Moment) (ts : List Token) : (m.counts ts).length = ts.length := by
  induction ts generalizing m with
  | nil => rfl
  | cons t ts ih => exact congrArg (· + 1) (ih _)

end Moment

/-! ## Readings -/

/-- The tokens one after another, each as often as it is read. The finish is
left out. -/
def readings (ts : List Token) (ns : List Nat) : List Token :=
  (ts.zip ns).flatMap fun x => if x.1.kind = .finish then [] else List.replicate x.2 x.1

theorem readings_append {ts us : List Token} {ns ks : List Nat} (h : ts.length = ns.length) :
    readings (ts ++ us) (ns ++ ks) = readings ts ns ++ readings us ks := by
  rw [readings, List.zip_append h, List.flatMap_append]
  rfl

namespace Moment

/-- What is read of some tokens, from a moment on. -/
def readings (m : Moment) (ts : List Token) : List Token := OnePass.readings ts (m.counts ts)

theorem readings_append (m : Moment) (ts us : List Token) :
    m.readings (ts ++ us) = m.readings ts ++ (m.after ts).readings us := by
  rw [readings, counts_append, OnePass.readings_append (m.length_counts ts).symm]
  rfl

theorem readings_singleton (m : Moment) (t : Token) :
    m.readings [t] = if t.kind = .finish then [] else List.replicate m.times t :=
  List.append_nil _

/-- How often a token is read is settled before it comes. -/
theorem readings_of_counts (m : Moment) (ts : List Token) (t u : Token) (us : List Token) :
    OnePass.readings (ts ++ [t]) (m.counts (ts ++ u :: us)) = m.readings (ts ++ [t]) := by
  rw [readings_append, counts_append, OnePass.readings_append (m.length_counts ts).symm]
  rfl

end Moment

/-! ## Trees -/

namespace Grammar

/-- Each of the tokens is read once. -/
def once (ts : List Token) : List Nat := ts.map fun _ => 1

mutual

/-- How often each token of a statement is read. -/
def Statement.times : Statement → List Nat
  | .assign _ _ e _ => 1 :: 2 :: (once e.spelling ++ [1])
  | .call _ _ args _ _ => 1 :: 2 :: (once (spellArguments args) ++ [1, 1])
  | .block _ body _ => 1 :: (timesOfBody body ++ [1])
  | .loop _ _ e _ body => 1 :: 1 :: (once e.spelling ++ 1 :: body.times)
  | .declare x => once x.spelling
  | .empty _ => [1]

def timesOfBody : List Statement → List Nat
  | [] => []
  | x :: xs => x.times ++ timesOfBody xs

end

def Function.times (x : Function) : List Nat :=
  1 :: 1 :: 1 :: (once (spellParameters x.parameters) ++ 1 :: 1 :: (timesOfBody x.body ++ [1]))

def Declaration.times : Declaration → List Nat
  | .globals x => once x.spelling
  | .function x => x.times

/-- How often each token of a program is read. -/
def Program.times (x : Program) : List Nat := x.declarations.flatMap Declaration.times ++ [1]

example (f : Name) (l : Of .leftParen) (r : Of .rightParen) (stop : Of .semicolon) :
    (Statement.call f l none r stop).times = [1, 2, 1, 1] := rfl

/-! ## Trees and moments -/

/-- From the moment `m` on the tokens are read so often, and `Q` holds of the
moment behind them. -/
def Counts (m : Moment) (ts : List Token) (ns : List Nat) (Q : Moment → Prop) : Prop :=
  m.counts ts = ns ∧ Q (m.after ts)

namespace Counts

variable {m : Moment} {t : Token} {ts us : List Token} {n : Nat} {ns ks : List Nat}
  {Q R : Moment → Prop}

theorem nil (h : Q m) : Counts m [] [] Q := ⟨rfl, h⟩

theorem cons (hm : m.times = n) (h : Counts (m.next t.kind) ts ns Q) :
    Counts m (t :: ts) (n :: ns) Q :=
  ⟨by rw [Moment.counts, hm, h.1], h.2⟩

theorem append (h : Counts m ts ns Q) (h' : ∀ m', Q m' → Counts m' us ks R) :
    Counts m (ts ++ us) (ns ++ ks) R := by
  obtain ⟨hcounts, hq⟩ := h
  obtain ⟨hcounts', hr⟩ := h' _ hq
  refine ⟨?_, ?_⟩
  · rw [Moment.counts_append, hcounts, hcounts']
  · rwa [Moment.after_append]

end Counts

variable {m : Moment}

theorem once_append (ts us : List Token) : once (ts ++ us) = once ts ++ once us :=
  List.map_append

/-- Where no name can lead a statement, the tokens are read once, and no name
leads one behind them. -/
def Inside (ts : List Token) : Prop := Counts .inside ts (once ts) (· ≠ .led)

theorem counts_of_plain {t : Token} {ts : List Token} {ns : List Nat} {Q : Moment → Prop}
    (hm : m ≠ .led) (ht : t.kind.isPlain = true) (h : Counts .inside ts ns Q) :
    Counts m (t :: ts) (1 :: ns) Q := by
  apply Counts.cons (Moment.times_eq_one hm)
  rwa [Moment.next_eq_inside ht]

theorem counts_of_precedes {t : Token} {ts : List Token} {ns : List Nat} {Q : Moment → Prop}
    (hm : m ≠ .led) (ht : t.kind.precedesStatement = true) (h : Counts .fresh ts ns Q) :
    Counts m (t :: ts) (1 :: ns) Q := by
  apply Counts.cons (Moment.times_eq_one hm)
  rwa [Moment.next_eq_fresh ht]

theorem counts_of_name (x : Name) {ts : List Token} {ns : List Nat} {Q : Moment → Prop}
    (h : Counts .inside ts ns Q) : Counts .inside (x.1 :: ts) (1 :: ns) Q := by
  apply Counts.cons rfl
  rwa [Moment.next_of_isName x.2]

theorem Of.isPlain {k : Kind} (x : Of k) (h : k.isPlain = true) : x.1.kind.isPlain = true := by
  rw [x.2]
  exact h

theorem Of.precedesStatement {k : Kind} (x : Of k) (h : k.precedesStatement = true) :
    x.1.kind.precedesStatement = true := by
  rw [x.2]
  exact h

mutual

theorem Primary.inside : ∀ x : Primary, Inside x.spelling
  | .name t => by
    rw [Primary.spelling]
    exact counts_of_name t (.nil nofun)
  | .constant t => by
    rw [Primary.spelling]
    exact counts_of_plain nofun (Kind.isPlain_of_constantType? t.2) (.nil nofun)
  | .group l x r => by
    rw [Primary.spelling, Inside]
    apply counts_of_plain Moment.inside_ne_led (l.isPlain rfl)
    rw [List.map_append]
    exact x.inside.append fun m hm => counts_of_precedes hm (r.precedesStatement rfl) (.nil nofun)

theorem Tiered.inside : ∀ {tiers : List (List Operator)} (x : Tiered tiers), Inside x.spelling
  | _, .plain x => by
    rw [Tiered.spelling]
    exact x.inside
  | _, .signed s x => by
    rw [Tiered.spelling]
    exact counts_of_plain nofun (Kind.isPlain_of_isSign s.2) x.inside
  | _, .lift x => by
    rw [Tiered.spelling]
    exact x.inside
  | _, .join l op r => by
    rw [Tiered.spelling, Inside, once_append]
    exact l.inside.append fun m hm => counts_of_plain hm (Kind.isPlain_of_isOperatorOf op.2) r.inside

end

theorem Commas.inside {α : Type} {spell : α → List Token} (h : ∀ x, Inside (spell x))
    (xs : Commas α) : Inside (xs.spelling spell) := by
  obtain ⟨first, others⟩ := xs
  rw [Commas.spelling, Inside, once_append]
  refine (h first).append ?_
  induction others with
  | nil => exact fun m hm => .nil hm
  | cons x others ih =>
    intro m hm
    rw [List.flatMap_cons, once_append]
    exact (counts_of_plain hm (x.1.isPlain rfl) (h x.2)).append ih

theorem Item.inside (x : Item) : Inside x.spelling := by
  cases x with
  | bare t => exact counts_of_name t (.nil nofun)
  | valued t s e => exact counts_of_name t (counts_of_plain nofun (s.isPlain rfl) e.inside)

theorem ParameterItem.inside (x : ParameterItem) : Inside x.spelling := by
  have hname : x.name.1.kind.isName = true := by
    rw [x.name.2]
    rfl
  exact counts_of_plain nofun (Kind.isPlain_of_isTypeWord x.word.2)
    (counts_of_name ⟨x.name.1, hname⟩ (.nil nofun))

theorem inside_spellArguments (args : Option (Commas Expression)) :
    Inside (spellArguments args) := by
  cases args with
  | none => exact .nil nofun
  | some xs => exact xs.inside Tiered.inside

theorem inside_spellParameters (ps : Option (Commas ParameterItem)) :
    Inside (spellParameters ps) := by
  cases ps with
  | none => exact .nil nofun
  | some xs => exact xs.inside ParameterItem.inside

theorem Variables.counts (x : Variables) (hm : m ≠ .led) :
    Counts m x.spelling (once x.spelling) (· = .fresh) := by
  rw [Variables.spelling]
  apply counts_of_plain hm (Kind.isPlain_of_isTypeWord x.word.2)
  rw [List.map_append]
  exact (x.items.inside Item.inside).append fun m hm =>
    counts_of_precedes hm (x.stop.precedesStatement rfl) (.nil rfl)

/-- The token behind the name that leads a statement. -/
theorem counts_of_leading (x : Name) {t : Token} {ts : List Token} {ns : List Nat}
    {Q : Moment → Prop} (ht : t.kind.isPlain = true) (h : Counts .inside ts ns Q) :
    Counts .fresh (x.1 :: t :: ts) (1 :: 2 :: ns) Q := by
  apply Counts.cons rfl
  rw [Moment.next_of_isName x.2, if_pos rfl]
  apply Counts.cons rfl
  rwa [Moment.next_eq_inside ht]

mutual

theorem Statement.counts : ∀ x : Statement, Counts .fresh x.spelling x.times (· = .fresh)
  | .assign t s e stop => by
    rw [Statement.spelling, Statement.times]
    apply counts_of_leading t (s.isPlain rfl)
    exact e.inside.append fun m hm =>
      counts_of_precedes hm (stop.precedesStatement rfl) (.nil rfl)
  | .call t l args r stop => by
    rw [Statement.spelling, Statement.times]
    apply counts_of_leading t (l.isPlain rfl)
    exact (inside_spellArguments args).append fun m hm =>
      counts_of_precedes hm (r.precedesStatement rfl)
        (counts_of_precedes nofun (stop.precedesStatement rfl) (.nil rfl))
  | .block l body r => by
    rw [Statement.spelling, Statement.times]
    apply counts_of_precedes Moment.fresh_ne_led (l.precedesStatement rfl)
    refine (counts_spellBody body).append ?_
    rintro _ rfl
    exact counts_of_precedes nofun (r.precedesStatement rfl) (.nil rfl)
  | .loop w l e r body => by
    rw [Statement.spelling, Statement.times]
    apply counts_of_plain Moment.fresh_ne_led (w.isPlain rfl)
    apply counts_of_plain Moment.inside_ne_led (l.isPlain rfl)
    exact e.inside.append fun m hm =>
      counts_of_precedes hm (r.precedesStatement rfl) body.counts
  | .declare x => by
    rw [Statement.spelling, Statement.times]
    exact x.counts nofun
  | .empty stop => by
    rw [Statement.spelling, Statement.times]
    exact counts_of_precedes nofun (stop.precedesStatement rfl) (.nil rfl)

theorem counts_spellBody : ∀ xs : List Statement,
    Counts .fresh (spellBody xs) (timesOfBody xs) (· = .fresh)
  | [] => by
    rw [spellBody, timesOfBody]
    exact .nil rfl
  | x :: xs => by
    rw [spellBody, timesOfBody]
    refine x.counts.append ?_
    rintro _ rfl
    exact counts_spellBody xs

end

theorem Function.counts (x : Function) (hm : m ≠ .led) :
    Counts m x.spelling x.times (· = .fresh) := by
  rw [Function.spelling, Function.times]
  apply counts_of_plain hm (x.word.isPlain rfl)
  apply counts_of_name
  apply counts_of_plain Moment.inside_ne_led (x.left.isPlain rfl)
  refine (inside_spellParameters x.parameters).append fun m hm => ?_
  apply counts_of_precedes hm (x.right.precedesStatement rfl)
  apply counts_of_precedes Moment.fresh_ne_led (x.opening.precedesStatement rfl)
  refine (counts_spellBody x.body).append ?_
  rintro _ rfl
  exact counts_of_precedes nofun (x.closing.precedesStatement rfl) (.nil rfl)

theorem Declaration.counts (x : Declaration) (hm : m ≠ .led) :
    Counts m x.spelling x.times (· = .fresh) := by
  cases x with
  | globals x => exact x.counts hm
  | function x => exact x.counts hm

theorem counts_declarations (xs : List Declaration) (hm : m ≠ .led) :
    Counts m (xs.flatMap Declaration.spelling) (xs.flatMap Declaration.times) (· ≠ .led) := by
  induction xs generalizing m with
  | nil => exact .nil hm
  | cons x xs ih =>
    refine (x.counts hm).append ?_
    rintro _ rfl
    exact ih nofun

/-- The tree of a program tells how often each token is read. -/
theorem Program.times_eq (x : Program) : x.times = Moment.inside.counts x.spelling := by
  have h : Counts .inside x.spelling x.times fun _ => True := by
    refine (counts_declarations x.declarations Moment.inside_ne_led).append fun m hm => ?_
    exact .cons (Moment.times_eq_one hm) (.nil trivial)
  exact h.1.symm

end Grammar

end OnePass
