-- Terms: what an expression says, with no parentheses in it. A term has a
-- type that is found from below, and it can be written in many ways; they
-- are told here by a rank for each operator, and not by the grammar. But
-- each of them is what one tree of the grammar spells.
import OnePass.Proofs.Grammar.Faults
import OnePass.Proofs.Grammar.Unambiguous
import OnePass.Proofs.Layout

namespace OnePass

/-! ## Terms -/

/-- How tightly an operator binds. -/
def Operator.rank : Operator → Nat
  | bitOr => 0
  | bitXor => 1
  | bitAnd => 2
  | equal | notEqual => 3
  | less | lessEqual | greater | greaterEqual => 4
  | shiftLeft | shiftRight => 5
  | plus | minus => 6
  | times | divide | remainder => 7

namespace Grammar

/-- An expression as it is meant. Every node has the token that stands for
it, but for a pair of parentheses there is no node. -/
inductive Term where
  | name (t : Name)
  | constant (t : Constant)
  | signed (sign : Sign) (x : Term)
  | joined (left : Term) (o : Operator) (op : Of (.operator o)) (right : Term)

namespace Term

/-- The type of a term, or the first node that has none: the left operand
comes before the right one, and the operator after both. -/
def type (scopes : Scopes) : Term → Except (Violation × Token) ValueType
  | name t =>
    match scopes.lookup t.1.text with
    | none => .error (.unknownOperand t.1.text, t.1)
    | some x =>
      if x.role.isFunction then .error (.functionOperand x.name, t.1) else .ok x.type
  | constant t => .ok (t.1.kind.constantType?.get t.2)
  | signed sign x => do
    let a ← x.type scopes
    if a.isNumber then .ok a else .error (.unfitSign sign.1.text a, sign.1)
  | joined l o op r => do
    let a ← l.type scopes
    let b ← r.type scopes
    match o.result? a b with
    | some c => .ok c
    | none => .error (.unfitOperands op.1.text a b, op.1)

/-- A way to write a term down with the tokens, where operators from the rank
`n` on may stand bare: `8` is for a sign, and behind a sign or from `9` on
there is nothing but names, constants and parentheses. Whatever needs no
parentheses may have them all the same. -/
inductive Writing : Nat → Term → List Token → Type
  | name (n : Nat) (t : Name) : Writing n (.name t) [t.1]
  | constant (n : Nat) (t : Constant) : Writing n (.constant t) [t.1]
  | signed {n : Nat} (h : n ≤ 8) (sign : Sign) {x : Term} {ts : List Token}
    (inside : Writing 9 x ts) : Writing n (.signed sign x) (sign.1 :: ts)
  | joined {n : Nat} {o : Operator} (h : n ≤ o.rank) (op : Of (.operator o)) {l r : Term}
    {ts us : List Token} (left : Writing o.rank l ts) (right : Writing (o.rank + 1) r us) :
    Writing n (.joined l o op r) (ts ++ op.1 :: us)
  | parentheses (n : Nat) (left : Of .leftParen) {x : Term} {ts : List Token}
    (inside : Writing 0 x ts) (right : Of .rightParen) :
    Writing n x (left.1 :: (ts ++ [right.1]))

/-- What is found before the last token is put away: whatever stands between
parentheses is looked at before they are closed, but a sign that stands bare
waits for the token behind its operand, and so does an operator. -/
def Writing.early {n : Nat} {x : Term} {ts : List Token} (w : x.Writing n ts) (scopes : Scopes) :
    Except (Violation × Token) ValueType :=
  match w with
  | .name _ t => (Term.name t).type scopes
  | .constant _ t => (Term.constant t).type scopes
  | @signed _ _ _ x _ _ => x.type scopes
  | @joined _ _ _ _ l _ _ _ _ right => do
    let _ ← l.type scopes
    right.early scopes
  | @parentheses _ _ x _ _ _ => x.type scopes

/-- What is found early is the first thing that is wrong with the term. -/
theorem Writing.type_of_early {n : Nat} {x : Term} {ts : List Token} (w : x.Writing n ts)
    {scopes : Scopes} {e : Violation × Token} (h : w.early scopes = .error e) :
    x.type scopes = .error e := by
  induction w with
  | name n t => exact h
  | constant n t => exact h
  | @signed n hn sign x ts inside ih =>
    rw [Writing.early] at h
    rw [type, h]
    rfl
  | @joined n o hn op l r ts us left right ihl ihr =>
    rw [Writing.early] at h
    rw [type]
    cases hl : l.type scopes with
    | error e' =>
      rw [hl] at h
      exact h
    | ok a =>
      rw [hl] at h
      have hr := ihr h
      rw [hr]
      rfl
  | parentheses n left inside right ih => exact h

/-- Terms that say the same. Their tokens may stand at other places. -/
inductive Alike : Term → Term → Prop
  | name {t u : Name} (h : t.1.Alike u.1) : Alike (.name t) (.name u)
  | constant {t u : Constant} (h : t.1.Alike u.1) : Alike (.constant t) (.constant u)
  | signed {s s' : Sign} {x y : Term} (h : s.1.Alike s'.1) (hx : Alike x y) :
    Alike (.signed s x) (.signed s' y)
  | joined {o : Operator} {op op' : Of (.operator o)} {l l' r r' : Term} (hl : Alike l l')
    (h : op.1.Alike op'.1) (hr : Alike r r') : Alike (.joined l o op r) (.joined l' o op' r')

/-- Steps that fail alike do so one after another. -/
theorem mapError_bind {ε ε' α β : Type} {f : ε → ε'} {a b : Except ε α} {c d : α → Except ε β}
    (h : a.mapError f = b.mapError f) (hcd : ∀ x, (c x).mapError f = (d x).mapError f) :
    (a >>= c).mapError f = (b >>= d).mapError f := by
  cases a with
  | error e =>
    cases b with
    | error e' => exact congrArg Except.error (Except.error.inj h)
    | ok y => cases h
  | ok x =>
    cases b with
    | error e' => cases h
    | ok y =>
      cases h
      exact hcd x

/-- Where the tokens stand plays no part for the type of a term, or for what
is wrong with it. -/
theorem Alike.type_eq {x y : Term} (h : x.Alike y) (scopes : Scopes) :
    (y.type scopes).mapError Prod.fst = (x.type scopes).mapError Prod.fst := by
  induction h with
  | name h =>
    rw [type, type, h.2]
    cases scopes.lookup _ with
    | none => rfl
    | some x =>
      dsimp only
      split <;> rfl
  | constant h =>
    simp only [type, h.1]
  | signed h _ ih =>
    rw [type, type]
    apply mapError_bind ih
    intro a
    rw [h.2]
    split <;> rfl
  | joined _ h _ ihl ihr =>
    rw [type, type]
    apply mapError_bind ihl
    intro a
    apply mapError_bind ihr
    intro b
    rw [h.2]
    split <;> rfl

end Term

/-! ## The term of a tree -/

/-- The operator that a token of a tier holds. -/
def OperatorOf.split {tier : List Operator} : OperatorOf tier → (o : Operator) × Of (.operator o)
  | ⟨⟨.operator o, text, line, span⟩, _⟩ => ⟨o, ⟨.operator o, text, line, span⟩, rfl⟩

mutual

def Primary.term : Primary → Term
  | .name t => .name t
  | .constant t => .constant t
  | .group _ x _ => x.term

def Tiered.term : {tiers : List (List Operator)} → Tiered tiers → Term
  | _, .plain x => x.term
  | _, .signed s x => .signed s x.term
  | _, .lift x => x.term
  | _, .join l op r => .joined l.term op.split.1 op.split.2 r.term

end

/-! ## Terms and trees -/

theorem OperatorOf.val_split {tier : List Operator} (op : OperatorOf tier) :
    op.split.2.1 = op.1 := by
  obtain ⟨⟨k, text, line, span⟩, h⟩ := op
  cases k with
  | operator o => rfl
  | _ => cases h

theorem OperatorOf.split_mk {tier : List Operator} {o : Operator} (op : Of (.operator o))
    (h : op.1.kind.isOperatorOf tier = true) : OperatorOf.split ⟨op.1, h⟩ = ⟨o, op⟩ := by
  obtain ⟨⟨k, text, line, span⟩, hk⟩ := op
  cases (show k = .operator o from hk)
  rfl

/-- The operators of a tier are those of its rank. -/
theorem drop_rank (o : Operator) : ∃ tier : List Operator, tier.contains o = true ∧
    Operator.tiers.drop o.rank = tier :: Operator.tiers.drop (o.rank + 1) := by
  cases o <;> exact ⟨_, rfl, rfl⟩

/-- The check finds what `v` says, and leaves the scopes alone. -/
def Check.Finds {α : Type} (s : Scopes) (c : Check α) (v : Except (Violation × Token) α) : Prop :=
  c.run s = v.map fun a => (a, s)

namespace Check.Finds

variable {α β : Type} {s : Scopes}

theorem pure (a : α) : Finds s (Pure.pure a) (.ok a) := rfl

theorem refuse (v : Violation) (t : Token) : Finds s (Check.refuse v t : Check α) (.error (v, t)) :=
  rfl

theorem lookup_bind {name : String} {d : Option Symbol → Check α}
    {v : Except (Violation × Token) α} (h : Finds s (d (s.lookup name)) v) :
    Finds s (Check.lookup name >>= d) v := h

theorem bind {c : Check α} {d : α → Check β} {v : Except (Violation × Token) α}
    {w : α → Except (Violation × Token) β} (hc : Finds s c v) (hd : ∀ a, Finds s (d a) (w a)) :
    Finds s (c >>= d) (v >>= w) := by
  cases v with
  | error e => exact Check.run_bind_of_error hc
  | ok a => exact (Check.run_bind_of_ok hc).trans (hd a)

theorem of_ok {c : Check α} {v : Except (Violation × Token) α} {a : α} {t : Scopes}
    (h : Finds s c v) (hr : c.run s = .ok (a, t)) : v = .ok a ∧ t = s := by
  rw [Finds, hr] at h
  cases v with
  | error e => cases h
  | ok b =>
    cases h
    exact ⟨rfl, rfl⟩

theorem of_error {c : Check α} {v : Except (Violation × Token) α} {e : Violation × Token}
    (h : Finds s c v) (hr : c.run s = .error e) : v = .error e := by
  rw [Finds, hr] at h
  cases v with
  | error e =>
    cases h
    rfl
  | ok b => cases h

end Check.Finds

mutual

/-- The check of a tree finds the type of its term. -/
theorem Primary.finds_check (s : Scopes) : ∀ x : Primary, Check.Finds s x.check (x.term.type s)
  | .name t => by
    rw [Primary.check, Primary.term, Term.type]
    apply Check.Finds.lookup_bind
    cases s.lookup t.1.text with
    | none => exact .refuse ..
    | some x =>
      dsimp only
      split
      · exact .refuse ..
      · exact .pure _
  | .constant t => by
    rw [Primary.check, Primary.term, Term.type, ← Option.get_eq_getD (h := t.2)]
    exact .pure _
  | .group _ x _ => by
    rw [Primary.check, Primary.term]
    exact x.finds_check s

theorem Tiered.finds_check (s : Scopes) : ∀ {tiers : List (List Operator)} (x : Tiered tiers),
    Check.Finds s x.check (x.term.type s)
  | _, .plain x => by
    rw [Tiered.check, Tiered.term]
    exact x.finds_check s
  | _, .signed sign x => by
    rw [Tiered.check, Tiered.term, Term.type]
    refine (x.finds_check s).bind fun a => ?_
    unfold checkSign
    split
    · exact .pure a
    · exact .refuse ..
  | _, .lift x => by
    rw [Tiered.check, Tiered.term]
    exact x.finds_check s
  | _, .join l op r => by
    rw [Tiered.check, Tiered.term, Term.type]
    refine (l.finds_check s).bind fun a => (r.finds_check s).bind fun b => ?_
    unfold checkOperands
    rw [← op.val_split, op.split.2.2]
    dsimp only
    cases op.split.1.result? a b with
    | none => exact .refuse ..
    | some c => exact .pure c

end

/-- Some tree of the tiers spells the tokens and means the term, and `v` is
what is found early in it. -/
def Spells (tiers : List (List Operator)) (x : Term) (ts : List Token)
    (v : Scopes → Except (Violation × Token) ValueType) : Prop :=
  ∃ e : Tiered tiers, e.spelling = ts ∧ e.term = x ∧ ∀ s, Check.Finds s e.early (v s)

/-- An expression of the tiers behind others is one of all of them. -/
theorem Spells.of_drop {tiers : List (List Operator)} {x : Term} {ts : List Token}
    {v : Scopes → Except (Violation × Token) ValueType} {m n : Nat}
    (h : Spells (tiers.drop n) x ts v) (hmn : m ≤ n) : Spells (tiers.drop m) x ts v := by
  induction hmn with
  | refl => exact h
  | @step n _ ih =>
    apply ih
    rw [← List.tail_drop] at h
    cases hd : tiers.drop n with
    | nil => rwa [hd] at h
    | cons tier more =>
      rw [hd] at h
      obtain ⟨e, hts, hx, hv⟩ := h
      exact ⟨e.lift, hts, hx, hv⟩

/-- A primary is an expression of any tiers, and all of it is looked at
early. -/
theorem Primary.spells (p : Primary) {n : Nat} (hn : n ≤ 8) :
    Spells (Operator.tiers.drop n) p.term p.spelling p.term.type := by
  have h : Spells [] p.term p.spelling p.term.type :=
    ⟨.plain p, by rw [Tiered.spelling], by rw [Tiered.term], fun s => p.finds_check s⟩
  exact Spells.of_drop (n := 8) h hn

/-- However a term is written, there is a tree that spells it so; where only
primaries may stand bare, it is one. -/
theorem Term.Writing.exists_tree {n : Nat} {x : Term} {ts : List Token} (w : x.Writing n ts) :
    (n ≤ 8 → Spells (Operator.tiers.drop n) x ts w.early) ∧
    (8 < n → ∃ p : Primary, p.spelling = ts ∧ p.term = x) := by
  have of_primary : ∀ (n : Nat) (p : Primary),
      (n ≤ 8 → Spells (Operator.tiers.drop n) p.term p.spelling p.term.type) ∧
      (8 < n → ∃ q : Primary, q.spelling = p.spelling ∧ q.term = p.term) :=
    fun n p => ⟨p.spells, fun _ => ⟨p, rfl, rfl⟩⟩
  induction w with
  | name n t => exact of_primary n (.name t)
  | constant n t => exact of_primary n (.constant t)
  | @signed n hn sign x ts inside ih =>
    obtain ⟨p, rfl, rfl⟩ := ih.2 (by omega)
    have hs : Spells [] (.signed sign p.term) (sign.1 :: p.spelling) p.term.type :=
      ⟨.signed sign p, by rw [Tiered.spelling], by rw [Tiered.term], fun s => p.finds_check s⟩
    exact ⟨Spells.of_drop (n := 8) hs, fun _ => by omega⟩
  | @joined n o hn op l r ts us left right ihl ihr =>
    obtain ⟨tier, ho, hd⟩ := drop_rank o
    have hrank : o.rank < 8 := by cases o <;> decide
    have hop : op.1.kind.isOperatorOf tier = true := by
      rw [op.2]
      exact ho
    have hl := ihl.1 (by omega)
    rw [hd] at hl
    obtain ⟨e, rfl, rfl, -⟩ := hl
    obtain ⟨e', rfl, rfl, hv⟩ := ihr.1 (by omega)
    have hj : Spells (Operator.tiers.drop o.rank) (.joined e.term o op e'.term)
        (e.spelling ++ op.1 :: e'.spelling) (Writing.joined hn op left right).early := by
      rw [hd]
      exact ⟨.join e ⟨op.1, hop⟩ e', by rw [Tiered.spelling],
        by rw [Tiered.term, OperatorOf.split_mk], fun s => (e.finds_check s).bind fun _ => hv s⟩
    exact ⟨fun _ => hj.of_drop hn, fun _ => by omega⟩
  | @parentheses n left x ts inside right ih =>
    obtain ⟨e, rfl, rfl, -⟩ : Spells Operator.tiers x ts inside.early := ih.1 (by omega)
    have hp := of_primary n (.group left e right)
    rwa [Primary.spelling, Primary.term] at hp

/-- Some expression spells what writes a term down. -/
theorem Term.Writing.exists_expression {x : Term} {ts : List Token} (w : x.Writing 0 ts) :
    ∃ e : Expression, e.spelling = ts ∧ e.term = x ∧
      ∀ s, Check.Finds s e.early (w.early s) :=
  w.exists_tree.1 (Nat.zero_le 8)

/-- What is written down is one term only. -/
theorem Term.Writing.unique {x y : Term} {ts : List Token} (v : x.Writing 0 ts)
    (w : y.Writing 0 ts) : x = y := by
  obtain ⟨e, he, rfl, -⟩ := v.exists_expression
  obtain ⟨e', he', rfl, -⟩ := w.exists_expression
  rw [Tiered.spelling_injective (he.trans he'.symm)]

end Grammar

end OnePass
