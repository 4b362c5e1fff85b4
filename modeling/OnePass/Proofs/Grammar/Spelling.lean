-- What trees spell: proper tokens, with the finish at the end of a program
-- and nowhere else. And any tokens of the same kinds are spelled by a tree
-- of the same form.
import Mathlib.Data.List.Basic
import OnePass.Proofs.Grammar.Tree

namespace OnePass

/-! ## Proper tokens -/

/-- Neither a finish nor invalid. -/
def Kind.isInner : Kind → Bool
  | finish | invalid _ => false
  | _ => true

/-- All of these are proper tokens. -/
def Inner (ts : List Token) : Prop := ∀ t ∈ ts, t.kind.isInner = true

@[simp] theorem inner_nil : Inner [] := by
  simp [Inner]

@[simp] theorem inner_cons {t : Token} {ts : List Token} :
    Inner (t :: ts) ↔ t.kind.isInner = true ∧ Inner ts := by
  simp [Inner]

@[simp] theorem inner_append {ts us : List Token} : Inner (ts ++ us) ↔ Inner ts ∧ Inner us := by
  simp [Inner, or_imp, forall_and]

namespace Kind

theorem fault?_of_isInner {k : Kind} (h : k.isInner = true) : k.fault? = none := by
  cases k <;> simp_all [isInner, fault?]

theorem ne_finish_of_isInner {k : Kind} (h : k.isInner = true) : k ≠ .finish := by
  rintro rfl; cases h

theorem isInner_of_isName {k : Kind} (h : k.isName = true) : k.isInner = true := by
  cases k <;> simp_all [isName, isInner]

theorem isInner_of_isTypeWord {k : Kind} (h : k.isTypeWord = true) : k.isInner = true := by
  cases k <;> simp_all [isTypeWord, isInner]

theorem isInner_of_isSign {k : Kind} (h : k.isSign = true) : k.isInner = true := by
  cases k <;> simp_all [isSign, isInner]

theorem isInner_of_isOperatorOf {k : Kind} {tier : List Operator}
    (h : k.isOperatorOf tier = true) : k.isInner = true := by
  cases k <;> simp_all [isOperatorOf, isInner]

theorem isInner_of_constantType? {k : Kind} (h : k.constantType?.isSome = true) :
    k.isInner = true := by
  cases k <;> simp_all [constantType?, isInner]

end Kind

namespace Grammar

theorem Of.isInner {k : Kind} (t : Of k) (h : k.isInner = true) : t.1.kind.isInner = true := by
  rw [t.2]
  exact h

theorem Commas.inner {α : Type} {spell : α → List Token} (h : ∀ x, Inner (spell x))
    (xs : Commas α) : Inner (xs.spelling spell) := by
  obtain ⟨first, others⟩ := xs
  rw [Commas.spelling, inner_append]
  refine ⟨h first, ?_⟩
  induction others with
  | nil => simp
  | cons x others ih =>
    rw [List.flatMap_cons, inner_append, inner_cons]
    exact ⟨⟨x.1.isInner rfl, h x.2⟩, ih⟩

mutual

theorem Primary.inner : ∀ x : Primary, Inner x.spelling
  | .name t => by
    rw [Primary.spelling, inner_cons]
    exact ⟨Kind.isInner_of_isName t.2, inner_nil⟩
  | .constant t => by
    rw [Primary.spelling, inner_cons]
    exact ⟨Kind.isInner_of_constantType? t.2, inner_nil⟩
  | .group l x r => by
    rw [Primary.spelling, inner_cons, inner_append, inner_cons]
    exact ⟨l.isInner rfl, x.inner, r.isInner rfl, inner_nil⟩

theorem Tiered.inner : ∀ {tiers : List (List Operator)} (x : Tiered tiers), Inner x.spelling
  | _, .plain x => by
    rw [Tiered.spelling]
    exact x.inner
  | _, .signed s x => by
    rw [Tiered.spelling, inner_cons]
    exact ⟨Kind.isInner_of_isSign s.2, x.inner⟩
  | _, .lift x => by
    rw [Tiered.spelling]
    exact x.inner
  | _, .join l op r => by
    rw [Tiered.spelling, inner_append, inner_cons]
    exact ⟨l.inner, Kind.isInner_of_isOperatorOf op.2, r.inner⟩

end

theorem Tiered.valid {tiers : List (List Operator)} (x : Tiered tiers) :
    ∀ t ∈ x.spelling, t.kind.fault? = none := fun t ht => Kind.fault?_of_isInner (x.inner t ht)

theorem Tiered.valid_head {tiers : List (List Operator)} (x : Tiered tiers) :
    x.head.kind.fault? = none := by
  obtain ⟨ts, hts⟩ := x.spelling_eq
  exact x.valid x.head (by rw [hts]; exact List.mem_cons_self)

theorem Item.inner (x : Item) : Inner x.spelling := by
  cases x with
  | bare t =>
    rw [Item.spelling, inner_cons]
    exact ⟨Kind.isInner_of_isName t.2, inner_nil⟩
  | valued t s e =>
    rw [Item.spelling, inner_cons, inner_cons]
    exact ⟨Kind.isInner_of_isName t.2, s.isInner rfl, e.inner⟩

theorem Variables.inner (x : Variables) : Inner x.spelling := by
  rw [Variables.spelling, inner_cons, inner_append, inner_cons]
  exact ⟨Kind.isInner_of_isTypeWord x.word.2, x.items.inner Item.inner, x.stop.isInner rfl,
    inner_nil⟩

theorem inner_spellArguments (args : Option (Commas Expression)) : Inner (spellArguments args) := by
  cases args with
  | none => exact inner_nil
  | some xs => exact xs.inner Tiered.inner

mutual

theorem Statement.inner : ∀ x : Statement, Inner x.spelling
  | .assign t s e stop => by
    rw [Statement.spelling, inner_cons, inner_cons, inner_append, inner_cons]
    exact ⟨Kind.isInner_of_isName t.2, s.isInner rfl, e.inner, stop.isInner rfl, inner_nil⟩
  | .call t l args r stop => by
    rw [Statement.spelling, inner_cons, inner_cons, inner_append, inner_cons, inner_cons]
    exact ⟨Kind.isInner_of_isName t.2, l.isInner rfl, inner_spellArguments args, r.isInner rfl,
      stop.isInner rfl, inner_nil⟩
  | .block l body r => by
    rw [Statement.spelling, inner_cons, inner_append, inner_cons]
    exact ⟨l.isInner rfl, inner_spellBody body, r.isInner rfl, inner_nil⟩
  | .loop w l e r body => by
    rw [Statement.spelling, inner_cons, inner_cons, inner_append, inner_cons]
    exact ⟨w.isInner rfl, l.isInner rfl, e.inner, r.isInner rfl, body.inner⟩
  | .declare x => by
    rw [Statement.spelling]
    exact x.inner
  | .empty stop => by
    rw [Statement.spelling, inner_cons]
    exact ⟨stop.isInner rfl, inner_nil⟩

theorem inner_spellBody : ∀ xs : List Statement, Inner (spellBody xs)
  | [] => by
    rw [spellBody]
    exact inner_nil
  | x :: xs => by
    rw [spellBody, inner_append]
    exact ⟨x.inner, inner_spellBody xs⟩

end

theorem ParameterItem.inner (x : ParameterItem) : Inner x.spelling := by
  rw [ParameterItem.spelling, inner_cons, inner_cons]
  exact ⟨Kind.isInner_of_isTypeWord x.word.2, x.name.isInner rfl, inner_nil⟩

theorem inner_spellParameters (ps : Option (Commas ParameterItem)) :
    Inner (spellParameters ps) := by
  cases ps with
  | none => exact inner_nil
  | some xs => exact xs.inner ParameterItem.inner

theorem Function.inner (x : Function) : Inner x.spelling := by
  rw [Function.spelling, inner_cons, inner_cons, inner_cons, inner_append, inner_cons, inner_cons,
    inner_append, inner_cons]
  exact ⟨x.word.isInner rfl, Kind.isInner_of_isName x.name.2, x.left.isInner rfl,
    inner_spellParameters _, x.right.isInner rfl, x.opening.isInner rfl, inner_spellBody _,
    x.closing.isInner rfl, inner_nil⟩

theorem Declaration.inner (x : Declaration) : Inner x.spelling := by
  cases x with
  | globals x => exact x.inner
  | function x => exact x.inner

/-- The declarations of a program have no finish in them, and nothing
invalid. -/
theorem inner_declarations (xs : List Declaration) :
    Inner (xs.flatMap Declaration.spelling) := by
  induction xs with
  | nil => exact inner_nil
  | cons x xs ih =>
    rw [List.flatMap_cons, inner_append]
    exact ⟨x.inner, ih⟩

theorem Program.fault?_eq_none (x : Program) {t : Token} (h : t ∈ x.spelling) :
    t.kind.fault? = none := by
  rw [Program.spelling] at h
  rcases List.mem_append.1 h with h | h
  · exact Kind.fault?_of_isInner (inner_declarations _ t h)
  · rw [List.mem_singleton.1 h, x.stop.2]
    rfl

end Grammar

end OnePass
