-- The form of a tree is what the kinds of its tokens decide: tokens of the
-- same kinds, whatever they say and wherever they stand, are spelled by a
-- tree too.
import Mathlib.Data.List.Basic
import OnePass.Proofs.Grammar.Tree

namespace OnePass.Grammar

/-! ## Tokens of the same kinds -/

/-- Tokens of the same kinds, one by one. -/
def SameKinds (ts us : List Token) : Prop := us.map Token.kind = ts.map Token.kind

namespace SameKinds

variable {t : Token} {ts ts' us : List Token}

theorem eq_nil (h : SameKinds [] us) : us = [] := List.map_eq_nil_iff.1 h

theorem cons (h : SameKinds (t :: ts) us) :
    ∃ u us', us = u :: us' ∧ u.kind = t.kind ∧ SameKinds ts us' := by
  obtain ⟨u, us', rfl, hu, hus⟩ := List.map_eq_cons_iff.1 h
  exact ⟨u, us', rfl, hu, hus⟩

theorem singleton (h : SameKinds [t] us) : ∃ u, us = [u] ∧ u.kind = t.kind := by
  obtain ⟨u, us', rfl, hu, hus⟩ := h.cons
  exact ⟨u, by rw [hus.eq_nil], hu⟩

theorem append (h : SameKinds (ts ++ ts') us) :
    ∃ vs vs', us = vs ++ vs' ∧ SameKinds ts vs ∧ SameKinds ts' vs' := by
  unfold SameKinds at h
  rw [List.map_append] at h
  obtain ⟨vs, vs', rfl, hvs, hvs'⟩ := List.map_eq_append_iff.1 h
  exact ⟨vs, vs', rfl, hvs, hvs'⟩

end SameKinds

/-- Whatever has the kinds of a tree is spelled by a tree. -/
def Formal {α : Type} (spell : α → List Token) : Prop :=
  ∀ x us, SameKinds (spell x) us → ∃ y, spell y = us

theorem formal_commas {α : Type} {spell : α → List Token} (h : Formal spell) :
    Formal (Commas.spelling spell) := by
  have hmore : ∀ (xs : List (Of .comma × α)) (us : List Token),
      SameKinds (xs.flatMap fun x => x.1.1 :: spell x.2) us →
      ∃ ys : List (Of .comma × α), (ys.flatMap fun y => y.1.1 :: spell y.2) = us := by
    intro xs
    induction xs with
    | nil =>
      intro us hus
      exact ⟨[], hus.eq_nil.symm⟩
    | cons x xs ih =>
      intro us hus
      rw [List.flatMap_cons, List.cons_append] at hus
      obtain ⟨comma, us, rfl, hc, hus⟩ := hus.cons
      obtain ⟨vs, us, rfl, hvs, hus⟩ := hus.append
      obtain ⟨ys, rfl⟩ := ih us hus
      obtain ⟨y, rfl⟩ := h x.2 vs hvs
      exact ⟨(⟨comma, hc.trans x.1.2⟩, y) :: ys, rfl⟩
  rintro ⟨first, more⟩ us hus
  obtain ⟨vs, us, rfl, hvs, hus⟩ := hus.append
  obtain ⟨ys, rfl⟩ := hmore more us hus
  obtain ⟨y, rfl⟩ := h first vs hvs
  exact ⟨⟨y, ys⟩, rfl⟩

/-- Something that may be left out. -/
theorem formal_option {α : Type} {spell : α → List Token} {spell? : Option α → List Token}
    (h : Formal spell) (hn : spell? none = []) (hs : ∀ x, spell? (some x) = spell x) :
    Formal spell? := by
  intro x us hus
  cases x with
  | none =>
    rw [hn] at hus
    exact ⟨none, hn.trans hus.eq_nil.symm⟩
  | some x =>
    rw [hs] at hus
    obtain ⟨y, rfl⟩ := h x us hus
    exact ⟨some y, hs y⟩

/-! ## Expressions -/

mutual

theorem formal_primary : ∀ (x : Primary) (us : List Token), SameKinds x.spelling us →
    ∃ y : Primary, y.spelling = us
  | .name t, us, h => by
    rw [Primary.spelling] at h
    obtain ⟨u, rfl, hu⟩ := h.singleton
    exact ⟨.name ⟨u, by rw [hu]; exact t.2⟩, by rw [Primary.spelling]⟩
  | .constant t, us, h => by
    rw [Primary.spelling] at h
    obtain ⟨u, rfl, hu⟩ := h.singleton
    exact ⟨.constant ⟨u, by rw [hu]; exact t.2⟩, by rw [Primary.spelling]⟩
  | .group l x r, us, h => by
    rw [Primary.spelling] at h
    obtain ⟨left, us, rfl, hl, h⟩ := h.cons
    obtain ⟨vs, us, rfl, hvs, h⟩ := h.append
    obtain ⟨right, rfl, hr⟩ := h.singleton
    obtain ⟨y, rfl⟩ := formal_tiered x vs hvs
    exact ⟨.group ⟨left, hl.trans l.2⟩ y ⟨right, hr.trans r.2⟩, by rw [Primary.spelling]⟩

theorem formal_tiered : ∀ {tiers : List (List Operator)} (x : Tiered tiers) (us : List Token),
    SameKinds x.spelling us → ∃ y : Tiered tiers, y.spelling = us
  | _, .plain x, us, h => by
    rw [Tiered.spelling] at h
    obtain ⟨y, rfl⟩ := formal_primary x us h
    exact ⟨.plain y, by rw [Tiered.spelling]⟩
  | _, .signed s x, us, h => by
    rw [Tiered.spelling] at h
    obtain ⟨sign, us, rfl, hs, h⟩ := h.cons
    obtain ⟨y, rfl⟩ := formal_primary x us h
    exact ⟨.signed ⟨sign, by rw [hs]; exact s.2⟩ y, by rw [Tiered.spelling]⟩
  | _, .lift x, us, h => by
    rw [Tiered.spelling] at h
    obtain ⟨y, rfl⟩ := formal_tiered x us h
    exact ⟨.lift y, by rw [Tiered.spelling]⟩
  | _, .join l op r, us, h => by
    rw [Tiered.spelling] at h
    obtain ⟨vs, us, rfl, hvs, h⟩ := h.append
    obtain ⟨sign, us, rfl, ho, h⟩ := h.cons
    obtain ⟨right, rfl⟩ := formal_tiered r us h
    obtain ⟨left, rfl⟩ := formal_tiered l vs hvs
    exact ⟨.join left ⟨sign, by rw [ho]; exact op.2⟩ right, by rw [Tiered.spelling]⟩

end

/-! ## Statements -/

theorem formal_item : Formal Item.spelling := by
  intro x us h
  cases x with
  | bare t =>
    obtain ⟨u, rfl, hu⟩ := h.singleton
    exact ⟨.bare ⟨u, by rw [hu]; exact t.2⟩, rfl⟩
  | valued t s e =>
    obtain ⟨name, us, rfl, hn, h⟩ := h.cons
    obtain ⟨sign, us, rfl, hs, h⟩ := h.cons
    obtain ⟨y, rfl⟩ := formal_tiered e us h
    exact ⟨.valued ⟨name, by rw [hn]; exact t.2⟩ ⟨sign, hs.trans s.2⟩ y, rfl⟩

theorem formal_variables : Formal Variables.spelling := by
  rintro ⟨word, items, stop⟩ us h
  obtain ⟨word', us, rfl, hw, h⟩ := h.cons
  obtain ⟨vs, us, rfl, hvs, h⟩ := h.append
  obtain ⟨stop', rfl, hs⟩ := h.singleton
  obtain ⟨items', rfl⟩ := formal_commas formal_item items vs hvs
  exact ⟨⟨⟨word', by rw [hw]; exact word.2⟩, items', ⟨stop', hs.trans stop.2⟩⟩, rfl⟩

theorem formal_arguments : Formal spellArguments :=
  formal_option (formal_commas formal_tiered) rfl fun _ => rfl

mutual

theorem formal_statement : ∀ (x : Statement) (us : List Token), SameKinds x.spelling us →
    ∃ y : Statement, y.spelling = us
  | .assign t s e stop, us, h => by
    rw [Statement.spelling] at h
    obtain ⟨name, us, rfl, hn, h⟩ := h.cons
    obtain ⟨sign, us, rfl, hs, h⟩ := h.cons
    obtain ⟨vs, us, rfl, hvs, h⟩ := h.append
    obtain ⟨stop', rfl, hstop⟩ := h.singleton
    obtain ⟨y, rfl⟩ := formal_tiered e vs hvs
    refine ⟨.assign ⟨name, by rw [hn]; exact t.2⟩ ⟨sign, hs.trans s.2⟩ y
      ⟨stop', hstop.trans stop.2⟩, ?_⟩
    rw [Statement.spelling]
  | .call t l args r stop, us, h => by
    rw [Statement.spelling] at h
    obtain ⟨name, us, rfl, hn, h⟩ := h.cons
    obtain ⟨left, us, rfl, hl, h⟩ := h.cons
    obtain ⟨vs, us, rfl, hvs, h⟩ := h.append
    obtain ⟨right, us, rfl, hr, h⟩ := h.cons
    obtain ⟨stop', rfl, hstop⟩ := h.singleton
    obtain ⟨args', rfl⟩ := formal_arguments args vs hvs
    refine ⟨.call ⟨name, by rw [hn]; exact t.2⟩ ⟨left, hl.trans l.2⟩ args'
      ⟨right, hr.trans r.2⟩ ⟨stop', hstop.trans stop.2⟩, ?_⟩
    rw [Statement.spelling]
  | .block l body r, us, h => by
    rw [Statement.spelling] at h
    obtain ⟨left, us, rfl, hl, h⟩ := h.cons
    obtain ⟨vs, us, rfl, hvs, h⟩ := h.append
    obtain ⟨right, rfl, hr⟩ := h.singleton
    obtain ⟨body', rfl⟩ := formal_body body vs hvs
    exact ⟨.block ⟨left, hl.trans l.2⟩ body' ⟨right, hr.trans r.2⟩, by rw [Statement.spelling]⟩
  | .loop w l e r body, us, h => by
    rw [Statement.spelling] at h
    obtain ⟨word, us, rfl, hw, h⟩ := h.cons
    obtain ⟨left, us, rfl, hl, h⟩ := h.cons
    obtain ⟨vs, us, rfl, hvs, h⟩ := h.append
    obtain ⟨right, us, rfl, hr, h⟩ := h.cons
    obtain ⟨body', rfl⟩ := formal_statement body us h
    obtain ⟨y, rfl⟩ := formal_tiered e vs hvs
    refine ⟨.loop ⟨word, hw.trans w.2⟩ ⟨left, hl.trans l.2⟩ y ⟨right, hr.trans r.2⟩ body', ?_⟩
    rw [Statement.spelling]
  | .declare x, us, h => by
    rw [Statement.spelling] at h
    obtain ⟨y, rfl⟩ := formal_variables x us h
    exact ⟨.declare y, by rw [Statement.spelling]⟩
  | .empty stop, us, h => by
    rw [Statement.spelling] at h
    obtain ⟨stop', rfl, hstop⟩ := h.singleton
    exact ⟨.empty ⟨stop', hstop.trans stop.2⟩, by rw [Statement.spelling]⟩

theorem formal_body : ∀ (xs : List Statement) (us : List Token), SameKinds (spellBody xs) us →
    ∃ ys, spellBody ys = us
  | [], us, h => by
    rw [spellBody] at h
    exact ⟨[], by rw [spellBody, h.eq_nil]⟩
  | x :: xs, us, h => by
    rw [spellBody] at h
    obtain ⟨vs, us, rfl, hvs, h⟩ := h.append
    obtain ⟨ys, rfl⟩ := formal_body xs us h
    obtain ⟨y, rfl⟩ := formal_statement x vs hvs
    exact ⟨y :: ys, by rw [spellBody]⟩

end

/-! ## Programs -/

theorem formal_parameter : Formal ParameterItem.spelling := by
  rintro ⟨word, name⟩ us h
  obtain ⟨word', us, rfl, hw, h⟩ := h.cons
  obtain ⟨name', rfl, hn⟩ := h.singleton
  exact ⟨⟨⟨word', by rw [hw]; exact word.2⟩, ⟨name', hn.trans name.2⟩⟩, rfl⟩

theorem formal_parameters : Formal spellParameters :=
  formal_option (formal_commas formal_parameter) rfl fun _ => rfl

theorem formal_function : Formal Function.spelling := by
  rintro ⟨word, name, left, ps, right, opening, body, closing⟩ us h
  obtain ⟨word', us, rfl, hw, h⟩ := h.cons
  obtain ⟨name', us, rfl, hn, h⟩ := h.cons
  obtain ⟨left', us, rfl, hl, h⟩ := h.cons
  obtain ⟨ws, us, rfl, hws, h⟩ := h.append
  obtain ⟨right', us, rfl, hr, h⟩ := h.cons
  obtain ⟨opening', us, rfl, ho, h⟩ := h.cons
  obtain ⟨vs, us, rfl, hvs, h⟩ := h.append
  obtain ⟨closing', rfl, hc⟩ := h.singleton
  obtain ⟨ps', rfl⟩ := formal_parameters ps ws hws
  obtain ⟨body', rfl⟩ := formal_body body vs hvs
  exact ⟨⟨⟨word', hw.trans word.2⟩, ⟨name', by rw [hn]; exact name.2⟩, ⟨left', hl.trans left.2⟩,
    ps', ⟨right', hr.trans right.2⟩, ⟨opening', ho.trans opening.2⟩, body',
    ⟨closing', hc.trans closing.2⟩⟩, rfl⟩

theorem formal_declaration : Formal Declaration.spelling := by
  intro x us h
  cases x with
  | globals x =>
    obtain ⟨y, rfl⟩ := formal_variables x us h
    exact ⟨.globals y, rfl⟩
  | function x =>
    obtain ⟨y, rfl⟩ := formal_function x us h
    exact ⟨.function y, rfl⟩

theorem formal_declarations (xs : List Declaration) : ∀ us : List Token,
    SameKinds (xs.flatMap Declaration.spelling) us →
    ∃ ys : List Declaration, ys.flatMap Declaration.spelling = us := by
  induction xs with
  | nil =>
    intro us h
    exact ⟨[], h.eq_nil.symm⟩
  | cons x xs ih =>
    intro us h
    rw [List.flatMap_cons] at h
    obtain ⟨vs, us, rfl, hvs, h⟩ := h.append
    obtain ⟨ys, rfl⟩ := ih us h
    obtain ⟨y, rfl⟩ := formal_declaration x vs hvs
    exact ⟨y :: ys, List.flatMap_cons⟩

theorem formal_program : Formal Program.spelling := by
  rintro ⟨xs, stop⟩ us h
  obtain ⟨vs, us, rfl, hvs, h⟩ := h.append
  obtain ⟨stop', rfl, hs⟩ := h.singleton
  obtain ⟨ys, rfl⟩ := formal_declarations xs vs hvs
  exact ⟨⟨ys, ⟨stop', hs.trans stop.2⟩⟩, rfl⟩

end OnePass.Grammar
