-- The grammar of expressions is unambiguous: tokens that spell an expression,
-- with something behind them that does not go on with it, spell no other one.
import OnePass.Proofs.Grammar.Completeness.Expression
import OnePass.Proofs.Grammar.Soundness.Expression

namespace OnePass

open Grammar

variable {tier : List Operator} {tiers : List (List Operator)}

/-! ## Primaries -/

namespace Grammar.Primary

variable {x y : Primary}

/-- Primaries that start the same tokens have the same head. -/
theorem head_eq {v w : List Token} (h : x.spelling ++ v = y.spelling ++ w) : y.head = x.head := by
  obtain ⟨ts, hts⟩ := x.spelling_eq
  obtain ⟨us, hus⟩ := y.spelling_eq
  rw [hts, hus] at h
  exact (List.cons.inj h).1.symm

theorem exists_name (h : y.head.kind.isName = true) : ∃ t, y = .name t := by
  cases y with
  | name t => exact ⟨t, rfl⟩
  | constant t =>
    have ht := t.2
    rw [head] at h
    generalize t.1.kind = k at h ht
    cases k <;> simp_all [Kind.isName, Kind.constantType?]
  | group l x r =>
    rw [head, l.2] at h
    cases h

theorem exists_constant (h : y.head.kind.constantType?.isSome = true) : ∃ t, y = .constant t := by
  cases y with
  | name t =>
    have ht := t.2
    rw [head] at h
    generalize t.1.kind = k at h ht
    cases k <;> simp_all [Kind.isName, Kind.constantType?]
  | constant t => exact ⟨t, rfl⟩
  | group l x r =>
    rw [head, l.2] at h
    cases h

theorem exists_group (h : y.head.kind = .leftParen) : ∃ l x r, y = .group l x r := by
  cases y with
  | name t =>
    have ht := t.2
    rw [show t.1.kind = _ from h] at ht
    cases ht
  | constant t =>
    have ht := t.2
    rw [show t.1.kind = _ from h] at ht
    cases ht
  | group l x r => exact ⟨l, x, r, rfl⟩

end Grammar.Primary

/-! ## Chains -/

/-- What operators of one tier spell, each with its right operand. -/
def spellChain (more : List (OperatorOf tier × Tiered tiers)) : List Token :=
  more.flatMap fun y => y.1.1 :: y.2.spelling

theorem spellChain_cons (y : OperatorOf tier × Tiered tiers)
    (more : List (OperatorOf tier × Tiered tiers)) :
    spellChain (y :: more) = y.1.1 :: (y.2.spelling ++ spellChain more) := rfl

/-- Every tree of a tier is a chain with a first operand. -/
theorem Grammar.Tiered.exists_joinAll : ∀ x : Tiered (tier :: tiers),
    ∃ (y : Tiered tiers) (more : List (OperatorOf tier × Tiered tiers)), x = y.lift.joinAll more
  | .lift y => ⟨y, [], rfl⟩
  | .join l op r => by
    obtain ⟨y, more, rfl⟩ := l.exists_joinAll
    refine ⟨y, more ++ [(op, r)], ?_⟩
    unfold joinAll
    rw [List.foldl_append, List.foldl_cons, List.foldl_nil]

/-- Operators of a tier go on with its expressions. -/
theorem Stops.not_operator {op : OperatorOf tier} {ts : List Token} :
    ¬Stops (tier :: tiers) (op.1 :: ts) := by
  rintro ⟨t, us, heq, ht⟩
  have hop := op.2
  rw [(List.cons.inj heq).1, ht tier List.mem_cons_self] at hop
  cases hop

/-- No operator of the tiers behind goes on with an operand. -/
theorem Stops.chain (h : (tier :: tiers).Pairwise List.Disjoint)
    (more : List (OperatorOf tier × Tiered tiers)) {ts : List Token} (hts : Stops tiers ts) :
    Stops tiers (spellChain more ++ ts) := by
  cases more with
  | nil => exact hts
  | cons y more => exact .operator h y.1 _

/-! ## One tree for each spelling -/

/-- No other tree of the same tiers starts the same tokens. With operators to
come, the tree is the left end of a longer chain. -/
def Grammar.Tiered.Unique : {tiers : List (List Operator)} → Tiered tiers → Prop
  | [], x => ∀ (y : Tiered []) (v w : List Token), x.spelling ++ v = y.spelling ++ w →
    x = y ∧ v = w
  | tier :: tiers, x => ∀ (y : Tiered tiers) (more : List (OperatorOf tier × Tiered tiers))
    (v w : List Token), Stops tiers v → Stops (tier :: tiers) w →
    x.spelling ++ v = y.spelling ++ (spellChain more ++ w) →
    ∃ front back, more = front ++ back ∧ x = y.lift.joinAll front ∧ v = spellChain back ++ w

/-- Where both expressions end, they are one. -/
theorem Grammar.Tiered.Unique.eq {x y : Tiered tiers} (h : x.Unique) {v w : List Token}
    (hv : Stops tiers v) (hw : Stops tiers w) (heq : x.spelling ++ v = y.spelling ++ w) :
    x = y ∧ v = w := by
  cases tiers with
  | nil => exact h y v w heq
  | cons tier tiers =>
    obtain ⟨z, more, rfl⟩ := y.exists_joinAll
    rw [spelling_joinAll, spelling, List.append_assoc] at heq
    obtain ⟨front, back, rfl, rfl, rfl⟩ := h z more v w hv.of_cons hw heq
    cases back with
    | nil => exact ⟨by rw [List.append_nil], rfl⟩
    | cons y back => exact absurd hv Stops.not_operator

mutual

theorem unique_primary : ∀ (x y : Primary) (v w : List Token),
    x.spelling ++ v = y.spelling ++ w → x = y ∧ v = w
  | .name t, y, v, w, h => by
    obtain ⟨u, rfl⟩ := y.exists_name (by rw [Primary.head_eq h]; exact t.2)
    rw [Primary.spelling, Primary.spelling] at h
    obtain ⟨htu, hvw⟩ := List.cons.inj h
    exact ⟨by rw [Subtype.ext htu], hvw⟩
  | .constant t, y, v, w, h => by
    obtain ⟨u, rfl⟩ := y.exists_constant (by rw [Primary.head_eq h]; exact t.2)
    rw [Primary.spelling, Primary.spelling] at h
    obtain ⟨htu, hvw⟩ := List.cons.inj h
    exact ⟨by rw [Subtype.ext htu], hvw⟩
  | .group l x r, y, v, w, h => by
    obtain ⟨l', y, r', rfl⟩ := y.exists_group (by rw [Primary.head_eq h]; exact l.2)
    rw [Primary.spelling, Primary.spelling, List.cons_append, List.cons_append, List.append_assoc,
      List.append_assoc] at h
    obtain ⟨hl, h⟩ := List.cons.inj h
    have hr : ∀ (r : Of .rightParen) (ts : List Token), Stops Operator.tiers ([r.1] ++ ts) :=
      fun r _ => .of_kind (by rw [r.2]; simp)
    obtain ⟨rfl, hrest⟩ := (unique_tree x pairwise_tiers).eq (hr r v) (hr r' w) h
    obtain ⟨hr, hvw⟩ := List.cons.inj hrest
    exact ⟨by rw [Subtype.ext hl, Subtype.ext hr], hvw⟩

theorem unique_tree : ∀ {tiers : List (List Operator)} (x : Tiered tiers),
    tiers.Pairwise List.Disjoint → x.Unique
  | _, .plain x, _ => by
    intro y v w h
    rw [Tiered.spelling] at h
    cases y with
    | plain y =>
      obtain ⟨rfl, hvw⟩ := unique_primary x y v w h
      exact ⟨rfl, hvw⟩
    | signed s y =>
      -- No primary starts with a sign.
      obtain ⟨ts, hts⟩ := x.spelling_eq
      rw [hts] at h
      have hs := s.2
      rw [← show x.head = s.1 from (List.cons.inj h).1, x.isSign_head] at hs
      cases hs
  | _, .signed s x, _ => by
    intro y v w h
    rw [Tiered.spelling] at h
    cases y with
    | plain y =>
      obtain ⟨ts, hts⟩ := y.spelling_eq
      rw [Tiered.spelling, hts] at h
      have hs := s.2
      rw [show s.1 = y.head from (List.cons.inj h).1, y.isSign_head] at hs
      cases hs
    | signed s' y =>
      obtain ⟨hs, h⟩ := List.cons.inj h
      obtain ⟨rfl, hvw⟩ := unique_primary x y v w h
      exact ⟨by rw [Subtype.ext hs], hvw⟩
  | _, .lift x, hd => by
    intro y more v w hv hw h
    rw [Tiered.spelling] at h
    have hw : Stops _ (spellChain more ++ w) := Stops.chain hd more hw.of_cons
    obtain ⟨rfl, rfl⟩ := (unique_tree x (List.pairwise_cons.1 hd).2).eq hv hw h
    exact ⟨[], more, rfl, rfl, rfl⟩
  | _, .join l op r, hd => by
    intro y more v w hv hw h
    rw [Tiered.spelling, List.append_assoc, List.cons_append] at h
    obtain ⟨front, back, rfl, rfl, hrest⟩ := unique_tree l hd y more _ w (.operator hd op _) hw h
    cases back with
    | nil =>
      rw [← show _ = w from hrest] at hw
      exact absurd hw Stops.not_operator
    | cons z back =>
      rw [spellChain_cons, List.cons_append, List.append_assoc] at hrest
      obtain ⟨hop, hrest⟩ := List.cons.inj hrest
      have hw : Stops _ (spellChain back ++ w) := Stops.chain hd back hw.of_cons
      obtain ⟨rfl, rfl⟩ := (unique_tree r (List.pairwise_cons.1 hd).2).eq hv hw hrest
      refine ⟨front ++ [z], back, by rw [List.append_assoc]; rfl, ?_, rfl⟩
      unfold Tiered.joinAll
      rw [List.foldl_append, List.foldl_cons, List.foldl_nil, Subtype.ext hop]

end

/-- Expressions with one spelling are one. -/
theorem Grammar.Tiered.spelling_injective {x y : Expression} (h : x.spelling = y.spelling) :
    x = y := by
  have hstop : Stops Operator.tiers [Token.finish 0 0] := .of_kind nofun
  exact ((unique_tree x pairwise_tiers).eq hstop hstop (by rw [h])).1

end OnePass
