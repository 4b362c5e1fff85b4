-- An expression in front of a token with a fault. That token is turned down
-- as soon as it comes into hand, and so whatever would have been looked at
-- only then is never looked at.
import OnePass.Proofs.Grammar.Completeness.Expression

namespace OnePass

open Grammar

/-! ## What is looked at early -/

/-- What is looked at before the last token of an expression is put away. A
name is looked up while it is in hand, and a group is read to its end before
the parenthesis is closed. A sign and an operator wait for the token behind
their operands. -/
def Grammar.Tiered.early : {tiers : List (List Operator)} → Tiered tiers → Check ValueType
  | _, .plain x => x.check
  | _, .signed _ x => x.check
  | _, .lift x => x.early
  | _, .join l _ r => do
    let _ ← l.check
    r.early

/-- A rejection for what a check finds; if that is nothing, it is `r`. -/
def Rejection.unless {α : Type} (v : Except (Violation × Token) α) (r : Rejection) : Rejection :=
  match v with
  | .ok _ => r
  | .error (w, t) => ⟨.meaning w, t⟩

theorem Rejection.unless_map {α β : Type} (f : α → β) (v : Except (Violation × Token) α)
    (r : Rejection) : Rejection.unless (v.map f) r = .unless v r := by
  cases v <;> rfl

/-! ## Passes that are broken off -/

variable {α β γ : Type}

/-- The outcome is the rejection. Nothing is said when the budget ran out. -/
def Outcome.Breaks (o : Outcome Reel α) (r : Rejection) : Prop :=
  match o with
  | .done _ _ => False
  | .rejected r' _ => r' = r
  | .exhausted _ => True

/-- With the tokens `ts` before it, all of them valid, and the token `u` after
them, which has the fault `f`, the pass comes to what the check finds, or else
to the fault. So it puts the last of `ts` away, unless it ends before. -/
def Breaks (p : Pass α) (ts : List Token) (u : Token) (f : Fault) (more : List Token)
    (c : Check β) : Prop :=
  ts ≠ [] ∧ ∀ s : Stand Reel, s.Holds (ts ++ u :: more) → s.hand.kind.fault? = none →
    (∀ t ∈ ts, t.kind.fault? = none) →
    (p.run s).Breaks (.unless (c.run s.scopes) ⟨.spelling f, u⟩)

namespace Breaks

variable {u : Token} {f : Fault} {l m ts more : List Token}

/-- What would have come later is not come to. -/
theorem bind {p : Pass α} {c : Check γ} (hp : Breaks p ts u f more c) (q : α → Pass β) :
    Breaks (p >>= q) ts u f more c := by
  refine ⟨hp.1, fun s hs hh hv => ?_⟩
  have ho := hp.2 s hs hh hv
  rw [Pass.run_bind]
  generalize p.run s = o at ho ⊢
  cases o with
  | done a t => exact absurd ho id
  | rejected r t => exact ho
  | exhausted t => trivial

/-- The fault is behind the tokens of the second step, so that the first one
does not see it. -/
theorem meets {p : Pass α} {c : Check α} (hp : Conforms p l (m ++ u :: more) c) (hm : m ≠ [])
    {s : Stand Reel} (hs : s.Holds (l ++ m ++ u :: more)) (hh : s.hand.kind.fault? = none)
    (hv : ∀ t ∈ l ++ m, t.kind.fault? = none) :
    match p.run s with
    | .done a t => c.run s.scopes = .ok (a, t.scopes) ∧ t.Holds (m ++ u :: more) ∧
      t.hand.kind.fault? = none
    | .rejected r _ => ∃ w v, c.run s.scopes = .error (w, v) ∧ r = ⟨.meaning w, v⟩
    | .exhausted _ => True := by
  rw [List.append_assoc] at hs
  have ho := hp s hs hh fun t ht => hv t (List.mem_append_left m ht)
  generalize p.run s = o at ho ⊢
  cases o with
  | done a t => exact ho
  | rejected r t =>
    rcases ho with hr | hr
    · exact hr
    · obtain ⟨v, vs, rfl⟩ := List.exists_cons_of_ne_nil hm
      have hvalid := hv v (List.mem_append_right l List.mem_cons_self)
      exact absurd hr (not_stumbles hvalid _ r)
  | exhausted t => trivial

theorem after {p : Pass α} {q : α → Pass β} {c : Check α} {d : α → Check γ} (hm : m ≠ [])
    (hp : Conforms p l (m ++ u :: more) c) (hq : ∀ a, Breaks (q a) m u f more (d a)) :
    Breaks (p >>= q) (l ++ m) u f more (c >>= d) := by
  refine ⟨List.append_ne_nil_of_right_ne_nil l hm, fun s hs hh hv => ?_⟩
  have ho := meets hp hm hs hh hv
  rw [Pass.run_bind, StateT.run_bind]
  generalize p.run s = o at ho ⊢
  cases o with
  | done a t =>
    obtain ⟨hc, ht, hht⟩ := ho
    rw [hc]
    exact (hq a).2 t ht hht fun v hvm => hv v (List.mem_append_right l hvm)
  | rejected r t =>
    obtain ⟨w, v, hc, hr⟩ := ho
    rw [hc]
    exact hr
  | exhausted t => trivial

/-- A first step of which the check knows nothing. -/
theorem after_pure {p : Pass α} {q : α → Pass β} {a : α} {d : Check γ}
    (hp : Conforms p l (m ++ u :: more) (pure a)) (hq : Breaks (q a) m u f more d) :
    Breaks (p >>= q) (l ++ m) u f more d := by
  refine ⟨List.append_ne_nil_of_right_ne_nil l hq.1, fun s hs hh hv => ?_⟩
  have ho := meets hp hq.1 hs hh hv
  rw [Pass.run_bind]
  generalize p.run s = o at ho ⊢
  cases o with
  | done b t =>
    obtain ⟨hc, ht, hht⟩ := ho
    obtain ⟨rfl, hscopes⟩ := Prod.mk.inj (Except.ok.inj hc)
    rw [hscopes]
    exact hq.2 t ht hht fun v hvm => hv v (List.mem_append_right l hvm)
  | rejected r t =>
    obtain ⟨w, v, hc, -⟩ := ho
    cases hc
  | exhausted t => trivial

theorem exhausted (t : Token) (ts : List Token) (c : Check γ) :
    Breaks (Pass.exhausted : Pass α) (t :: ts) u f more c :=
  ⟨List.cons_ne_nil t ts, fun _ _ _ _ => trivial⟩

theorem refuse (v : Violation) (t : Token) (hts : ts ≠ []) :
    Breaks (Pass.refuse v t : Pass α) ts u f more (Check.refuse v t : Check γ) :=
  ⟨hts, fun _ _ _ _ => rfl⟩

/-- The token behind the last one comes into hand. -/
theorem advance {t : Token} (ht : t.kind ≠ .finish) (hu : u.kind.fault? = some f) (a : γ) :
    Breaks Pass.advance [t] u f more (pure a : Check γ) := by
  refine ⟨List.cons_ne_nil t [], fun s hs _ _ => ?_⟩
  have hhand : s.pull.hand = u := (hs.pull ht).hand
  rw [Pass.run_advance, Stand.advance, Stand.settle, hhand, hu]
  rfl

theorem expect {k : Kind} (e : Expectation) (t : Of k) (hk : k ≠ .finish)
    (hu : u.kind.fault? = some f) (a : γ) :
    Breaks (Pass.expect k e) [t.1] u f more (pure a : Check γ) := by
  apply after_pure (l := []) (.hand t.1 _)
  rw [if_pos t.2]
  apply advance _ hu
  rw [t.2]
  exact hk

theorem carries (u : Token) (f : Fault) (more : List Token) :
    Carries (u :: more) fun p ts c => Breaks p ts u f more c where
  exhausted t ts c := .exhausted t ts c
  bind hp hf := .after (hf .int).1 hp hf
  bind_pure hp hf := .after_pure hp hf

end Breaks

/-! ## Expressions -/

variable {u : Token} {f : Fault}

theorem breaks_primary (n : Nat) (x : Primary) (hu : u.kind.fault? = some f)
    (more : List Token) :
    Breaks (Parse.primary fun _ => Pass.expression n) x.spelling u f more x.check := by
  cases x with
  | name t =>
    rw [Primary.spelling, Primary.check]
    apply Breaks.after_pure (l := []) (.hand t.1 _)
    rw [if_pos t.2]
    apply Breaks.after (l := []) (List.cons_ne_nil t.1 []) (.lookup t.1.text)
    intro x
    cases x with
    | none => exact .refuse _ _ (List.cons_ne_nil t.1 [])
    | some x =>
      dsimp only
      by_cases hf : x.role.isFunction = true
      · rw [if_pos hf, if_pos hf]
        exact .refuse _ _ (List.cons_ne_nil t.1 [])
      · rw [if_neg hf, if_neg hf]
        exact (Breaks.advance (Kind.ne_finish_of_isName t.2) hu x.type).bind _
  | constant t =>
    obtain ⟨type, htype⟩ := Option.isSome_iff_exists.1 t.2
    have hn : ¬t.1.kind.isName = true := by
      intro hn
      revert hn htype
      cases t.1.kind <;> simp [Kind.isName, Kind.constantType?]
    rw [Primary.spelling, Primary.check]
    apply Breaks.after_pure (l := []) (.hand t.1 _)
    rw [if_neg hn, htype]
    exact (Breaks.advance (Kind.ne_finish_of_constantType? htype) hu _).bind _
  | group l x r =>
    have hstop : Stops Operator.tiers (r.1 :: u :: more) := Stops.of_kind (by rw [r.2]; simp)
    rw [Primary.spelling, Primary.check, ← bind_pure x.check]
    apply Breaks.after_pure (l := []) (.hand l.1 _)
    rw [l.2]
    apply Breaks.after_pure (l := [l.1]) (.advance (by rw [l.2]; simp))
    apply Breaks.after (List.cons_ne_nil r.1 []) (conforms_expression n x _ hstop)
    intro type
    exact (Breaks.expect _ r (by simp) hu type).bind _

/-- The left end of an expression conforms as ever, and the right end breaks
off. -/
theorem breaks_tree (n : Nat) {tiers : List (List Operator)} (x : Tiered tiers)
    (hap : tiers.Pairwise List.Disjoint) (hu : u.kind.fault? = some f) (more : List Token) :
    Breaks (Parse.tiered (operand n) n tiers) x.spelling u f more x.early := by
  cases x with
  | plain x =>
    obtain ⟨ts, hts⟩ := x.spelling_eq
    have hx := breaks_primary n x hu more
    rw [Tiered.spelling, Tiered.early, Pass.tiered_nil]
    rw [hts] at hx ⊢
    apply Breaks.after_pure (l := []) (.hand x.head _)
    rw [x.isSign_head]
    exact hx
  | signed s x =>
    rw [Tiered.spelling, Tiered.early, Pass.tiered_nil]
    apply Breaks.after_pure (l := []) (.hand s.1 _)
    rw [if_pos s.2]
    apply Breaks.after_pure (l := [s.1]) (.advance (Kind.ne_finish_of_isSign s.2))
    exact (breaks_primary n x hu more).bind _
  | lift x =>
    rw [Tiered.spelling, Tiered.early, Pass.tiered_cons]
    exact (breaks_tree n x (List.pairwise_cons.1 hap).2 hu more).bind _
  | @join tier tiers l op r =>
    rw [Tiered.spelling, Tiered.early, Pass.tiered_cons]
    refine conforms_tree n l hap _ n _ _ _ (Breaks.carries u f more) (Stops.operator hap op _) ?_ 1
    intro i j _ left
    cases j with
    | zero => exact .exhausted op.1 _ _
    | succ j =>
      have hround : Breaks (Pass.advance >>= fun _ => Parse.tiered (operand n) n tiers >>=
          fun right => Pass.demand (checkOperands left op.1 right) op.1)
          ([op.1] ++ r.spelling) u f more r.early := by
        apply Breaks.after_pure (.advance (Kind.ne_finish_of_isOperatorOf op.2))
        exact (breaks_tree n r (List.pairwise_cons.1 hap).2 hu more).bind _
      apply Breaks.after_pure (l := []) (.hand op.1 _)
      rw [if_pos op.2]
      exact hround.bind _

/-- An expression in front of a fault is turned down for what was looked at
before, or else for the fault. -/
theorem breaks_expression (n : Nat) (x : Expression) (hu : u.kind.fault? = some f)
    (more : List Token) : Breaks (Pass.expression n) x.spelling u f more x.early := by
  cases n with
  | zero =>
    obtain ⟨ts, hts⟩ := x.spelling_eq
    rw [hts]
    exact .exhausted x.head ts _
  | succ n => exact breaks_tree n x pairwise_tiers hu more

end OnePass
