-- What a pass reads, step by step: wherever it stands, its journal shows the
-- tokens that it put away and the one in hand, each as often as the tokens
-- before it say.
import OnePass.Proofs.Grammar.Conformity
import OnePass.Proofs.Journal.Moments
import OnePass.Proofs.Promise

namespace OnePass

variable {α β : Type}

/-! ## The trace -/

namespace Stand

/-- The entries of the journal that tell of tokens read. -/
def trace {φ : Type} (s : Stand φ) : List Event :=
  s.journal.toList.filter (·.severity = .trace)

theorem trace_note {φ : Type} (s : Stand φ) (e : Event) :
    (s.note e).trace = s.trace ++ [e].filter (·.severity = .trace) := by
  simp [trace, note]

end Stand

/-- What is noted of a token that is read `n` times. -/
def noted (n : Nat) (t : Token) : List Event :=
  if t.kind = .finish then [] else List.replicate n (.read t)

theorem noted_add (n k : Nat) (t : Token) : noted n t ++ noted k t = noted (n + k) t := by
  unfold noted
  split
  · rfl
  · exact List.replicate_append_replicate

theorem Moment.map_readings_singleton (m : Moment) (t : Token) :
    (m.readings [t]).map .read = noted m.times t := by
  rw [readings_singleton, noted]
  split
  · rfl
  · exact List.map_replicate

namespace Stand

theorem trace_noteRead {φ : Type} (s : Stand φ) (t : Token) :
    (s.noteRead t).trace = s.trace ++ noted 1 t := by
  unfold noteRead noted
  split
  · exact (List.append_nil _).symm
  · exact s.trace_note (.read t)

theorem trace_pull {φ : Type} [Feed φ] (s : Stand φ) :
    s.pull.trace = s.trace ++ noted 1 s.pull.hand := by
  rw [hand_pull, pull, trace_noteRead]
  rfl

/-- At the moment `m` the tokens `ts` have been read up to the one in hand,
and the trace shows them. -/
def Shows (ts : List Token) (m : Moment) (s : Stand Reel) : Prop :=
  ∃ before more, ts = before ++ more ∧ s.Holds more ∧ m = Moment.inside.after before ∧
    s.trace = (Moment.inside.readings (before ++ [s.hand])).map .read

variable {ts : List Token} {m : Moment} {s s' : Stand Reel}

/-- What reads no token leaves the trace as it is. -/
theorem Shows.of_eq (h : s.Shows ts m) (hf : s'.feed = s.feed) (hh : s'.hand = s.hand)
    (ht : s'.trace = s.trace) : s'.Shows ts m := by
  obtain ⟨before, more, hts, hholds, hm, htrace⟩ := h
  exact ⟨before, more, hts, hholds.of_eq hf hh, hm, by rw [ht, hh, htrace]⟩

/-- The next token comes into hand. It was read ahead if that was due. -/
theorem Shows.pull (h : s.Shows ts m) (hk : s.hand.kind ≠ .finish) (hf : s'.feed = s.feed)
    (hh : s'.hand = s.hand) {n : Nat} (hn : (m.next s.hand.kind).times = n + 1)
    (ht : s'.trace = s.trace ++ noted n s'.pull.hand) :
    s'.pull.Shows ts (m.next s.hand.kind) := by
  obtain ⟨before, more, hts, hholds, rfl, htrace⟩ := h
  obtain ⟨us, rfl⟩ := hholds.eq_cons
  have hafter : Moment.inside.after (before ++ [s.hand]) =
      (Moment.inside.after before).next s.hand.kind := Moment.after_append _ _ _
  refine ⟨before ++ [s.hand], us, ?_, (hholds.of_eq hf hh).pull hk, hafter.symm, ?_⟩
  · rw [hts, List.append_assoc]
    rfl
  · rw [trace_pull, ht, htrace, List.append_assoc, noted_add,
      Moment.readings_append _ (before ++ [s.hand]), List.map_append,
      Moment.map_readings_singleton, hafter, hn, Nat.add_comm]

end Stand

/-! ## Passes -/

/-- Wherever a pass is turned down, the trace shows what was read. -/
def showing (ts : List Token) : Promise Reel where
  stand _ := True
  rejection _ s := ∃ m, s.Shows ts m

namespace Pass

open Parse

/-- With the token `t` in hand, at a moment of which `A` holds, the pass reads
what it should, and `B` holds of the moment at its end. -/
def Tells (ts : List Token) (t : Token) (A : Moment → Prop) (p : Pass α) (B : Moment → Prop) :
    Prop :=
  ∀ s m, s.hand = t → s.Shows ts m → A m →
    (p.run s).Keeps (showing ts) fun _ s' => ∃ m', s'.Shows ts m' ∧ B m'

/-- The pass reads no token. -/
def Rests (p : Pass α) : Prop :=
  ∀ s : Stand Reel, (p.run s).stand.feed = s.feed ∧ (p.run s).stand.hand = s.hand ∧
    (p.run s).stand.trace = s.trace

/-! ### Steps that read nothing -/

theorem rests_pure (a : α) : (pure a : Pass α).Rests := fun _ => ⟨rfl, rfl, rfl⟩

theorem rests_demand (c : Except Violation α) (t : Token) : (demand c t).Rests := by
  cases c <;> exact fun _ => ⟨rfl, rfl, rfl⟩

theorem rests_lookup (name : String) : (lookup name).Rests := fun _ => ⟨rfl, rfl, rfl⟩

theorem rests_headed (name : String) (n : Nat) : (headed name n).Rests :=
  fun s => ⟨rfl, rfl, (s.trace_note _).trans (List.append_nil _)⟩

theorem rests_enter : enter.Rests :=
  fun _ => ⟨rfl, rfl, (Stand.trace_note _ _).trans (List.append_nil _)⟩

theorem rests_leave : leave.Rests := by
  intro s
  rw [run_leave]
  show s.leave.feed = s.feed ∧ s.leave.hand = s.hand ∧ s.leave.trace = s.trace
  unfold Stand.leave
  split
  · exact ⟨rfl, rfl, (Stand.trace_note _ _).trans (List.append_nil _)⟩
  · exact ⟨rfl, rfl, rfl⟩

theorem rests_declare (x : Symbol) (t : Token) : (declare x t).Rests := by
  intro s
  rw [run_declare]
  unfold Stand.declare
  split
  · exact ⟨rfl, rfl, (Stand.trace_note _ _).trans (List.append_nil _)⟩
  · exact ⟨rfl, rfl, rfl⟩

theorem Rests.bind {p : Pass α} {q : α → Pass β} (hp : p.Rests) (hq : ∀ a, (q a).Rests) :
    (p >>= q).Rests := by
  intro s
  have h := hp s
  rw [run_bind]
  cases ho : p.run s with
  | done a s' =>
    rw [ho] at h
    obtain ⟨hf, hh, ht⟩ := hq a s'
    exact ⟨hf.trans h.1, hh.trans h.2.1, ht.trans h.2.2⟩
  | rejected r s' =>
    rw [ho] at h
    exact h
  | exhausted s' =>
    rw [ho] at h
    exact h

theorem rests_declareParameters (k : Nat) (ps : List (Parameter × Token)) :
    Rests (declareParameters k ps) := by
  induction ps generalizing k with
  | nil => exact rests_pure ()
  | cons p ps ih => exact (rests_declare _ _).bind fun _ => ih (k + 1)

/-! ### Steps that read -/

namespace Tells

variable {ts : List Token} {t : Token} {p : Pass α} {q : α → Pass β} {A B C : Moment → Prop}

theorem exhausted : Tells ts t A (Pass.exhausted : Pass α) B := fun _ _ _ _ _ => trivial

theorem bind (hp : Tells ts t A p B) (hq : ∀ a u, Tells ts u B (q a) C) :
    Tells ts t A (p >>= q) C := by
  intro s m ht hs hm
  rw [run_bind]
  apply (hp s m ht hs hm).andThen
  rintro a s' ⟨m', hs', hm'⟩
  exact hq a s'.hand s' m' rfl hs' hm'

theorem imp {A' B' : Moment → Prop} (hp : Tells ts t A p B) (hA : ∀ m, A' m → A m)
    (hB : ∀ m, B m → B' m) : Tells ts t A' p B' := by
  intro s m ht hs hm
  apply (hp s m ht hs (hA m hm)).mono
  rintro a s' ⟨m', hs', hm'⟩
  exact ⟨m', hs', hB m' hm'⟩

theorem rest_bind (hp : p.Rests) (hq : ∀ a, Tells ts t A (q a) B) : Tells ts t A (p >>= q) B := by
  intro s m ht hs hm
  have h := hp s
  rw [run_bind]
  cases ho : p.run s with
  | done a s' =>
    rw [ho] at h
    exact hq a s' m (h.2.1.trans ht) (hs.of_eq h.1 h.2.1 h.2.2) hm
  | rejected r s' =>
    rw [ho] at h
    exact ⟨m, hs.of_eq h.1 h.2.1 h.2.2⟩
  | exhausted s' => trivial

theorem rest (hp : p.Rests) : Tells ts t A p A := by
  rw [← bind_pure p]
  exact rest_bind hp fun a s m _ hs hm => ⟨m, hs, hm⟩

/-- A pass after which nothing need be known of the moment. -/
theorem anyway (hp : Tells ts t A p B) : Tells ts t A p fun _ => True :=
  hp.imp (fun _ h => h) fun _ _ => trivial

/-- Inside a statement no name leads one. -/
theorem inside (hp : Tells ts t (· ≠ .fresh) p B) : Tells ts t (· = .inside) p B := by
  apply hp.imp _ fun _ h => h
  rintro _ rfl
  nofun

theorem hand_bind {q : Token → Pass α} (h : Tells ts t A (q t) B) :
    Tells ts t A (Pass.hand >>= q) B := by
  intro s m ht hs hm
  rw [run_bind, run_hand, Outcome.andThen_done, ht]
  exact h s m ht hs hm

/-- A token that is valid is taken, and any other one is the last that was
read. -/
theorem keeps_settle {s : Stand Reel} {m : Moment} (hs : s.Shows ts m) (hm : B m) :
    s.settle.Keeps (showing ts) fun _ s' => ∃ m', s'.Shows ts m' ∧ B m' := by
  unfold Stand.settle
  split
  · exact ⟨m, hs⟩
  · exact ⟨m, hs, hm⟩

/-- A token is put away, unless it leads a statement. -/
theorem advance (ht : t.kind ≠ .finish)
    (h : ∀ m, A m → m.next t.kind ≠ .led ∧ B (m.next t.kind)) :
    Tells ts t A Pass.advance B := by
  rintro s m rfl hs hm
  obtain ⟨hled, hB⟩ := h m hm
  rw [run_advance]
  refine (keeps_settle (hs.pull ht rfl rfl (Moment.times_eq_one hled) ?_) hB).andThen fun _ _ h => h
  unfold noted
  split <;> exact (List.append_nil _).symm

theorem advance_plain (ht : t.kind ≠ .finish) (hp : t.kind.isPlain = true) :
    Tells ts t A Pass.advance (· = .inside) := by
  apply advance ht
  intro m _
  rw [Moment.next_eq_inside hp]
  exact ⟨Moment.inside_ne_led, rfl⟩

theorem advance_name (ht : t.kind.isName = true) :
    Tells ts t (· ≠ .fresh) Pass.advance (· = .inside) := by
  apply advance (Kind.ne_finish_of_isName ht)
  intro m hm
  rw [Moment.next_of_isName ht, if_neg hm]
  exact ⟨Moment.inside_ne_led, rfl⟩

theorem advance_precedes (ht : t.kind.precedesStatement = true) :
    Tells ts t A Pass.advance (· = .fresh) := by
  have hne : t.kind ≠ .finish := by
    intro hk
    rw [hk] at ht
    cases ht
  apply advance hne
  intro m _
  rw [Moment.next_eq_fresh ht]
  exact ⟨Moment.fresh_ne_led, rfl⟩

theorem refuse (v : Violation) (u : Token) : Tells ts t A (Pass.refuse v u : Pass α) B :=
  fun _ m _ hs _ => ⟨m, hs⟩

theorem unexpected (e : Expectation) : Tells ts t A (Pass.unexpected e : Pass α) B :=
  fun _ m _ hs _ => ⟨m, hs⟩

theorem expect_plain {k : Kind} (e : Expectation) (hk : k ≠ .finish) (hp : k.isPlain = true) :
    Tells ts t A (Pass.expect k e) (· = .inside) := by
  apply hand_bind
  by_cases ht : t.kind = k
  · rw [if_pos ht]
    exact advance_plain (ht ▸ hk) (ht ▸ hp)
  · rw [if_neg ht]
    exact unexpected e

theorem expect_precedes {k : Kind} (e : Expectation) (hk : k.precedesStatement = true) :
    Tells ts t A (Pass.expect k e) (· = .fresh) := by
  apply hand_bind
  by_cases ht : t.kind = k
  · rw [if_pos ht]
    exact advance_precedes (ht ▸ hk)
  · rw [if_neg ht]
    exact unexpected e

/-- A name where it leads no statement. -/
theorem take_name {test : Token → Prop} [DecidablePred test]
    (h : ∀ t, test t → t.kind.isName = true) (e : Expectation) :
    Tells ts t (· ≠ .fresh) (Pass.hand >>= fun t => if test t then Pass.advance else
      Pass.unexpected e) (· = .inside) := by
  apply hand_bind
  by_cases ht : test t
  · rw [if_pos ht]
    exact advance_name (h t ht)
  · rw [if_neg ht]
    exact unexpected e

theorem accept_bind {k : Kind} {q : Bool → Pass α} (hk : k ≠ .finish) (hp : k.isPlain = true)
    (ht : ∀ u, Tells ts u (· = .inside) (q true) B) (hf : Tells ts t A (q false) B) :
    Tells ts t A (Pass.accept k >>= q) B := by
  unfold Pass.accept
  rw [bind_assoc]
  apply hand_bind
  by_cases h : t.kind = k
  · rw [if_pos h, bind_assoc]
    apply (advance_plain (h ▸ hk) (h ▸ hp)).bind
    intro _ u
    rw [pure_bind]
    exact ht u
  · rw [if_neg h, pure_bind]
    exact hf

theorem repeatWhile {l : Repetition} {opens : Kind → Bool} {body : Pass Unit}
    (h : ∀ t, Tells ts t A body A) (k n : Nat) (t : Token) :
    Tells ts t A (Parse.repeatWhile l opens body k n) A := by
  induction n generalizing k t with
  | zero => exact exhausted
  | succ n ih =>
    apply hand_bind
    by_cases ht : opens t.kind = true
    · rw [if_pos ht]
      exact (h t).bind fun _ u => ih (k + 1) u
    · rw [if_neg ht]
      exact rest (rests_pure ())

/-- Items with commas between them, where no name leads a statement. -/
theorem separated {l : Repetition} {item : Nat → Pass α}
    (h : ∀ i t, Tells ts t (· ≠ .fresh) (item i) fun _ => True) (i n : Nat) (t : Token) :
    Tells ts t (· ≠ .fresh) (Parse.separated l item i n) fun _ => True := by
  induction n generalizing i t with
  | zero => exact exhausted
  | succ n ih =>
    rw [Pass.separated_succ]
    apply (h i t).bind
    intro a u
    apply accept_bind (by simp) rfl
    · intro u
      exact ((ih (i + 1) u).bind fun as v => rest (rests_pure (a :: as))).inside
    · exact (rest (rests_pure [a])).anyway

/-- The pass starts with a name that leads a statement. -/
def Leads (ts : List Token) (p : Pass α) (B : Moment → Prop) : Prop :=
  ∃ (e : Expectation) (q : Token → Pass α), p = Pass.expectName e >>= q ∧
    ∀ a u, Tells ts u (· = .led) (q a) B

/-- Behind such a name the next token was read ahead when it is taken. -/
theorem lookahead {q : Kind → Pass α} (ht : t.kind.isName = true) (h : ∀ k, Leads ts (q k) B) :
    Tells ts t (· = .fresh) (Pass.peek >>= q) B := by
  rintro s _ rfl hs rfl
  let s' : Stand Reel := s.noteRead (Feed.next s.feed).1
  have hf : s'.feed = s.feed := s.feed_noteRead _
  have hh : s'.hand = s.hand := s.hand_noteRead _
  have hnext : s'.pull.hand = (Feed.next s.feed).1 := by rw [Stand.hand_pull, hf]
  have hled : Moment.fresh.next s.hand.kind = .led := by rw [Moment.next_of_isName ht, if_pos rfl]
  have htrace : s'.trace = s.trace ++ noted 1 s'.pull.hand := by
    rw [hnext]
    exact s.trace_noteRead _
  have hpull := hs.pull (Kind.ne_finish_of_isName ht) hf hh (by rw [hled]; rfl) htrace
  rw [hled] at hpull
  obtain ⟨e, r, hq, hr⟩ := h (Feed.next s.feed).1.kind
  rw [run_bind, run_peek]
  unfold Stand.peek
  simp only [Feed.peek_eq, Outcome.andThen_done]
  show ((q _).run s').Keeps _ _
  rw [hq, run_bind, run_expectName, hh, if_pos ht, run_advance, Outcome.andThen_assoc]
  apply (keeps_settle (B := (· = .led)) hpull rfl).andThen
  rintro _ u ⟨m, hu, hm⟩
  exact hr _ _ u m rfl hu hm

end Tells

/-! ### Expressions -/

section
variable {ts : List Token}

theorem tells_primary {inner : Unit → Pass ValueType}
    (h : ∀ t, Tells ts t (· ≠ .fresh) (inner ()) fun _ => True) (t : Token) :
    Tells ts t (· ≠ .fresh) (primary inner) fun _ => True := by
  apply Tells.hand_bind
  by_cases hn : t.kind.isName = true
  · rw [if_pos hn]
    apply Tells.rest_bind (rests_lookup _)
    intro x?
    cases x? with
    | none => exact .refuse _ _
    | some x =>
      dsimp only
      by_cases hf : x.role.isFunction = true
      · rw [if_pos hf]
        exact .refuse _ _
      · rw [if_neg hf]
        exact (Tells.advance_name hn).bind fun _ u => (Tells.rest (rests_pure x.type)).anyway
  · rw [if_neg hn]
    cases hc : t.kind.constantType? with
    | some type =>
      have hplain : t.kind.isPlain = true := Kind.isPlain_of_constantType? (by rw [hc]; rfl)
      exact (Tells.advance_plain (Kind.ne_finish_of_constantType? hc) hplain).bind fun _ u =>
        (Tells.rest (rests_pure type)).anyway
    | none =>
      dsimp only
      by_cases hl : t.kind = .leftParen
      · rw [if_pos hl]
        apply (Tells.advance_plain (by rw [hl]; simp) (by rw [hl]; rfl)).bind
        intro _ u
        apply (h u).inside.bind
        intro type v
        exact (Tells.expect_precedes .groupClose rfl).bind fun _ w =>
          (Tells.rest (rests_pure type)).anyway
      · rw [if_neg hl]
        exact .unexpected _

theorem tells_signed {inner : Unit → Pass ValueType}
    (h : ∀ t, Tells ts t (· ≠ .fresh) (inner ()) fun _ => True) (t : Token) :
    Tells ts t (· ≠ .fresh) (signed inner) fun _ => True := by
  apply Tells.hand_bind
  by_cases hs : t.kind.isSign = true
  · rw [if_pos hs]
    apply (Tells.advance_plain (Kind.ne_finish_of_isSign hs) (Kind.isPlain_of_isSign hs)).bind
    intro _ u
    exact (tells_primary h u).inside.bind fun type _ => .rest (rests_demand _ _)
  · rw [if_neg hs]
    exact tells_primary h t

theorem tells_chain {operand : Pass ValueType} (tier : List Operator)
    (h : ∀ t, Tells ts t (· ≠ .fresh) operand fun _ => True) (k n : Nat) (left : ValueType)
    (t : Token) : Tells ts t (fun _ => True) (chain tier operand k n left) fun _ => True := by
  induction n generalizing k left t with
  | zero => exact .exhausted
  | succ n ih =>
    apply Tells.hand_bind
    by_cases ho : t.kind.isOperatorOf tier = true
    · rw [if_pos ho]
      refine Tells.bind (B := fun _ => True) ?_ fun type u => ih (k + 1) type u
      apply (Tells.advance_plain (Kind.ne_finish_of_isOperatorOf ho)
        (Kind.isPlain_of_isOperatorOf ho)).bind
      intro _ u
      exact (h u).inside.bind fun right _ => .rest (rests_demand _ _)
    · rw [if_neg ho]
      exact .rest (rests_pure left)

theorem tells_tiered {operand : Pass ValueType}
    (h : ∀ t, Tells ts t (· ≠ .fresh) operand fun _ => True) (n : Nat)
    (tiers : List (List Operator)) (t : Token) :
    Tells ts t (· ≠ .fresh) (tiered operand n tiers) fun _ => True := by
  induction tiers generalizing t with
  | nil =>
    rw [tiered_nil]
    exact h t
  | cons tier tiers ih =>
    rw [tiered_cons]
    exact (ih t).bind fun left u => tells_chain tier ih 1 n left u

theorem tells_expression (n : Nat) (t : Token) :
    Tells ts t (· ≠ .fresh) (expression n) fun _ => True := by
  induction n generalizing t with
  | zero => exact .exhausted
  | succ n ih => exact tells_tiered (tells_signed ih) n Operator.tiers t

/-! ### Variables -/

theorem tells_typeWord {A : Moment → Prop} (t : Token) : Tells ts t A typeWord (· = .inside) := by
  apply Tells.hand_bind
  by_cases ht : t.kind.isTypeWord = true
  · rw [if_pos ht]
    exact (Tells.advance_plain (Kind.ne_finish_of_isTypeWord ht) (Kind.isPlain_of_isTypeWord ht)).bind
      fun _ _ => .rest (rests_pure _)
  · rw [if_neg ht]
    exact .unexpected _

theorem tells_expectName (e : Expectation) (t : Token) :
    Tells ts t (· ≠ .fresh) (expectName e) (· = .inside) :=
  Tells.take_name (fun _ h => h) e

theorem tells_declarator (n : Nat) (type : ValueType) (t : Token) :
    Tells ts t (· ≠ .fresh) (declarator n type) fun _ => True := by
  apply (tells_expectName .variableName t).bind
  intro name u
  apply Tells.rest_bind (rests_declare _ _)
  intro _
  apply Tells.accept_bind (by simp) rfl
  · intro v
    exact (tells_expression n v).inside.bind fun value _ => .rest (rests_demand _ _)
  · exact (Tells.rest (rests_pure ())).anyway

theorem tells_names (n : Nat) (type : ValueType) (t : Token) :
    Tells ts t (· ≠ .fresh) (names n type) fun _ => True :=
  (Tells.separated (fun _ => tells_declarator n type) 1 n t).bind fun _ _ => .rest (rests_pure ())

theorem tells_declarators {A : Moment → Prop} (n : Nat) (t : Token) :
    Tells ts t A (declarators n) (· = .fresh) := by
  apply (tells_typeWord t).bind
  intro type u
  apply (tells_names n type u).inside.bind
  intro _ v
  exact (Tells.expect_precedes .declarationEnd rfl).bind fun _ _ => .rest (rests_pure ())

/-! ### Calls and assignments -/

theorem tells_argument (n : Nat) (f : Symbol) (i : Nat) (t : Token) :
    Tells ts t (· ≠ .fresh) (argument n f i) fun _ => True := by
  apply Tells.hand_bind
  exact (tells_expression n t).bind fun value _ => .rest (rests_demand _ _)

theorem tells_arguments (n : Nat) (f : Symbol) (name t : Token) :
    Tells ts t (· ≠ .fresh) (arguments n f name) fun _ => True := by
  apply Tells.hand_bind
  by_cases ht : t.kind = .rightParen
  · rw [if_pos ht]
    exact (Tells.rest (rests_demand _ _)).anyway
  · rw [if_neg ht]
    exact (Tells.separated (tells_argument n f) 1 n t).bind fun given _ =>
      .rest (rests_demand _ _)

theorem Tells.Leads.bind {p : Pass α} {q : α → Pass β} {B C : Moment → Prop}
    (hp : Leads ts p B) (hq : ∀ a u, Tells ts u B (q a) C) : Leads ts (p >>= q) C := by
  obtain ⟨e, r, rfl, hr⟩ := hp
  exact ⟨e, fun a => r a >>= q, bind_assoc _ _ _, fun a u => (hr a u).bind hq⟩

theorem leads_call (n : Nat) : Tells.Leads ts (call n) (· = .fresh) := by
  refine ⟨.callee, _, rfl, ?_⟩
  intro name u
  apply Tells.rest_bind (rests_lookup _)
  intro f?
  cases f? with
  | none => exact .refuse _ _
  | some f =>
    dsimp only
    by_cases hf : f.role.isFunction = true
    · rw [if_pos hf]
      apply (Tells.expect_plain .argumentsOpen (by simp) rfl).bind
      intro _ v
      apply (tells_arguments n f name v).inside.bind
      intro _ w
      exact (Tells.expect_precedes .argumentsClose rfl).bind fun _ _ => .rest (rests_pure ())
    · rw [if_neg hf]
      exact .refuse _ _

theorem leads_assignment (n : Nat) : Tells.Leads ts (assignment n) fun _ => True := by
  refine ⟨.target, _, rfl, ?_⟩
  intro name u
  apply Tells.rest_bind (rests_lookup _)
  intro x?
  cases x? with
  | none => exact .refuse _ _
  | some target =>
    apply (Tells.expect_plain .assignSign (by simp) rfl).bind
    intro _ v
    exact (tells_expression n v).inside.bind fun value _ => .rest (rests_demand _ _)

/-! ### Statements -/

theorem tells_block {A : Moment → Prop} {body : Pass Unit}
    (h : ∀ t, Tells ts t (· = .fresh) body (· = .fresh)) (n : Nat) (t : Token) :
    Tells ts t A (block body n) (· = .fresh) := by
  apply (Tells.expect_precedes .blockOpen rfl).bind
  intro _ u
  apply Tells.rest_bind rests_enter
  intro _
  apply (Tells.repeatWhile h 1 n u).bind
  intro _ v
  apply Tells.rest_bind rests_leave
  intro _
  exact (Tells.expect_precedes .blockClose rfl).bind fun _ _ => .rest (rests_pure ())

theorem tells_loop {A : Moment → Prop} {body : Pass Unit}
    (h : ∀ t, Tells ts t (· = .fresh) body (· = .fresh)) (n : Nat) (t : Token) :
    Tells ts t A (loop body n) (· = .fresh) := by
  apply (Tells.expect_plain .loopStart (by simp) rfl).bind
  intro _ u
  apply (Tells.expect_plain .conditionOpen (by simp) rfl).bind
  intro _ v
  apply Tells.hand_bind
  apply (tells_expression n v).inside.bind
  intro value w
  apply Tells.rest_bind (rests_demand _ _)
  intro _
  exact (Tells.expect_precedes .conditionClose rfl).bind fun _ x => h x

/-- A statement starts where a name leads it, and behind it another one can
start. -/
theorem tells_statement (n : Nat) (t : Token) :
    Tells ts t (· = .fresh) (statement n) (· = .fresh) := by
  induction n generalizing t with
  | zero => exact .exhausted
  | succ n ih =>
    apply Tells.hand_bind
    by_cases hn : t.kind.isName = true
    · rw [if_pos hn]
      apply Tells.lookahead hn
      intro k
      by_cases hk : k = .leftParen
      · rw [if_pos hk]
        exact (leads_call n).bind fun _ _ => (Tells.expect_precedes .callEnd rfl).bind fun _ _ =>
          .rest (rests_pure ())
      · rw [if_neg hk]
        exact (leads_assignment n).bind fun _ _ =>
          (Tells.expect_precedes .assignmentEnd rfl).bind fun _ _ => .rest (rests_pure ())
    · rw [if_neg hn]
      by_cases ht : t.kind.isTypeWord = true
      · rw [if_pos ht]
        exact tells_declarators n t
      · rw [if_neg ht]
        split
        · exact tells_block ih n t
        · exact tells_loop ih n t
        · rename_i hs
          exact (Tells.advance_precedes (by rw [hs]; rfl)).bind fun _ _ => .rest (rests_pure ())
        · exact .unexpected _

/-! ### Programs -/

theorem tells_parameter (t : Token) :
    Tells ts t (· ≠ .fresh) parameter fun _ => True := by
  apply (tells_typeWord t).bind
  intro type u
  have hname : Tells ts u (· ≠ .fresh) (expect .name .parameterName) (· = .inside) :=
    Tells.take_name (fun t (h : t.kind = .name) => by rw [h]; rfl) .parameterName
  exact hname.inside.bind fun name _ => (Tells.rest (rests_pure _)).anyway

theorem tells_parameters (n : Nat) (t : Token) :
    Tells ts t (· ≠ .fresh) (parameters n) fun _ => True := by
  apply Tells.hand_bind
  by_cases ht : t.kind.isTypeWord = true
  · rw [if_pos ht]
    apply (Tells.separated (fun _ => tells_parameter) 1 n t).bind
    intro ps u
    apply Tells.hand_bind
    by_cases hu : u.kind.isTypeWord = true
    · rw [if_pos hu]
      exact .unexpected _
    · rw [if_neg hu]
      exact .rest (rests_pure ps)
  · rw [if_neg ht]
    exact (Tells.rest (rests_pure [])).anyway

theorem tells_function {A : Moment → Prop} (n : Nat) (t : Token) :
    Tells ts t A (function n) (· = .fresh) := by
  apply (Tells.expect_plain .functionStart (by simp) rfl).bind
  intro _ u
  apply (tells_expectName .functionName u).inside.bind
  intro name u
  apply (Tells.expect_plain .parametersOpen (by simp) rfl).bind
  intro _ u
  apply (tells_parameters n u).inside.bind
  intro ps u
  apply (Tells.expect_precedes .parametersClose rfl).bind
  intro _ u
  apply Tells.rest_bind (rests_declare _ _)
  intro _
  apply Tells.rest_bind (rests_headed _ _)
  intro _
  apply Tells.rest_bind rests_enter
  intro _
  apply Tells.rest_bind (rests_declareParameters 1 ps)
  intro _
  apply (Tells.expect_precedes .bodyOpen rfl).bind
  intro _ u
  apply (Tells.repeatWhile (tells_statement n) 1 n u).bind
  intro _ u
  exact (Tells.expect_precedes .bodyClose rfl).bind fun _ _ => .rest rests_leave

theorem tells_declaration {A : Moment → Prop} (n : Nat) (t : Token) :
    Tells ts t A (declaration n) (· = .fresh) := by
  apply Tells.hand_bind
  by_cases ht : t.kind = .voidWord
  · rw [if_pos ht]
    exact tells_function n t
  · rw [if_neg ht]
    exact tells_declarators n t

theorem tells_declarations (n : Nat) (t : Token) :
    Tells ts t (fun _ => True) (declarations n) fun _ => True := by
  apply (Tells.repeatWhile (fun u => (tells_declaration n u).anyway) 1 n t).bind
  intro _ u
  apply Tells.hand_bind
  by_cases hu : u.kind = .name
  · rw [if_pos hu]
    exact .unexpected _
  · rw [if_neg hu]
    exact .rest (rests_pure ())

end

end Pass

end OnePass
