-- Completeness goes on from expressions to statements.
import OnePass.Proofs.Grammar.Completeness.Expression

namespace OnePass

open Grammar

variable {α β : Type}

/-! ## Lists with commas -/

/-- A comma, a semicolon or a closing parenthesis comes next: what ends an
item of a list. -/
def Closes (more : List Token) : Prop :=
  ∃ t ts, more = t :: ts ∧ (t.kind = .comma ∨ t.kind = .semicolon ∨ t.kind = .rightParen)

theorem Closes.stops {tiers : List (List Operator)} {more : List Token} (h : Closes more) :
    Stops tiers more := by
  obtain ⟨t, ts, rfl, ht⟩ := h
  apply Stops.of_kind
  intro o ho
  rw [ho] at ht
  simp at ht

theorem Closes.comma (t : Of .comma) (ts : List Token) : Closes (t.1 :: ts) :=
  ⟨t.1, ts, rfl, Or.inl t.2⟩

theorem Closes.semicolon (t : Of .semicolon) (ts : List Token) : Closes (t.1 :: ts) :=
  ⟨t.1, ts, rfl, Or.inr (Or.inl t.2)⟩

theorem Closes.rightParen (t : Of .rightParen) (ts : List Token) : Closes (t.1 :: ts) :=
  ⟨t.1, ts, rfl, Or.inr (Or.inr t.2)⟩

/-- Items conform one by one, and so does the list of them, if no comma
follows it. -/
theorem Conforms.separated {l : Repetition} {item : Nat → Pass α} {spell : β → List Token}
    {c : Nat → β → Check α} (h : ∀ i x us, Closes us → Conforms (item i) (spell x) us (c i x))
    {t : Token} {ts : List Token} (hc : Closes (t :: ts)) (ht : t.kind ≠ .comma) :
    ∀ (xs : List (Of .comma × β)) (x : β) (i n : Nat),
      Conforms (Parse.separated l item i n) ((Commas.mk x xs).spelling spell) (t :: ts)
        (collect c i (Commas.mk x xs).toList)
  | _, _, _, 0 => .exhausted _ _
  | [], x, i, n + 1 => by
    show Conforms _ (spell x ++ []) _ (collect c i [x])
    rw [Pass.separated_succ, collect]
    apply (h i x (t :: ts) hc).bind
    intro a
    rw [collect, pure_bind]
    apply (Conforms.accept_other rfl ht).bind_pure (l := []) (m := [])
    exact .pure [a]
  | (comma, y) :: xs, x, i, n + 1 => by
    have hs : (Commas.mk x ((comma, y) :: xs)).spelling spell =
        spell x ++ ([comma.1] ++ (Commas.mk y xs).spelling spell) := by
      simp [Commas.spelling]
    have hl : (Commas.mk x ((comma, y) :: xs)).toList = x :: (Commas.mk y xs).toList := rfl
    rw [hs, hl, Pass.separated_succ, collect]
    apply (h i x _ (Closes.comma comma _)).bind
    intro a
    apply (Conforms.accept comma (by simp)).bind_pure
    rw [if_pos rfl]
    apply (Conforms.separated h hc ht xs y (i + 1) n).bind_last
    intro as
    exact .pure (a :: as)

/-! ## Variables -/

theorem conforms_typeWord {more : List Token} (t : TypeWord) :
    Conforms Parse.typeWord [t.1] more (pure t.1.kind.wordType) := by
  apply Conforms.hand_bind List.singleton_append
  rw [if_pos t.2]
  exact (Conforms.advance (Kind.ne_finish_of_isTypeWord t.2)).bind_pure (m := []) (.pure _)

theorem conforms_item (n : Nat) (type : ValueType) (x : Item) (more : List Token)
    (h : Closes more) : Conforms (Parse.declarator n type) x.spelling more (x.check type) := by
  cases x with
  | bare t =>
    rw [Item.spelling, Item.check, ← bind_pure (Check.declare _ _)]
    refine Conforms.bind_pure (m := []) (.expectName _ t) ?_
    apply (Conforms.declare _ _).bind_nil
    intro _
    obtain ⟨u, us, rfl, hu⟩ := h
    have ha : u.kind ≠ .assign := by
      intro ha
      rw [ha] at hu
      simp at hu
    exact (Conforms.accept_other rfl ha).bind_pure (m := []) (.pure ())
  | valued t sign e =>
    rw [Item.spelling, Item.check]
    refine Conforms.bind_pure (l := [t.1]) (.expectName _ t) ?_
    apply (Conforms.declare _ _).bind_nil
    intro _
    refine Conforms.bind_pure (l := [sign.1]) (.accept sign (by simp)) ?_
    rw [if_pos rfl]
    apply (conforms_expression n e more h.stops).bind_last
    intro value
    exact .demand _ _

theorem conforms_names (n : Nat) (type : ValueType) (xs : Commas Item) (stop : Of .semicolon)
    (more : List Token) :
    Conforms (Parse.names n type) (xs.spelling Item.spelling) (stop.1 :: more)
      (forM xs.toList fun i => i.check type) := by
  obtain ⟨first, others⟩ := xs
  have hsep := Conforms.separated (l := .names) (fun _ y us hus => conforms_item n type y us hus)
    (Closes.semicolon stop more) (by rw [stop.2]; simp) others first 1 n
  rw [collect_unit, forM_zipIdx] at hsep
  have h := hsep.bind_last fun _ => Conforms.pure ()
  simp only [bind_assoc, pure_bind, bind_pure_unit] at h
  exact h

theorem conforms_variables (n : Nat) (x : Variables) (more : List Token) :
    Conforms (Parse.declarators n) x.spelling more x.check := by
  obtain ⟨word, items, stop⟩ := x
  rw [Variables.spelling, Variables.check, ← bind_pure (forM _ _)]
  refine Conforms.bind_pure (l := [word.1]) (conforms_typeWord word) ?_
  apply (conforms_names n word.1.kind.wordType items stop more).bind
  intro _
  exact (Conforms.expect _ stop (by simp)).bind_pure (m := []) (.pure ())

/-! ## Statements -/

theorem conforms_argument (n : Nat) (f : Symbol) (i : Nat) (x : Expression) (more : List Token)
    (h : Stops Operator.tiers more) :
    Conforms (Pass.argument n f i) x.spelling more (checkArgumentOf f i x) := by
  obtain ⟨ts, hts⟩ := x.spelling_eq
  apply Conforms.hand_bind (t := x.head) (m := ts ++ more)
  · rw [hts]
    rfl
  · apply (conforms_expression n x more h).bind_last
    intro value
    exact .demand _ _

theorem conforms_arguments (n : Nat) (f : Symbol) (name : Token)
    (args : Option (Commas Expression)) (r : Of .rightParen) (more : List Token) :
    Conforms (Parse.arguments n f name) (spellArguments args) (r.1 :: more) (do
      checkArguments f (argumentList args)
      Check.demand (checkCount f (argumentList args).length) name) := by
  cases args with
  | none =>
    rw [spellArguments]
    apply Conforms.hand_bind (l := []) rfl
    rw [if_pos r.2]
    exact .demand _ _
  | some xs =>
    obtain ⟨first, others⟩ := xs
    obtain ⟨ts, hts⟩ := first.spelling_eq
    rw [spellArguments]
    apply Conforms.hand_bind (t := first.head)
      (m := ts ++ (others.flatMap fun x => x.1.1 :: x.2.spelling) ++ r.1 :: more)
    · simp [Commas.spelling, hts]
    · have hk : first.head.kind ≠ .rightParen := first.head_ne_rightParen
      rw [if_neg hk]
      have hsep := Conforms.separated (l := .arguments)
        (fun i x us (hus : Closes us) => conforms_argument n f i x us hus.stops)
        (Closes.rightParen r more) (by rw [r.2]; simp) others first 1 n
      rw [collect_unit] at hsep
      have h := hsep.bind_last fun given =>
        Conforms.demand (checkCount f given.length) name
      simpa [checkArguments, argumentList] using h

theorem conforms_call (n : Nat) (t : Name) (l : Of .leftParen)
    (args : Option (Commas Expression)) (r : Of .rightParen) (more : List Token) :
    Conforms (Parse.call n) (t.1 :: l.1 :: (spellArguments args ++ [r.1])) more
      (checkCall t.1 (argumentList args)) := by
  rw [checkCall]
  refine Conforms.bind_pure (l := [t.1]) (.expectName _ t) ?_
  apply (Conforms.lookup t.1.text).bind_nil
  intro x
  cases x with
  | none => exact .refuse _ _ _
  | some f =>
    dsimp only
    by_cases hf : f.role.isFunction = true
    · rw [if_pos hf, if_pos hf]
      refine Conforms.bind_pure (l := [l.1]) (.expect _ l (by simp)) ?_
      rw [← bind_pure (checkArguments f (argumentList args) >>= _)]
      apply (conforms_arguments n f t.1 args r more).bind
      intro _
      exact (Conforms.expect _ r (by simp)).bind_pure (m := []) (.pure ())
    · rw [if_neg hf, if_neg hf]
      exact .refuse _ _ _

theorem conforms_assignment (n : Nat) (t : Name) (sign : Of .assign) (e : Expression)
    (more : List Token) (h : Closes more) :
    Conforms (Parse.assignment n) (t.1 :: sign.1 :: e.spelling) more (checkAssign t.1 e) := by
  rw [checkAssign]
  refine Conforms.bind_pure (l := [t.1]) (.expectName _ t) ?_
  apply (Conforms.lookup t.1.text).bind_nil
  intro x
  cases x with
  | none => exact .refuse _ _ _
  | some target =>
    refine Conforms.bind_pure (l := [sign.1]) (.expect _ sign (by simp)) ?_
    apply (conforms_expression n e more h.stops).bind_last
    intro value
    exact .demand _ _

/-- A statement starts with a token that can open one. -/
theorem Grammar.Statement.spelling_eq (x : Statement) :
    ∃ t ts, x.spelling = t :: ts ∧ t.kind.opensStatement = true := by
  cases x with
  | assign t s e stop =>
    rw [Statement.spelling]
    exact ⟨_, _, rfl, by simp [Kind.opensStatement, t.2]⟩
  | call t l args r stop =>
    rw [Statement.spelling]
    exact ⟨_, _, rfl, by simp [Kind.opensStatement, t.2]⟩
  | block l body r =>
    rw [Statement.spelling]
    exact ⟨_, _, rfl, by simp [Kind.opensStatement, l.2]⟩
  | loop w l e r body =>
    rw [Statement.spelling]
    exact ⟨_, _, rfl, by simp [Kind.opensStatement, w.2]⟩
  | declare x =>
    rw [Statement.spelling, Variables.spelling]
    exact ⟨_, _, rfl, by simp [Kind.opensStatement, x.word.2]⟩
  | empty stop =>
    rw [Statement.spelling]
    exact ⟨_, _, rfl, by simp [Kind.opensStatement, stop.2]⟩

mutual

theorem conforms_statement : ∀ (x : Statement) (n : Nat) (more : List Token),
    Conforms (Pass.statement n) x.spelling more x.check
  | _, 0, _ => .exhausted _ _
  | .assign t s e stop, n + 1, more => by
    rw [Statement.spelling, Statement.check]
    apply Conforms.hand_bind (t := t.1) rfl
    rw [if_pos t.2]
    apply Conforms.peek_bind (t := t.1) (u := s.1) rfl
    rw [s.2, if_neg (by simp)]
    have hstop : Conforms (do
        let _ ← Pass.expect .semicolon .assignmentEnd
        return ()) [stop.1] more (pure ()) :=
      (Conforms.expect _ stop (by simp)).bind_pure (m := []) (.pure ())
    have h := (conforms_assignment n t s e _ (Closes.semicolon stop more)).bind fun _ => hstop
    simpa using h
  | .call t l args r stop, n + 1, more => by
    rw [Statement.spelling, Statement.check]
    apply Conforms.hand_bind (t := t.1) rfl
    rw [if_pos t.2]
    apply Conforms.peek_bind (t := t.1) (u := l.1) rfl
    rw [if_pos l.2]
    have hstop : Conforms (do
        let _ ← Pass.expect .semicolon .callEnd
        return ()) [stop.1] more (pure ()) :=
      (Conforms.expect _ stop (by simp)).bind_pure (m := []) (.pure ())
    have h := (conforms_call n t l args r _).bind fun _ => hstop
    simpa using h
  | .block l body r, n + 1, more => by
    rw [Statement.spelling, Statement.check]
    apply Conforms.hand_bind (t := l.1) rfl
    rw [l.2]
    refine Conforms.bind_pure (l := [l.1]) (.expect _ l (by simp)) ?_
    apply Conforms.enter.bind_nil
    intro _
    apply (conforms_body body n 1 n (r.1 :: more) ⟨r.1, more, rfl, by rw [r.2]; rfl⟩).bind
    intro _
    rw [← bind_pure Check.leave]
    apply Conforms.leave.bind_nil
    intro _
    exact (Conforms.expect _ r (by simp)).bind_pure (m := []) (.pure ())
  | .loop w l e r body, n + 1, more => by
    obtain ⟨ts, hts⟩ := e.spelling_eq
    rw [Statement.spelling, Statement.check]
    apply Conforms.hand_bind (t := w.1) rfl
    rw [w.2]
    refine Conforms.bind_pure (l := [w.1]) (.expect _ w (by simp)) ?_
    refine Conforms.bind_pure (l := [l.1]) (.expect _ l (by simp)) ?_
    apply Conforms.hand_bind (t := e.head) (m := ts ++ r.1 :: body.spelling ++ more)
    · rw [hts]
      rfl
    · apply (conforms_expression n e _ (Closes.rightParen r _).stops).bind
      intro value
      apply (Conforms.demand _ _).bind_nil
      intro _
      refine Conforms.bind_pure (l := [r.1]) (.expect _ r (by simp)) ?_
      exact conforms_statement body n more
  | .declare x, n + 1, more => by
    rw [Statement.spelling, Statement.check]
    apply Conforms.hand_bind (t := x.word.1) rfl
    have hn : ¬x.word.1.kind.isName = true := by
      have ht := x.word.2
      generalize x.word.1.kind = k at ht ⊢
      cases k <;> simp_all [Kind.isTypeWord, Kind.isName]
    rw [if_neg hn, if_pos x.word.2]
    exact conforms_variables n x more
  | .empty stop, n + 1, more => by
    rw [Statement.spelling, Statement.check]
    apply Conforms.hand_bind (t := stop.1) rfl
    rw [stop.2]
    exact (Conforms.advance (by rw [stop.2]; simp)).bind_pure (m := []) (.pure ())

theorem conforms_body : ∀ (xs : List Statement) (n k m : Nat) (more : List Token),
    (∃ t ts, more = t :: ts ∧ t.kind.opensStatement = false) →
    Conforms (Parse.repeatWhile .statements Kind.opensStatement (Pass.statement n) k m)
      (spellBody xs) more (checkBody xs)
  | _, _, _, 0, _, _ => .exhausted _ _
  | [], n, _, m + 1, more, h => by
    obtain ⟨t, ts, hm, ht⟩ := h
    rw [spellBody, checkBody]
    apply Conforms.hand_bind (l := []) hm
    rw [ht]
    exact .pure ()
  | x :: xs, n, k, m + 1, more, h => by
    obtain ⟨t, ts, hx, ht⟩ := x.spelling_eq
    rw [spellBody, checkBody]
    apply Conforms.hand_bind (t := t) (m := ts ++ spellBody xs ++ more)
    · rw [hx]
      rfl
    · rw [if_pos ht]
      apply (conforms_statement x n _).bind
      intro _
      exact conforms_body xs n (k + 1) m more h

end

end OnePass
