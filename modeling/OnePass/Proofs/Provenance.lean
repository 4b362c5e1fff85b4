-- Where a rejection comes from. It points at a token of the text to which the
-- pass had come. An invalid token is to blame as soon as it comes into hand,
-- so nothing else is wrong at it or behind it. What cannot be read, or cannot
-- stand where it does, is turned down whatever follows.
import OnePass.Proofs.Blame
import OnePass.Proofs.Lexicon.Coverage
import OnePass.Report.Complaint

namespace OnePass

open Grammar Lexicon

/-! ## Where the pass stops -/

/-- The analysis of a text is over with the token `t` of the index `j` in
hand. -/
structure Halted (source : String) (r : Rejection) (j : Nat) (t : Token) : Prop where
  hand : (tokenize source)[j]? = some t
  /-- What was put away is valid. -/
  valid : ∀ i < j, ∀ u, (tokenize source)[i]? = some u → u.kind.fault? = none
  cause : t.kind.fault? = none ∧ (∃ v, r.cause = .meaning v) ∨ Blames t r
  /-- Any text with the same tokens so far is turned down for the same cause,
  at the token of the same index. -/
  settled : ∀ other, List.Forall₂ Token.Alike ((tokenize source).take (j + 1))
      ((tokenize other).take (j + 1)) →
    ∃ (u : Token) (i : Nat), i ≤ j ∧ (analyze other).verdict = .error ⟨r.cause, u⟩ ∧
      (tokenize source)[i]? = some r.token ∧ (tokenize other)[i]? = some u

theorem exists_halted {source : String} {r : Rejection}
    (h : (analyze source).verdict = .error r) : ∃ j t, Halted source r j t := by
  rw [← examine_reel] at h
  obtain ⟨s, hs⟩ := verdict_eq_error_iff.1 h
  have ho := judges_whole (reel source) #[.started (Text.bytes source.toList)]
  rw [hs] at ho
  obtain ⟨x, ts, ws, more, hx, hus, hholds, hr⟩ := ho
  have hT : tokenize source = ts ++ s.hand :: more := by rw [← tokens_reel, hus]
  have hlength := congrArg List.length hus
  rw [Reel.length_tokens, List.length_append, List.length_cons] at hlength
  have hleft : s.left = more.length := Nat.succ.inj hholds.left
  refine ⟨ts.length, s.hand, ?_, ?_, ?_, ?_⟩
  · rw [hT]
    simp
  · intro i hi u hu
    rw [hT, List.getElem?_append_left hi] at hu
    apply x.fault?_eq_none
    rw [hx]
    exact List.mem_append_left _ (List.mem_of_getElem? hu)
  · exact hr.imp_left fun h => ⟨h.1, Program.cause_of_meaning h.2⟩
  · intro other hother
    have hside : SideBySide id (reel source) (reel other) ts.length := by
      apply SideBySide.of_take
      · omega
      · rw [tokens_reel, tokens_reel]
        exact hother.imp fun _ _ => Token.Alike.renamed
    obtain ⟨u, hu, i, hi, h1, h2⟩ := hside.rejected Function.injective_id hs
      (b := #[.started (Text.bytes other.toList)]) (by omega)
    rw [examine_reel, Cause.rename_id] at hu
    rw [tokens_reel] at h1 h2
    exact ⟨u, i, hi, hu, h1, h2⟩

/-! ## The law -/

/-- A complaint tells the line, the spelling and the place of a token. -/
structure Complaint.PointsAt (c : Complaint) (t : Token) : Prop where
  line : c.line = t.line
  lexeme : c.lexeme = t.text
  span : c.span? = some t.span

theorem Rejection.complaint_pointsAt (r : Rejection) : r.complaint.PointsAt r.token :=
  ⟨rfl, rfl, rfl⟩

/-- The complaint is about the token `t`, which has the index `j` in the
text. -/
structure About (source : String) (c : Complaint) (j : Nat) (t : Token) : Prop where
  token : (tokenize source)[j]? = some t
  points : c.PointsAt t
  lexical_iff : c.stage? = some .lexical ↔ t.kind.isInvalid = true
  /-- A complaint about the spelling is about the first invalid token, and
  tells its fault. -/
  spelling : ∀ f, t.kind.fault? = some f → c.message = f.message ∧
    ∀ (i : Nat) u, (tokenize source)[i]? = some u → u.kind.isInvalid = true → j ≤ i
  /-- Any other complaint is about a token before the first invalid one. -/
  sense : c.stage? ≠ some .lexical →
    ∀ (i : Nat) u, (tokenize source)[i]? = some u → u.kind.isInvalid = true → j < i
  /-- Unless it is about the meaning, the complaint is the same whatever
  follows the token. -/
  settled : c.stage? ≠ some .semantic → ∀ other,
    List.Forall₂ Token.Alike ((tokenize source).take (j + 1)) ((tokenize other).take (j + 1)) →
    ∃ q u, (analyze other).verdict = .error q ∧ (tokenize other)[j]? = some u ∧
      q.complaint.PointsAt u ∧ q.complaint.stage? = c.stage? ∧
      q.complaint.message = c.message ∧ q.complaint.lexeme = c.lexeme

theorem Kind.isInvalid_of_fault? {k : Kind} (h : k.fault? = none) : k.isInvalid = false := by
  cases k <;> first | rfl | cases h

variable {source : String} {r : Rejection} {j : Nat} {t : Token}

namespace Halted

/-- The token to blame is in hand or was put away before. -/
theorem token (h : Halted source r j t) : ∃ i ≤ j, (tokenize source)[i]? = some r.token := by
  have hself : List.Forall₂ Token.Alike ((tokenize source).take (j + 1))
      ((tokenize source).take (j + 1)) := by
    rw [List.forall₂_same]
    exact fun _ _ => ⟨rfl, rfl⟩
  obtain ⟨-, i, hi, -, hr, -⟩ := h.settled source hself
  exact ⟨i, hi, hr⟩

/-- No invalid token stands before the token in hand. -/
theorem le_of_isInvalid (h : Halted source r j t) {i : Nat} {u : Token}
    (hu : (tokenize source)[i]? = some u) (hi : u.kind.isInvalid = true) : j ≤ i := by
  rcases Nat.lt_or_ge i j with hlt | hge
  · rw [Kind.isInvalid_of_fault? (h.valid i hlt u hu)] at hi
    cases hi
  · exact hge

theorem lt_of_isInvalid (h : Halted source r j t) (ht : t.kind.fault? = none) {i : Nat}
    {u : Token} (hu : (tokenize source)[i]? = some u) (hi : u.kind.isInvalid = true) : j < i := by
  refine Nat.lt_of_le_of_ne (h.le_of_isInvalid hu hi) ?_
  rintro rfl
  cases h.hand.symm.trans hu
  rw [Kind.isInvalid_of_fault? ht] at hi
  cases hi

/-- The token in hand is blamed whatever follows it. -/
theorem settled_of_blames (h : Halted source r j t) (hr : r.token = t) {other : String}
    (hother : List.Forall₂ Token.Alike ((tokenize source).take (j + 1))
      ((tokenize other).take (j + 1))) :
    ∃ q u, (analyze other).verdict = .error q ∧ (tokenize other)[j]? = some u ∧
      q.complaint.PointsAt u ∧ q.complaint.stage? = r.complaint.stage? ∧
      q.complaint.message = r.complaint.message ∧ q.complaint.lexeme = r.complaint.lexeme := by
  obtain ⟨u, i, hi, hq, ht, hu⟩ := h.settled other hother
  rw [hr] at ht
  obtain rfl := index_unique ht h.hand
  refine ⟨_, u, hq, hu, Rejection.complaint_pointsAt _, rfl, rfl, ?_⟩
  have halike : t.Alike u := by
    rw [← List.getElem?_take_of_lt (Nat.lt_succ_self i)] at ht hu
    obtain ⟨hit, rfl⟩ := List.getElem?_eq_some_iff.1 ht
    obtain ⟨hiu, rfl⟩ := List.getElem?_eq_some_iff.1 hu
    exact hother.get hit hiu
  show u.text = r.token.text
  rw [hr]
  exact halike.2

/-- What the token in hand is blamed for is a complaint about it. -/
theorem about_of_blames (h : Halted source r j t) (hr : Blames t r) :
    About source r.complaint j t := by
  have htoken : r.token = t := by cases hr <;> rfl
  refine ⟨h.hand, htoken ▸ r.complaint_pointsAt, ?_, ?_, ?_, fun _ _ => h.settled_of_blames htoken⟩
  · cases hr with
    | spelling hf => exact ⟨fun _ => (Kind.isInvalid_iff _).2 ⟨_, hf⟩, fun _ => rfl⟩
    | grammar hf =>
      rw [Kind.isInvalid_of_fault? hf]
      exact ⟨nofun, nofun⟩
  · intro f hf
    refine ⟨?_, fun i u => h.le_of_isInvalid⟩
    cases hr with
    | spelling hf' =>
      cases hf.symm.trans hf'
      rfl
    | grammar hf' =>
      rw [hf'] at hf
      cases hf
  · intro hstage i u hu hi
    cases hr with
    | spelling => exact absurd rfl hstage
    | grammar hf => exact h.lt_of_isInvalid hf hu hi

/-- What is wrong with the meaning is wrong at the token in hand, or at one
that was put away. -/
theorem about_of_meaning (h : Halted source r j t) (ht : t.kind.fault? = none) {v : Violation}
    (hv : r.cause = .meaning v) : ∃ i, About source r.complaint i r.token := by
  obtain ⟨i, hi, hr⟩ := h.token
  have hlt : ∀ (k : Nat) u, (tokenize source)[k]? = some u → u.kind.isInvalid = true → i < k :=
    fun k u hu hk => Nat.lt_of_le_of_lt hi (h.lt_of_isInvalid ht hu hk)
  have hstage : r.complaint.stage? = some .semantic := by
    show some r.cause.stage = _
    rw [hv]
    rfl
  have hvalid : r.token.kind.isInvalid ≠ true := fun hk => Nat.lt_irrefl i (hlt i _ hr hk)
  refine ⟨i, hr, r.complaint_pointsAt, ?_, ?_, fun _ => hlt, ?_⟩
  · rw [hstage]
    exact ⟨nofun, fun hk => absurd hk hvalid⟩
  · intro f hf
    exact absurd ((Kind.isInvalid_iff _).2 ⟨f, hf⟩) hvalid
  · intro hne
    exact absurd hstage hne

end Halted

theorem token_mem_of_verdict (h : (analyze source).verdict = .error r) :
    r.token ∈ tokenize source := by
  obtain ⟨j, t, hhalted⟩ := exists_halted h
  obtain ⟨i, -, hi⟩ := hhalted.token
  exact List.mem_of_getElem? hi

/-- Every complaint is about a token of the text. -/
theorem every_complaint_is_about_a_token (h : (analyze source).verdict = .error r) :
    ∃ j t, About source r.complaint j t := by
  obtain ⟨j, t, hhalted⟩ := exists_halted h
  rcases hhalted.cause with ⟨ht, v, hv⟩ | hr
  · obtain ⟨i, hi⟩ := hhalted.about_of_meaning ht hv
    exact ⟨i, r.token, hi⟩
  · exact ⟨j, t, hhalted.about_of_blames hr⟩

/-- No token starts with an exclamation mark alone. -/
theorem an_exclamation_mark_is_complained_about :
    (analyze "int x = 1 ! 2;").verdict =
        .error ⟨.spelling .strayCharacter, ⟨.invalid .strayCharacter, "!", 1, ⟨10, 11⟩⟩⟩ ∧
      ∃ j t, About "int x = 1 ! 2;"
        (Rejection.complaint
          ⟨.spelling .strayCharacter, ⟨.invalid .strayCharacter, "!", 1, ⟨10, 11⟩⟩⟩) j t := by
  have h : (analyze "int x = 1 ! 2;").verdict =
      .error ⟨.spelling .strayCharacter, ⟨.invalid .strayCharacter, "!", 1, ⟨10, 11⟩⟩⟩ := by
    decide +kernel
  exact ⟨h, every_complaint_is_about_a_token h⟩

end OnePass
