-- The steps of the grammar are orderly, one law for each: what moves no token,
-- what takes one, a production, a round, and the repetitions.
import OnePass.Proofs.Descent.Ranks

namespace OnePass

variable {α β : Type}

/-! ## What moves no token -/

/-- All moves but one leave the tokens where they are. -/
theorem Stand.still_perform {φ : Type} [Feed φ] (s : Stand φ) {m : Move} (hm : m ≠ .advance) :
    (s.perform m).stand.hand = s.hand ∧ (s.perform m).stand.feed = s.feed := by
  cases m with
  | advance => exact absurd rfl hm
  | peek =>
    refine ⟨hand_noteRead _ _, (feed_noteRead _ _).trans ?_⟩
    simp [Feed.peek_eq]
  | leave =>
    show s.leave.hand = s.hand ∧ s.leave.feed = s.feed
    unfold leave
    split <;> exact ⟨rfl, rfl⟩
  | declare x =>
    show (s.declare x).stand.hand = s.hand ∧ (s.declare x).stand.feed = s.feed
    unfold declare
    split <;> exact ⟨rfl, rfl⟩
  | _ => exact ⟨rfl, rfl⟩

theorem Stand.indexAfter_of_ne {φ : Type} (s : Stand φ) {m : Move} (hm : m ≠ .advance) (i : Nat) :
    s.indexAfter m i = i := by
  cases m with
  | advance => exact absurd rfl hm
  | _ => rfl

/-- The pass takes no token. -/
def Pass.Still : Pass α → Prop
  | done _ => True
  | reject _ => True
  | exhausted => True
  | ask m go => m ≠ .advance ∧ ∀ x, (go x).Still

namespace Pass

theorem still_lookup (name : String) : (lookup name).Still := ⟨nofun, fun _ => trivial⟩

theorem still_peek : peek.Still := ⟨nofun, fun _ => trivial⟩

theorem still_enter : enter.Still := ⟨nofun, fun _ => trivial⟩

theorem still_leave : leave.Still := ⟨nofun, fun _ => trivial⟩

theorem still_headed (name : String) (n : Nat) : (headed name n).Still :=
  ⟨nofun, fun _ => trivial⟩

theorem still_demand (c : Except Violation α) (t : Token) : (demand c t).Still := by
  cases c <;> trivial

theorem still_declare (x : Symbol) (t : Token) : (declare x t).Still := by
  refine ⟨nofun, fun free => ?_⟩
  cases free <;> trivial

end Pass

namespace Descent.Descends

variable {t : Token} {r i : Nat} {Q : α → Nat → Prop}

theorem still_bind {p : Pass β} {q : β → Descent α} (hp : p.Still)
    (hq : ∀ b, Descends t r i (q b) Q) : Descends t r i (lift p >>= q) Q := by
  intro φ _ s fs ht hroom
  show ((lift p).andThen q).Orderly _ s i fs
  induction p generalizing s with
  | done b => exact hq b φ s fs ht hroom
  | reject r => trivial
  | exhausted => trivial
  | ask m go ih =>
    refine ⟨fun hm => absurd hm hp.1, fun x s' hx => ?_⟩
    rw [s.indexAfter_of_ne hp.1]
    have hhand := (s.still_perform hp.1).1
    rw [hx] at hhand
    exact ih x (hp.2 x) s' (hhand.trans ht)

theorem still {p : Pass α} (hp : p.Still) : Goes t r i (lift p) := by
  rw [← bind_pure p, lift_bind]
  exact still_bind hp goes_pure

theorem unexpected (e : Expectation) : Descends t r i (lift (Pass.unexpected e) : Descent α) Q :=
  fun _ _ _ _ _ _ => ⟨nofun, fun _ _ _ => trivial⟩

theorem refuse (v : Violation) (u : Token) :
    Descends t r i (lift (Pass.refuse v u) : Descent α) Q := fun _ _ _ _ _ _ => trivial

theorem hand_bind {q : Token → Descent α} (h : Descends t r i (q t) Q) :
    Descends t r i (lift Pass.hand >>= q) Q := by
  intro φ _ s fs ht hroom
  refine ⟨nofun, fun x s' hx => ?_⟩
  cases hx
  rw [ht]
  exact h φ s fs ht hroom

/-! ## What takes one -/

theorem advance (ht : t.kind ≠ .finish) : Reads t r i (lift Pass.advance) := by
  rintro φ _ s fs rfl _
  refine ⟨nofun, fun x s' hx => ⟨fun _ hk => ?_, fun y s'' hy => ?_⟩⟩
  all_goals cases hx
  · exact absurd hk ht
  · have hj : s.indexAfter .advance i = i + 1 := if_neg ht
    refine ⟨rfl, ?_⟩
    show i ≤ s.indexAfter .advance i ∧ i < s.indexAfter .advance i
    omega

/-- A token that passes a test which the finish does not pass. -/
theorem take {test : Token → Prop} [DecidablePred test] (h : ∀ t, test t → t.kind ≠ .finish)
    (e : Expectation) :
    Reads t r i (lift (Pass.hand >>= fun t =>
      if test t then Pass.advance else Pass.unexpected e)) := by
  rw [lift_bind]
  apply hand_bind
  split
  · exact advance (h t ‹_›)
  · exact unexpected e

theorem expect {k : Kind} (hk : k ≠ .finish) (e : Expectation) :
    Reads t r i (lift (Pass.expect k e)) := take (fun t (ht : t.kind = k) => ht ▸ hk) e

theorem expectName (e : Expectation) : Reads t r i (lift (Pass.expectName e)) :=
  take (fun _ => Kind.ne_finish_of_isName) e

/-- Takes the token that ends a production. -/
theorem expect_last {k : Kind} (hk : k ≠ .finish) (e : Expectation) :
    Goes t r i (lift (Pass.expect k e) >>= fun _ => pure ()) :=
  (expect hk e).goes.bind fun _ _ _ => goes_pure ()

theorem accept {k : Kind} (hk : k ≠ .finish) : Goes t r i (lift (Pass.accept k)) := by
  unfold Pass.accept
  rw [lift_bind]
  apply hand_bind
  split
  · rename_i ht
    rw [lift_bind]
    exact (advance (ht ▸ hk)).goes.bind fun _ _ _ => goes_pure true
  · exact goes_pure false

/-! ## Marks -/

/-- What has started is over at the end. -/
theorem marked (site : Site) {d : Descent α} (hlow : site.rank < ranks)
    (hnumber : site.number ≤ i + 1) (hd : Descends t site.rank i d Q)
    (hpass : ∀ a j, Q a j → Frame.Passed ⟨site, i⟩ j) :
    Descends t (site.rank + 1) i (within site d) Q := by
  intro φ _ s fs ht hroom
  refine ⟨⟨hlow, hroom, hnumber⟩, (hd φ s _ ht (room_cons ⟨site, i⟩)).bind ?_⟩
  rintro a s' j gs ⟨rfl, hij, ha⟩
  exact ⟨_, fs, rfl, hpass a j ha, rfl, hij, ha⟩

theorem call {p : Production} {d : Descent α} (hlow : p.rank < ranks)
    (hd : Descends t p.rank i d Q) : Descends t (p.rank + 1) i (within (.call p) d) Q :=
  marked (.call p) hlow (Nat.zero_le _) hd fun _ _ _ _ _ h => nomatch h

/-- A round that reads. -/
theorem round {l : Repetition} {k : Nat} {d : Descent α} (hk : k ≤ i + 1)
    (hd : Reads t l.rank i d) : Reads t (l.rank + 1) i (within (.round l k) d) :=
  marked (.round l k) l.rank_lt hk hd fun _ _ hij _ _ _ _ => hij

/-! ## Repetitions -/

theorem repeatWhile (l : Repetition) {opens : Kind → Bool} {body : Descent Unit}
    (hbody : ∀ u j, Reads u l.rank j body) (t : Token) (i k n : Nat) (hk : k ≤ i + 1) :
    Goes t (l.rank + 1) i (Parse.repeatWhile l opens body k n) := by
  induction n generalizing t i k with
  | zero => exact descends_exhausted
  | succ n ih =>
    apply hand_bind
    split
    · refine (round hk (hbody t i)).before fun _ j u hij => ?_
      exact (ih u j (k + 1) (by omega)).raise l.rank_lt
    · exact goes_pure ()

/-- Every item puts a token away. So there are not more items than tokens
were. -/
theorem separated (l : Repetition) {item : Nat → Descent α}
    (hitem : ∀ k u j, Reads u l.rank j (item k)) (t : Token) (i k n : Nat) (hk : k ≤ i + 1) :
    Descends t (l.rank + 1) i (Parse.separated l item k n) fun as j => i < j ∧ as.length + i ≤ j := by
  induction n generalizing t i k with
  | zero => exact descends_exhausted
  | succ n ih =>
    have hround : Reads t l.rank i
        (item k >>= fun a => lift (Pass.accept .comma) >>= fun more => pure (a, more)) :=
      (hitem k t i).bind fun a j u => (accept (by simp)).bind fun more j u => goes_pure (a, more)
    refine (round hk hround).before fun round j u hij => ?_
    split
    · refine ((ih u j (k + 1) (by omega)).raise l.rank_lt).bind fun as m v _ h => ?_
      apply descends_done
      simp
      omega
    · apply descends_done
      simp
      omega

theorem chain {tier : List Operator} {operand : Descent ValueType}
    (hop : ∀ u j, Goes u ranks j operand) (t : Token) (i k n : Nat) (left : ValueType)
    (hk : k ≤ i + 1) : Goes t (Repetition.operators.rank + 1) i
      (Parse.chain tier operand k n left) := by
  induction n generalizing t i k left with
  | zero => exact descends_exhausted
  | succ n ih =>
    apply hand_bind
    split
    · rename_i ht
      have hround : Reads t Repetition.operators.rank i (lift Pass.advance >>= fun _ =>
          operand >>= fun right => lift (Pass.demand (checkOperands left t right) t)) :=
        (advance (Kind.ne_finish_of_isOperatorOf ht)).bind fun _ j u => (hop u j).bind
          fun right j u => still (Pass.still_demand _ _)
      refine (round hk hround).before fun type j u hij => ?_
      exact (ih u j (k + 1) type (by omega)).raise (by decide)
    · exact goes_pure left

end Descent.Descends

end OnePass
