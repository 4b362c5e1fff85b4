-- The journal told again. Some entries say that something was done to the
-- scopes; done again, from the global scope on, all of it goes as the entries
-- say, and it leads to the scopes of the pass.
import OnePass.Analysis
import OnePass.Proofs.Promise
import OnePass.Proofs.Scopes.Chains

namespace OnePass

/-! ## Entries that are true -/

namespace Event

/-- What was done to the scopes, as the entry says. -/
def acts : Event → List Act
  | declared x _ => [.declare x]
  | entered .. => [.enter]
  | left _ => [.leave]
  | _ => []

/-- What the entry says is so when it is done to the scopes `s`. -/
def IsTrueOf (s : Scopes) : Event → Prop
  | declared x i => s.current = i ∧ (s.act (.declare x)).1 = .declared (some s.symbolCount)
  | entered i d => (s.act .enter).1 = .entered i ∧ (s.act .enter).2.depth i = d
  | left i => s.current = i ∧ (s.act .leave).1 = .left true
  | finished m n => s.scopeCount = m ∧ s.symbolCount = n
  | _ => True

/-- A scope was entered. -/
def isEntered : Event → Bool
  | entered .. => true
  | _ => false

/-- A symbol was declared. -/
def isDeclared : Event → Bool
  | declared .. => true
  | _ => false

end Event

namespace Scopes

/-- The scopes after all that some entries say. -/
def retold (s : Scopes) (es : List Event) : Scopes := s.after (es.flatMap Event.acts)

/-- All entries are true, each of the scopes to which those before it lead. -/
def Confirms : Scopes → List Event → Prop
  | _, [] => True
  | s, e :: es => e.IsTrueOf s ∧ (s.retold [e]).Confirms es

variable {s t : Scopes} {e : Event} {es fs : List Event}

@[simp] theorem retold_nil (s : Scopes) : s.retold [] = s := rfl

theorem retold_append (s : Scopes) (es fs : List Event) :
    s.retold (es ++ fs) = (s.retold es).retold fs := by
  unfold retold
  rw [List.flatMap_append, after_append]

theorem retold_cons (s : Scopes) (e : Event) (es : List Event) :
    s.retold (e :: es) = (s.retold [e]).retold es := s.retold_append [e] es

@[simp] theorem retold_entered (s : Scopes) (i d : Nat) : s.retold [.entered i d] = s.enter := rfl

@[simp] theorem retold_headed (s : Scopes) (f : String) (n : Nat) :
    s.retold [.headed f n] = s := rfl

theorem retold_left {i : Nat} (h : s.leave? = some t) : s.retold [.left i] = t := by
  show (s.act .leave).2 = t
  simp [act, h]

theorem retold_declared {x : Symbol} {i : Nat} (h : s.declare? x = some t) :
    s.retold [.declared x i] = t := by
  show (s.act (.declare x)).2 = t
  simp [act, h]

@[simp] theorem confirms_nil (s : Scopes) : s.Confirms [] := trivial

theorem confirms_append :
    s.Confirms (es ++ fs) ↔ s.Confirms es ∧ (s.retold es).Confirms fs := by
  induction es generalizing s with
  | nil => simp
  | cons e es ih => rw [List.cons_append, Confirms, Confirms, ih, retold_cons s e es, and_assoc]

theorem confirms_singleton : s.Confirms [e] ↔ e.IsTrueOf s := and_iff_left trivial

/-! ### What a true entry says -/

theorem isTrueOf_entered (s : Scopes) :
    (Event.entered s.enter.current (s.enter.depth s.enter.current)).IsTrueOf s := ⟨rfl, rfl⟩

/-- A symbol is declared where its name is free. -/
theorem isTrueOf_declared_iff {x : Symbol} {i : Nat} :
    (Event.declared x i).IsTrueOf s ↔ s.current = i ∧ ∃ t, s.declare? x = some t := by
  cases hd : s.declare? x <;> simp [Event.IsTrueOf, act, hd]

/-- A scope is left where there is another one around it. -/
theorem isTrueOf_left_iff {i : Nat} :
    (Event.left i).IsTrueOf s ↔ s.current = i ∧ ∃ t, s.leave? = some t := by
  cases hl : s.leave? <;> simp [Event.IsTrueOf, act, hl]

/-- The counts of scopes and symbols are those of the entries. -/
theorem counts_retold (h : s.Confirms es) :
    (s.retold es).scopeCount = s.scopeCount + es.countP Event.isEntered ∧
      (s.retold es).symbolCount = s.symbolCount + es.countP Event.isDeclared := by
  induction es generalizing s with
  | nil => exact ⟨rfl, rfl⟩
  | cons e es ih =>
    obtain ⟨he, hes⟩ := h
    obtain ⟨hscopes, hsymbols⟩ := ih hes
    have hone : (s.retold [e]).scopeCount = s.scopeCount + (if e.isEntered then 1 else 0) ∧
        (s.retold [e]).symbolCount = s.symbolCount + (if e.isDeclared then 1 else 0) := by
      cases e with
      | entered i d => exact ⟨s.scopeCount_enter, congrArg List.length s.symbols_enter⟩
      | declared x i =>
        obtain ⟨-, t, ht⟩ := isTrueOf_declared_iff.1 he
        rw [retold_declared ht]
        refine ⟨congrArg (·.length + 1) (parents_declare? ht), ?_⟩
        simp [symbolCount, symbols_declare? ht, Event.isDeclared]
      | left i =>
        obtain ⟨-, t, ht⟩ := isTrueOf_left_iff.1 he
        obtain ⟨p, -, rfl⟩ := leave?_eq_some_iff.1 ht
        rw [retold_left ht]
        exact ⟨rfl, rfl⟩
      | _ => exact ⟨rfl, rfl⟩
    rw [retold_cons, hscopes, hsymbols, hone.1, hone.2, List.countP_cons, List.countP_cons]
    omega

end Scopes

/-! ## The record of a pass -/

variable {φ : Type}

namespace Stand

/-- The entries so far, but for the tokens read. -/
def record (s : Stand φ) : List Event := upTo .debug s.journal.toList

@[simp] theorem record_note (s : Stand φ) (e : Event) :
    (s.note e).record = s.record ++ upTo .debug [e] := by
  simp [record, note, upTo]

@[simp] theorem record_noteRead (s : Stand φ) (t : Token) : (s.noteRead t).record = s.record := by
  unfold noteRead
  split
  · rfl
  · rw [record_note]
    exact List.append_nil _

/-- What the journal says is true, and leads to where the pass stands. -/
structure Recorded (s : Stand φ) : Prop where
  confirmed : Scopes.empty.Confirms s.record
  reached : Scopes.empty.retold s.record = s.scopes

variable {s t : Stand φ}

theorem Recorded.of_eq (h : s.Recorded) (hrecord : t.record = s.record)
    (hscopes : t.scopes = s.scopes) : t.Recorded := by
  refine ⟨?_, ?_⟩
  · rw [hrecord]
    exact h.confirmed
  · rw [hrecord, hscopes]
    exact h.reached

/-- An entry that is true is put down. -/
theorem Recorded.extend {e : Event} (h : s.Recorded) (hrecord : t.record = s.record ++ [e])
    (he : e.IsTrueOf s.scopes) (hscopes : s.scopes.retold [e] = t.scopes) : t.Recorded := by
  refine ⟨?_, ?_⟩
  · rw [hrecord, Scopes.confirms_append, h.reached, Scopes.confirms_singleton]
    exact ⟨h.confirmed, he⟩
  · rw [hrecord, Scopes.retold_append, h.reached, hscopes]

theorem Recorded.note (h : s.Recorded) {f : String} {n : Nat} :
    (s.note (.headed f n)).Recorded :=
  h.extend (s.record_note _) trivial rfl

theorem Recorded.enter (h : s.Recorded) : s.enter.Recorded :=
  h.extend (Stand.record_note _ _) s.scopes.isTrueOf_entered rfl

theorem Recorded.leave (h : s.Recorded) : s.leave.Recorded := by
  unfold Stand.leave
  split
  · rename_i scopes hl
    exact h.extend (Stand.record_note _ _) (Scopes.isTrueOf_left_iff.2 ⟨rfl, scopes, hl⟩)
      (Scopes.retold_left hl)
  · exact h

end Stand

/-- The journal is true on the way, and where the pass is turned down. -/
def keepingRecord : Promise φ where
  stand s := s.Recorded
  rejection _ s := s.Recorded

variable [Feed φ]

theorem keepingRecord_perform (s : Stand φ) (m : Move) (hs : s.Recorded) :
    (s.perform m).Keeps keepingRecord fun _ t => t.Recorded := by
  cases m with
  | hand | lookup => exact hs
  | advance =>
    have hpull : s.pull.Recorded := hs.of_eq (Stand.record_noteRead _ _) (Stand.scopes_pull s)
    show s.pull.settle.Keeps _ _
    unfold Stand.settle
    split <;> exact hpull
  | peek => exact hs.of_eq (Stand.record_noteRead _ _) (Stand.scopes_noteRead _ _)
  | enter => exact hs.enter
  | leave => exact hs.leave
  | declare x =>
    show (s.declare x).Keeps _ _
    unfold Stand.declare
    split
    · rename_i scopes hd
      exact hs.extend (Stand.record_note _ _) (Scopes.isTrueOf_declared_iff.2 ⟨rfl, scopes, hd⟩)
        (Scopes.retold_declared hd)
    · exact hs
  | headed f n => exact hs.note

/-- What is kept by every move is kept to the end of a pass over a text. -/
theorem Pass.whole_keeps {P : Promise φ} {feed : φ} {journal : Array Event}
    (hm : ∀ s m, P.stand s → (s.perform m).Keeps P fun _ t => P.stand t)
    (hr : ∀ r s, P.stand s → P.rejection r s) (h : P.stand (ready feed journal)) :
    (whole feed journal).Keeps P fun _ t => P.stand t := by
  apply (hm _ .advance h).andThen
  intro _ t ht
  apply Keeps.run
  apply (keeps_of_moves hm hr _ ht).mono
  intro _ _ hu _
  exact hu

/-- The journal of a pass over a text is true to its end. -/
theorem recorded_whole (feed : φ) (bytes : Nat) :
    (Pass.whole feed #[.started bytes]).stand.Recorded := by
  have hrun : (Pass.whole feed #[.started bytes]).Keeps keepingRecord fun _ t => t.Recorded :=
    Pass.whole_keeps keepingRecord_perform (fun _ _ hs => hs) ⟨⟨trivial, trivial⟩, rfl⟩
  cases h : Pass.whole feed #[.started bytes] with
  | done _ s | rejected _ s =>
    rw [h] at hrun
    exact hrun
  | exhausted s => exact absurd h (Pass.whole_ne_exhausted feed _ s)

end OnePass
