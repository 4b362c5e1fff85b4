-- Two passes side by side, each on a feed of its own. What stands in one
-- text may be moved to another place there, and names may be changed, as
-- long as the feeds keep in step; then so do the passes. Budgets play no
-- part, but a pass whose budget runs out falls behind.
import Mathlib.Data.List.Forall2
import OnePass.Proofs.Renaming
import OnePass.Pass.Progress

namespace OnePass

variable {φ ψ : Type} [Feed φ] [Feed ψ] {α β γ δ : Type}

/-! ## Ties -/

/-- A bound on the tokens left when the next token comes into hand, that
token included. -/
def Feed.leftAfter (f : φ) : Nat :=
  Feed.left (Feed.next f).2 + if (Feed.next f).1.kind = .finish then 0 else 1

/-- What ties two feeds together. The feeds may part when fewer than
`reserve` tokens are left of the first one. -/
structure Tie (φ ψ : Type) [Feed φ] [Feed ψ] where
  /-- The name that takes the place of a name. -/
  word : String → String
  word_injective : Function.Injective word
  /-- The tokens that stand for each other. -/
  same : Token → Token → Prop
  kind_eq : ∀ {t u}, same t u → u.kind = t.kind
  name_eq : ∀ {t u}, same t u → t.kind.isName = true → u.text = word t.text
  text_eq : ∀ {t u}, same t u → t.kind.isName = false → u.text = t.text
  reserve : Nat
  /-- The feeds that are in step. -/
  feed : φ → ψ → Prop
  next : ∀ {f g}, feed f g → Feed.leftAfter f < reserve ∨
    same (Feed.next f).1 (Feed.next g).1 ∧ feed (Feed.next f).2 (Feed.next g).2
  /-- What the journals held when the feeds were tied. -/
  begun : List Event × List Event

namespace Tie

/-- Feeds that give the very same tokens for as long as they are tied. -/
def plain (feed : φ → ψ → Prop) (reserve : Nat)
    (next : ∀ {f g}, feed f g → Feed.leftAfter f < reserve ∨
      (Feed.next f).1 = (Feed.next g).1 ∧ feed (Feed.next f).2 (Feed.next g).2)
    (begun : List Event × List Event) : Tie φ ψ where
  word := id
  word_injective := Function.injective_id
  same := Eq
  kind_eq h := by rw [h]
  name_eq h _ := by rw [h]; rfl
  text_eq h _ := by rw [h]
  reserve := reserve
  feed := feed
  next := next
  begun := begun

/-- Two entries that tell the same. -/
inductive Told (T : Tie φ ψ) : Event → Event → Prop
  | read {t u : Token} (h : T.same t u) : Told T (.read t) (.read u)
  | declared (x : Symbol) (i : Nat) : Told T (.declared x i) (.declared (x.rename T.word) i)
  | entered (i d : Nat) : Told T (.entered i d) (.entered i d)
  | left (i : Nat) : Told T (.left i) (.left i)
  | headed (f : String) (n : Nat) : Told T (.headed f n) (.headed (T.word f) n)

/-- Two journals that tell the same since the feeds were tied. -/
def Noted (T : Tie φ ψ) (j k : Array Event) : Prop :=
  ∃ es fs, j.toList = T.begun.1 ++ es ∧ k.toList = T.begun.2 ++ fs ∧ List.Forall₂ T.Told es fs

/-- Two passes stand abreast. -/
structure Abreast (T : Tie φ ψ) (s : Stand φ) (t : Stand ψ) : Prop where
  feed : T.feed s.feed t.feed
  hand : T.same s.hand t.hand
  scopes : t.scopes = s.scopes.rename T.word
  journal : T.Noted s.journal t.journal

/-- Two outcomes agree. Nothing is said when the first pass has gone beyond
the tie, or when one of them ran out of its budget. -/
inductive Agree (T : Tie φ ψ) (A : α → β → Prop) : Outcome φ α → Outcome ψ β → Prop
  | done {a : α} {b : β} {s : Stand φ} {t : Stand ψ} (h : A a b) (hs : T.Abreast s t) :
    Agree T A (.done a s) (.done b t)
  | rejected (c : Cause) {u v : Token} {s : Stand φ} {t : Stand ψ} (h : T.same u v)
    (hs : T.Abreast s t) : Agree T A (.rejected ⟨c, u⟩ s) (.rejected ⟨c.rename T.word, v⟩ t)
  | beyond {o : Outcome φ α} {o' : Outcome ψ β} (h : o.stand.left < T.reserve) : Agree T A o o'
  | firstShort (s : Stand φ) (o' : Outcome ψ β) : Agree T A (.exhausted s) o'
  | secondShort (o : Outcome φ α) (t : Stand ψ) : Agree T A o (.exhausted t)

end Tie

/-- From stands that are abreast, the passes come to outcomes that agree. -/
def Lockstep (T : Tie φ ψ) (A : α → β → Prop) (p : Pass α) (q : Pass β) : Prop :=
  ∀ s t, T.Abreast s t → T.Agree A (p.run s) (q.run t)

variable {T : Tie φ ψ}

/-! ## Journals -/

theorem Tie.Noted.push {j k : Array Event} {e f : Event} (h : T.Noted j k) (he : T.Told e f) :
    T.Noted (j.push e) (k.push f) := by
  obtain ⟨es, fs, hj, hk, hes⟩ := h
  refine ⟨es ++ [e], fs ++ [f], ?_, ?_, ?_⟩
  · rw [Array.toList_push, hj, List.append_assoc]
  · rw [Array.toList_push, hk, List.append_assoc]
  · exact List.rel_append hes (List.Forall₂.cons he List.Forall₂.nil)

theorem Tie.Abreast.note {s : Stand φ} {t : Stand ψ} {e f : Event} (h : T.Abreast s t)
    (he : T.Told e f) : T.Abreast (s.note e) (t.note f) :=
  ⟨h.feed, h.hand, h.scopes, h.journal.push he⟩

theorem Tie.Abreast.noteRead {s : Stand φ} {t : Stand ψ} {u v : Token} (h : T.Abreast s t)
    (hu : T.same u v) : T.Abreast (s.noteRead u) (t.noteRead v) := by
  unfold Stand.noteRead
  rw [T.kind_eq hu]
  by_cases hk : u.kind = .finish
  · rw [if_pos hk, if_pos hk]
    exact h
  · rw [if_neg hk, if_neg hk]
    exact h.note (.read hu)

/-! ## The next token -/

theorem Stand.left_pull_eq (s : Stand φ) : s.pull.left = Feed.leftAfter s.feed := by
  unfold Stand.pull
  rw [Stand.left_noteRead]
  rfl

/-- The stands need not be abreast in what they hold in hand, since that
is put away. -/
theorem Tie.abreast_pull {s : Stand φ} {t : Stand ψ} (hf : T.feed s.feed t.feed)
    (hs : t.scopes = s.scopes.rename T.word) (hj : T.Noted s.journal t.journal) :
    s.pull.left < T.reserve ∨ T.Abreast s.pull t.pull := by
  rcases T.next hf with hb | ⟨hsame, hnext⟩
  · left
    rw [Stand.left_pull_eq]
    exact hb
  · right
    have h : T.Abreast { s with feed := (Feed.next s.feed).2, hand := (Feed.next s.feed).1 }
        { t with feed := (Feed.next t.feed).2, hand := (Feed.next t.feed).1 } :=
      ⟨hnext, hsame, hs, hj⟩
    exact h.noteRead hsame

theorem Tie.agree_settle {s : Stand φ} {t : Stand ψ} (h : T.Abreast s t) :
    T.Agree Eq s.settle t.settle := by
  unfold Stand.settle
  rw [T.kind_eq h.hand]
  cases s.hand.kind.fault? with
  | none => exact .done rfl h
  | some f => exact .rejected (.spelling f) h.hand h

/-- Taking a token keeps two passes in step, or takes the first beyond the
tie. -/
theorem Tie.agree_advance {s : Stand φ} {t : Stand ψ} (hf : T.feed s.feed t.feed)
    (hs : t.scopes = s.scopes.rename T.word) (hj : T.Noted s.journal t.journal) :
    T.Agree Eq s.advance t.advance := by
  rcases Tie.abreast_pull hf hs hj with hb | hab
  · refine .beyond ?_
    rw [Stand.stand_advance]
    exact hb
  · exact Tie.agree_settle hab

/-! ## One pass after another -/

theorem Tie.Agree.andThen {A : α → β → Prop} {B : γ → δ → Prop} {o : Outcome φ α}
    {o' : Outcome ψ β} {f : α → Stand φ → Outcome φ γ} {g : β → Stand ψ → Outcome ψ δ}
    (h : T.Agree A o o') (hf : ∀ a s, (f a s).stand.left ≤ s.left)
    (hfg : ∀ a b s t, A a b → T.Abreast s t → T.Agree B (f a s) (g b t)) :
    T.Agree B (o.andThen f) (o'.andThen g) := by
  cases h with
  | done h hs => exact hfg _ _ _ _ h hs
  | rejected c h hs => exact .rejected c h hs
  | beyond h => exact .beyond (Nat.lt_of_le_of_lt (Outcome.left_andThen_le hf) h)
  | firstShort s o' => exact .firstShort _ _
  | secondShort o t => exact .secondShort _ _

namespace Lockstep

theorem bind {A : α → β → Prop} {B : γ → δ → Prop} {p : Pass α} {q : Pass β}
    {f : α → Pass γ} {g : β → Pass δ} (h : Lockstep T A p q)
    (hfg : ∀ a b, A a b → Lockstep T B (f a) (g b)) : Lockstep T B (p >>= f) (q >>= g) := by
  intro s t hs
  rw [Pass.run_bind, Pass.run_bind]
  apply (h s t hs).andThen
  · intro a u
    exact (f a).left_run_le u
  · intro a b u v hab huv
    exact hfg a b hab u v huv

end Lockstep

end OnePass
