-- One pass does what two phases would do: find the tree of a program, and
-- then go through the tree from left to right.
--
-- When a text is turned down at a token that cannot stand there, it is the
-- first one with which no program goes on. What stands before it begins a
-- program, since the passes were sound so far. And if some program began
-- with the blamed token too, the pass over that program would blame it as
-- well, since it has seen no more than that; but programs are only turned
-- down for their meaning.
import Mathlib.Data.Nat.Find
import OnePass.Proofs.Grammar.Completeness.Program
import OnePass.Proofs.Grammar.Forms
import OnePass.Proofs.Grammar.Soundness.Program
import OnePass.Proofs.SideBySide

namespace OnePass

open Grammar

/-! ## Lists that part -/

namespace Reel

/-- The next token of a list of which something is left. -/
theorem next_of_tokens_eq {r : Reel} {t : Token} {ts : List Token} (h : r.tokens = t :: ts)
    (hts : ts ≠ []) : r.next.1 = t ∧ r.next.2.tokens = ts := by
  rw [r.tokens_eq] at h
  obtain ⟨ht, h⟩ := List.cons.inj h
  by_cases hk : r.next.1.kind = .finish
  · rw [if_pos hk] at h
    exact absurd h.symm hts
  · rw [if_neg hk] at h
    exact ⟨ht, h⟩

/-- A finish is the last token of a list, and the last token is one. -/
theorem finish_iff {r : Reel} {ts v : List Token} {u : Token} (h : r.tokens = ts ++ u :: v) :
    u.kind = .finish ↔ v = [] := by
  constructor
  · intro hu
    rcases List.eq_nil_or_concat v with hv | ⟨w, z, rfl⟩
    · exact hv
    · have hahead : r.ahead = ts ++ u :: w := by
        unfold tokens at h
        rw [List.concat_eq_append, ← List.cons_append, ← List.append_assoc] at h
        exact (List.append_inj' h rfl).1
      have hmem : u ∈ r.ahead := by
        rw [hahead]
        simp
      exact absurd hu (r.ahead_ne u hmem)
  · rintro rfl
    have hlast := (List.append_inj' h rfl).2
    rw [← (List.singleton_inj.1 hlast)]
    exact r.last_eq

/-- Two lists that part at `v` and `v'`, if they part at all, read side by
side up to there. -/
def Parting (v v' : List Token) (f g : Reel) : Prop :=
  f = g ∨ v ≠ [] ∧ v' ≠ [] ∧ ∃ w, f.tokens = w ++ v ∧ g.tokens = w ++ v'

theorem Parting.next {v v' : List Token} {f g : Reel} (h : Parting v v' f g) :
    Feed.leftAfter f < v.length ∨
      (Feed.next f).1 = (Feed.next g).1 ∧ Parting v v' (Feed.next f).2 (Feed.next g).2 := by
  rcases h with rfl | ⟨hv, hv', w, hf, hg⟩
  · exact Or.inr ⟨rfl, Or.inl rfl⟩
  · cases w with
    | nil =>
      have hl := f.length_tokens
      rw [hf, List.nil_append] at hl
      refine Or.inl ?_
      rw [leftAfter_eq]
      omega
    | cons t w =>
      obtain ⟨hft, hfw⟩ := next_of_tokens_eq hf (List.append_ne_nil_of_right_ne_nil w hv)
      obtain ⟨hgt, hgw⟩ := next_of_tokens_eq hg (List.append_ne_nil_of_right_ne_nil w hv')
      exact Or.inr ⟨hft.trans hgt.symm, Or.inr ⟨hv, hv', w, hfw, hgw⟩⟩

/-- A pass that stops at a token has seen no more than that token, so it
stops there whatever follows. -/
theorem verdict_of_parting {r r' : Reel} {ts v v' : List Token} {u : Token}
    (hr : r.tokens = ts ++ u :: v) (hr' : r'.tokens = ts ++ u :: v') {c : Rejection}
    {j : Array Event} {s : Stand Reel} (h : Pass.whole r j = .rejected c s)
    (hs : s.Holds (u :: v)) (k : Array Event) : (examine r' k).verdict = .error c := by
  let T : Tie Reel Reel := .plain (Parting v v') v.length Parting.next (j.toList, k.toList)
  have hf : Parting v v' r r' := by
    by_cases hu : u.kind = .finish
    · refine Or.inl (tokens_injective ?_)
      rw [hr, hr', (finish_iff hr).1 hu, (finish_iff hr').1 hu]
    · refine Or.inr ⟨?_, ?_, ts ++ [u], ?_, ?_⟩
      · exact fun hv => hu ((finish_iff hr).2 hv)
      · exact fun hv => hu ((finish_iff hr').2 hv)
      · rw [hr, List.append_assoc, List.singleton_append]
      · rw [hr', List.append_assoc, List.singleton_append]
  have ho : T.Agree Eq (Pass.whole r j) (Pass.whole r' k) := Lockstep.whole hf rfl rfl
  have hne := Pass.whole_ne_exhausted r' k
  have hleft : s.left = v.length := Nat.succ.inj hs.left
  rw [h] at ho
  generalize hw : Pass.whole r' k = o at ho hne
  cases ho with
  | @rejected c t t' _ s' ht _ =>
    rw [examine_of_rejected hw, ← show t = t' from ht]
    exact congrArg (fun c => Except.error (Rejection.mk c t)) c.rename_id
  | beyond hb =>
    have hb : s.left < v.length := hb
    omega
  | secondShort _ s' => exact absurd rfl (hne s')

end Reel

/-- The tokens of a program as a finished list. -/
def Grammar.Program.reel (x : Program) : Reel where
  ahead := x.declarations.flatMap Declaration.spelling
  last := x.stop.1
  ahead_ne t ht := Kind.ne_finish_of_isInner (inner_declarations _ t ht)
  last_eq := x.stop.2

@[simp] theorem Grammar.Program.tokens_reel (x : Program) : x.reel.tokens = x.spelling := rfl

/-- A program is turned down for its meaning, if it is. -/
theorem Grammar.Program.cause_of_meaning {x : Program} {r : Rejection}
    (h : x.meaning = .error r) : ∃ v, r.cause = .meaning v := by
  unfold Program.meaning at h
  generalize (forM x.declarations Declaration.check).run .empty = o at h
  cases o with
  | ok a => cases h
  | error e =>
    cases h
    exact ⟨e.1, rfl⟩

/-- A program ends with its finish, so it does not spell a part of a finished
list. -/
theorem Reel.spelling_ne {r : Reel} {ts us : List Token} (h : r.tokens = ts ++ us) (hus : us ≠ [])
    (x : Program) : x.spelling ≠ ts := by
  intro hx
  have hstop : r.tokens = x.declarations.flatMap Declaration.spelling ++ x.stop.1 :: us := by
    rw [h, ← hx, Program.spelling, List.append_assoc, List.singleton_append]
  exact hus ((finish_iff hstop).1 x.stop.2)

/-- Tokens begin a program if their kinds do. -/
theorem exists_program_of_viable {ts : List Token} (h : Viable (ts.map Token.kind)) :
    ∃ (x : Program) (us : List Token), x.spelling = ts ++ us := by
  obtain ⟨ks, x, hx⟩ := h
  obtain ⟨front, us, hus, hfront, -⟩ := List.map_eq_append_iff.1 hx
  have hkinds : SameKinds x.spelling (ts ++ us) := by
    rw [hus, SameKinds, List.map_append, List.map_append, hfront]
  obtain ⟨y, hy⟩ := formal_program x (ts ++ us) hkinds
  exact ⟨y, us, hy⟩

/-- A program that begins with the tokens for which a text is turned down means
that. -/
theorem meaning_of_rejected {r : Reel} {j : Array Event} {c : Rejection} {s : Stand Reel}
    {ts more us : List Token} {u : Token} {x : Program} (hr : r.tokens = ts ++ u :: more)
    (h : Pass.whole r j = .rejected c s) (hs : s.Holds (u :: more))
    (hx : x.spelling = ts ++ u :: us) : x.meaning = .error c := by
  rw [← Program.tokens_reel] at hx
  have hverdict := Reel.verdict_of_parting hr hx h hs j
  rwa [verdict_eq_meaning x x.tokens_reel j] at hverdict

/-- No program goes on with a token at which a text is turned down, unless
its meaning is at fault. -/
theorem not_viable_of_rejected {r : Reel} {j : Array Event} {c : Rejection} {s : Stand Reel}
    {ts more : List Token} {u : Token} (hr : r.tokens = ts ++ u :: more)
    (h : Pass.whole r j = .rejected c s) (hs : s.Holds (u :: more))
    (hc : ¬∃ v, c.cause = .meaning v) : ¬Viable ((ts ++ [u]).map Token.kind) := by
  intro hviable
  obtain ⟨x, us, hx⟩ := exists_program_of_viable hviable
  rw [List.append_assoc, List.singleton_append] at hx
  exact hc (Program.cause_of_meaning (meaning_of_rejected hr h hs hx))

/-! ## What leads to a rejection -/

/-- The first `k` tokens begin the program `x` and are not all of it. With
the token after them they settle the rejection: whatever else follows, a
program that begins with these tokens means that, and a text with them is
turned down so. -/
structure Settled (source : String) (k : Nat) (x : Program) (r : Rejection) : Prop where
  begins : ∃ more, more ≠ [] ∧ x.spelling = (tokenize source).take k ++ more
  meaning : ∀ (y : Program) (more : List Token),
    y.spelling = (tokenize source).take (k + 1) ++ more → y.meaning = .error r
  verdict : ∀ other, (tokenize other).take (k + 1) = (tokenize source).take (k + 1) →
    (analyze other).verdict = .error r

/-- The token `t`, with `j` tokens before it, is the first that no program has
at its place: the kinds before it begin a program and are not all of it, and
with the kind of the token itself they begin none. -/
def FirstImpossibleAt (source : String) (j : Nat) (t : Token) : Prop :=
  (tokenize source)[j]? = some t ∧
    (∃ more, more ≠ [] ∧ Sentence (((tokenize source).take j).map Token.kind ++ more)) ∧
    ¬Viable (((tokenize source).take (j + 1)).map Token.kind)

/-- A token is the first that no program has at its place. -/
def FirstImpossible (source : String) (t : Token) : Prop := ∃ j, FirstImpossibleAt source j t

namespace Settled

variable {source : String} {j k : Nat} {x : Program} {r : Rejection} {t : Token}

theorem verdict_eq (h : Settled source k x r) : (analyze source).verdict = .error r :=
  h.verdict source rfl

theorem viable (h : Settled source k x r) :
    ∃ more, more ≠ [] ∧ Sentence (((tokenize source).take k).map Token.kind ++ more) := by
  obtain ⟨more, hmore, hx⟩ := h.begins
  refine ⟨more.map Token.kind, ?_, x, ?_⟩
  · exact fun hnil => hmore (List.map_eq_nil_iff.1 hnil)
  · rw [hx, List.map_append]

/-- Nothing is settled by tokens that begin no program. -/
theorem le (h : Settled source k x r) (ht : FirstImpossibleAt source j t) : k ≤ j := by
  obtain ⟨-, -, hviable⟩ := ht
  by_contra hjk
  apply hviable
  obtain ⟨more, -, hmore⟩ := h.viable
  have htake : (tokenize source).take k =
      (tokenize source).take (j + 1) ++ ((tokenize source).take k).drop (j + 1) := by
    conv_lhs => rw [← List.take_append_drop (j + 1) ((tokenize source).take k)]
    rw [List.take_take, Nat.min_eq_left (by omega)]
  rw [htake, List.map_append, List.append_assoc] at hmore
  exact ⟨_, hmore⟩

end Settled

/-- Every rejection is settled early: by what a program means that begins in
the same way, with a valid token after it, or else by the next token, which is
to blame. -/
theorem exists_settled {source : String} {r : Rejection}
    (h : (analyze source).verdict = .error r) :
    ∃ k x t, (tokenize source)[k]? = some t ∧ Settled source k x r ∧
      (t.kind.fault? = none ∧ x.meaning = .error r ∨
        FirstImpossibleAt source k t ∧ Blames t r) := by
  rw [← examine_reel] at h
  obtain ⟨s, hs⟩ := verdict_eq_error_iff.1 h
  have ho := judges_whole (reel source) #[.started (Text.bytes source.toList)]
  rw [hs] at ho
  obtain ⟨x, ts, ws, more, hx, hus, hholds, hr⟩ := ho
  have hT : tokenize source = ts ++ s.hand :: more := by rw [← tokens_reel, hus]
  have htake : (tokenize source).take ts.length = ts := by
    rw [hT]
    exact List.take_left
  have htake' : (tokenize source).take (ts.length + 1) = ts ++ [s.hand] := by
    rw [hT, ← List.singleton_append, ← List.append_assoc]
    exact List.take_left' (by simp)
  have hsettled : Settled source ts.length x r := by
    refine ⟨⟨ws, ?_, by rw [htake, hx]⟩, ?_, ?_⟩
    · intro hws
      rw [hws, List.append_nil] at hx
      exact Reel.spelling_ne hus (List.cons_ne_nil s.hand more) x hx
    · intro y us hy
      rw [htake', List.append_assoc, List.singleton_append] at hy
      exact meaning_of_rejected hus hs hholds hy
    · intro other hother
      have hsplit : tokenize other = ts ++ s.hand :: (tokenize other).drop (ts.length + 1) := by
        have hd := (List.take_append_drop (ts.length + 1) (tokenize other)).symm
        rwa [hother, htake', List.append_assoc, List.singleton_append] at hd
      rw [← tokens_reel] at hsplit
      rw [← examine_reel]
      exact Reel.verdict_of_parting hus hsplit hs hholds _
  have hat : (tokenize source)[ts.length]? = some s.hand := by
    rw [hT]
    simp
  refine ⟨ts.length, x, s.hand, hat, hsettled, ?_⟩
  rcases hr with hr | hr
  · exact Or.inl hr
  · have hcause : ¬∃ v, r.cause = .meaning v := by cases hr <;> simp
    refine Or.inr ⟨⟨hat, hsettled.viable, ?_⟩, hr⟩
    rw [htake']
    exact not_viable_of_rejected hus hs hholds hcause

/-! ## The law -/

/-- Where the grammar turns a text down, it blames the first token that is
impossible there. -/
theorem the_first_impossible_token_is_blamed {source : String} {e : Expectation} {t : Token}
    (h : (analyze source).verdict = .error ⟨.grammar e, t⟩) : FirstImpossible source t := by
  obtain ⟨k, x, u, -, -, ⟨-, hx⟩ | ⟨hu, hb⟩⟩ := exists_settled h
  · obtain ⟨v, hv⟩ := Program.cause_of_meaning hx
    cases hv
  · cases hb
    exact ⟨k, hu⟩

/-- A declaration that is not finished is turned down at the end. -/
theorem the_end_is_blamed_in_an_unfinished_declaration :
    (analyze "int x").verdict = .error ⟨.grammar .declarationEnd, .finish 1 5⟩ ∧
    FirstImpossible "int x" (.finish 1 5) := by
  have h : (analyze "int x").verdict = .error ⟨.grammar .declarationEnd, .finish 1 5⟩ := by
    decide +kernel
  exact ⟨h, the_first_impossible_token_is_blamed h⟩

/-! ## Two phases -/

/-- A text that begins a program is one, since it ends with a finish. -/
theorem not_viable_of_none {source : String}
    (hnone : ¬∃ x : Program, x.spelling = tokenize source) :
    ¬Viable ((tokenize source).map Token.kind) := by
  intro hviable
  obtain ⟨x, us, hx⟩ := exists_program_of_viable hviable
  apply hnone
  have hreel : x.reel.tokens = (reel source).ahead ++ (reel source).last :: us := by
    rw [Program.tokens_reel, hx, ← tokens_reel, Reel.tokens, List.append_assoc,
      List.singleton_append]
  have hus : us = [] := (Reel.finish_iff hreel).1 (reel source).last_eq
  rw [hus, List.append_nil] at hx
  exact ⟨x, hx⟩

theorem viable_nil : Viable [] := by
  obtain ⟨stop⟩ : Nonempty (Of .finish) := inferInstance
  exact ⟨_, ⟨[], stop⟩, rfl⟩

/-- A text that is no program has a first token that is impossible. -/
theorem exists_firstImpossibleAt {source : String}
    (hnone : ¬∃ x : Program, x.spelling = tokenize source) :
    ∃ j t, FirstImpossibleAt source j t := by
  classical
  have hex : ∃ m, ¬Viable (((tokenize source).take m).map Token.kind) :=
    ⟨(tokenize source).length, by rw [List.take_length]; exact not_viable_of_none hnone⟩
  obtain ⟨j, hj⟩ : ∃ j, Nat.find hex = j + 1 := by
    refine Nat.exists_eq_succ_of_ne_zero fun hzero => Nat.find_spec hex ?_
    rw [hzero]
    exact viable_nil
  have hlast : ¬Viable (((tokenize source).take (j + 1)).map Token.kind) := hj ▸ Nat.find_spec hex
  have hviable : Viable (((tokenize source).take j).map Token.kind) :=
    not_not.1 (Nat.find_min hex (by omega))
  have hlt : j < (tokenize source).length := by
    by_contra hle
    rw [List.take_of_length_le (by omega)] at hlast hviable
    exact hlast hviable
  obtain ⟨x, us, hx⟩ := exists_program_of_viable hviable
  have hsplit : (reel source).tokens = (tokenize source).take j ++ (tokenize source).drop j := by
    rw [tokens_reel, List.take_append_drop]
  refine ⟨j, (tokenize source)[j], List.getElem?_eq_getElem hlt,
    ⟨us.map Token.kind, ?_, x, by rw [hx, List.map_append]⟩, hlast⟩
  intro hus
  rw [List.map_eq_nil_iff.1 hus, List.append_nil] at hx
  refine Reel.spelling_ne hsplit ?_ x hx
  simpa using hlt

/-- A text that is a program is judged by the meaning of its tree. Any other
text has a first token that is impossible at its place. If the tokens up to
there settle what a program means that begins like the text, then the text is
turned down for that; where the impossible token is an invalid one, those
before it have to. Only if nothing is settled so, that token is blamed. -/
theorem one_pass_is_two_phases (source : String) :
    (∀ x : Program, x.spelling = tokenize source → (analyze source).verdict = x.meaning) ∧
    ((¬∃ x : Program, x.spelling = tokenize source) →
      ∃ j t r, FirstImpossibleAt source j t ∧ (analyze source).verdict = .error r ∧
        ((∃ k x, (k < j ∨ k = j ∧ t.kind.fault? = none) ∧
            Settled source k x r ∧ x.meaning = .error r) ∨
          (∀ k x r', Settled source k x r' → x.meaning ≠ .error r') ∧ Blames t r)) := by
  constructor
  · intro x hx
    rw [← examine_reel]
    apply verdict_eq_meaning
    rw [tokens_reel, hx]
  · intro hnone
    cases h : (analyze source).verdict with
    | ok scopes =>
      rw [← examine_reel] at h
      obtain ⟨x, hx, -⟩ := exists_program_of_ok h
      rw [tokens_reel] at hx
      exact absurd ⟨x, hx⟩ hnone
    | error r =>
      obtain ⟨k, x, u, hu, hs, ⟨hvalid, hx⟩ | ⟨ht, hb⟩⟩ := exists_settled h
      · obtain ⟨j, t, ht⟩ := exists_firstImpossibleAt hnone
        refine ⟨j, t, r, ht, rfl, Or.inl ⟨k, x, ?_, hs, hx⟩⟩
        rcases Nat.lt_or_eq_of_le (hs.le ht) with hlt | rfl
        · exact Or.inl hlt
        · obtain rfl := Option.some.inj (hu.symm.trans ht.1)
          exact Or.inr ⟨rfl, hvalid⟩
      · refine ⟨k, u, r, ht, rfl, Or.inr ⟨?_, hb⟩⟩
        intro l y r' hs' hy
        have hr : r' = r := Except.error.inj (hs'.verdict_eq.symm.trans h)
        obtain ⟨v, hv⟩ := Program.cause_of_meaning hy
        rw [hr] at hv
        cases hb <;> cases hv

end OnePass
