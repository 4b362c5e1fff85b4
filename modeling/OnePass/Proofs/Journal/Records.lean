-- The forms of what a program leaves in the journal: variables and scopes
-- inside scopes, and at the top functions, each with its head, its scope and
-- its parameters. Entries of such a form that are true lead back to the scope
-- in which they begin.
import OnePass.Proofs.Journal.Replay
import OnePass.Proofs.Journal.Words
import OnePass.Proofs.Scopes.Nest

namespace OnePass

/-! ## Balance -/

/-- What is entered is left, and in between everything else that was entered
is left. -/
inductive Balanced : List Event → Prop
  | nil : Balanced []
  | other {e : Event} (hentered : ∀ i d, e ≠ .entered i d) (hleft : ∀ i, e ≠ .left i) :
    Balanced [e]
  | scope {i d : Nat} {es : List Event} (h : Balanced es) :
    Balanced (.entered i d :: (es ++ [.left i]))
  | append {es fs : List Event} (h : Balanced es) (hf : Balanced fs) : Balanced (es ++ fs)

/-- Where the entries are true they are balanced, and they lead back to the
scope in which they begin. -/
def Returns (es : List Event) : Prop :=
  ∀ s : Scopes, s.Grown → s.Confirms es → Balanced es ∧ (s.retold es).current = s.current

namespace Returns

variable {es fs : List Event}

theorem nil : Returns [] := fun _ _ _ => ⟨.nil, rfl⟩

theorem append (h : Returns es) (hf : Returns fs) : Returns (es ++ fs) := by
  intro s hs hconfirms
  obtain ⟨hes, hfs⟩ := Scopes.confirms_append.1 hconfirms
  obtain ⟨hbalanced, hback⟩ := h s hs hes
  obtain ⟨hbalanced', hback'⟩ := hf _ (hs.after _) hfs
  rw [Scopes.retold_append]
  exact ⟨hbalanced.append hbalanced', hback'.trans hback⟩

theorem declared (x : Symbol) (i : Nat) : Returns [.declared x i] := by
  intro s _ hconfirms
  obtain ⟨-, t, ht⟩ := Scopes.isTrueOf_declared_iff.1 (Scopes.confirms_singleton.1 hconfirms)
  rw [Scopes.retold_declared ht]
  exact ⟨.other nofun nofun, Scopes.current_declare? ht⟩

theorem headed (f : String) (n : Nat) : Returns [.headed f n] :=
  fun _ _ _ => ⟨.other nofun nofun, rfl⟩

/-- A scope that is left at the end is the one that was entered. -/
theorem scope (h : Returns es) (i d j : Nat) : Returns (.entered i d :: (es ++ [.left j])) := by
  rintro s hs ⟨hentered, hconfirms⟩
  obtain ⟨hes, hleft⟩ := Scopes.confirms_append.1 hconfirms
  obtain ⟨hbalanced, hback⟩ := h s.enter hs.enter hes
  obtain ⟨hcurrent, t, ht⟩ := Scopes.isTrueOf_left_iff.1 (Scopes.confirms_singleton.1 hleft)
  obtain rfl : s.scopeCount = i := Answer.entered.inj hentered.1
  obtain rfl : s.scopeCount = j := hback.symm.trans hcurrent
  have hretold : s.retold (.entered s.scopeCount d :: (es ++ [.left s.scopeCount])) = t := by
    rw [Scopes.retold_cons, Scopes.retold_append]
    exact Scopes.retold_left ht
  rw [hretold]
  exact ⟨hbalanced.scope, (hs.restored _ hback ht).1⟩

end Returns

/-! ## Forms -/

/-- What the parameters of a function leave in the journal. -/
inductive ParameterRecord : List Parameter → List Event → Prop
  | nil : ParameterRecord [] []
  | cons {p : Parameter} {ps : List Parameter} {es : List Event} (i : Nat)
    (hp : IsName p.name) (h : ParameterRecord ps es) :
    ParameterRecord (p :: ps) (.declared ⟨p.name, .parameter p.type⟩ i :: es)

/-- What statements leave in the journal. -/
inductive BodyRecord : List Event → Prop
  | nil : BodyRecord []
  | value {name : String} (hname : IsName name) (type : ValueType) (i : Nat) :
    BodyRecord [.declared ⟨name, .value type⟩ i]
  | scope {es : List Event} (i d j : Nat) (h : BodyRecord es) :
    BodyRecord (.entered i d :: (es ++ [.left j]))
  | append {es fs : List Event} (h : BodyRecord es) (hf : BodyRecord fs) : BodyRecord (es ++ fs)

/-- What declarations leave in the journal. A function is declared, its head
is complete, and in its scope there are its parameters and its body. -/
inductive ProgramRecord : List Event → Prop
  | nil : ProgramRecord []
  | value {name : String} (hname : IsName name) (type : ValueType) (i : Nat) :
    ProgramRecord [.declared ⟨name, .value type⟩ i]
  | function {name : String} {ps : List Parameter} {es fs : List Event} (i j d k : Nat)
    (hname : IsName name) (hps : ParameterRecord ps es) (hbody : BodyRecord fs) :
    ProgramRecord (.declared ⟨name, .function .void ps⟩ i :: .headed name ps.length ::
      .entered j d :: ((es ++ fs) ++ [.left k]))
  | append {es fs : List Event} (h : ProgramRecord es) (hf : ProgramRecord fs) :
    ProgramRecord (es ++ fs)

variable {ps : List Parameter} {es : List Event}

namespace ParameterRecord

theorem returns (h : ParameterRecord ps es) : Returns es := by
  induction h with
  | nil => exact .nil
  | cons i _ _ ih => exact (Returns.declared _ i).append ih

theorem names (h : ParameterRecord ps es) : ∀ p ∈ ps, IsName p.name := by
  induction h with
  | nil => nofun
  | cons i hp _ ih => exact List.forall_mem_cons.2 ⟨hp, ih⟩

theorem forall_mem (h : ParameterRecord ps es) {P : Event → Prop}
    (hdeclared : ∀ x i, x.Named → P (.declared x i)) : ∀ e ∈ es, P e := by
  induction h with
  | nil => nofun
  | cons i hp _ ih =>
    exact List.forall_mem_cons.2 ⟨hdeclared _ i (List.forall_mem_singleton.2 hp), ih⟩

/-- True entries put all parameters into the current scope. -/
theorem eq_map {s : Scopes} (h : ParameterRecord ps es) (hs : s.Confirms es) :
    es = ps.map fun p => .declared ⟨p.name, .parameter p.type⟩ s.current := by
  induction h generalizing s with
  | nil => rfl
  | @cons p ps es i _ _ ih =>
    obtain ⟨hdeclared, hes⟩ := hs
    obtain ⟨rfl, t, ht⟩ := Scopes.isTrueOf_declared_iff.1 hdeclared
    rw [Scopes.retold_declared ht] at hes
    rw [List.map_cons, ← Scopes.current_declare? ht, ← ih hes, Scopes.current_declare? ht]

end ParameterRecord

namespace BodyRecord

theorem returns (h : BodyRecord es) : Returns es := by
  induction h with
  | nil => exact .nil
  | value _ _ i => exact .declared _ i
  | scope i d j _ ih => exact ih.scope i d j
  | append _ _ ih ih' => exact ih.append ih'

theorem forall_mem (h : BodyRecord es) {P : Event → Prop}
    (hdeclared : ∀ x i, x.Named → P (.declared x i)) (hentered : ∀ i d, P (.entered i d))
    (hleft : ∀ i, P (.left i)) : ∀ e ∈ es, P e := by
  induction h with
  | nil => nofun
  | value hname _ i =>
    exact List.forall_mem_singleton.2 (hdeclared _ i (List.forall_mem_singleton.2 hname))
  | scope i d j _ ih =>
    exact List.forall_mem_cons.2 ⟨hentered i d, List.forall_mem_append.2
      ⟨ih, List.forall_mem_singleton.2 (hleft j)⟩⟩
  | append _ _ ih ih' => exact List.forall_mem_append.2 ⟨ih, ih'⟩

end BodyRecord

/-- An entry in two records in a row is in the second or in the first. -/
theorem append_eq_append_cons {α : Type} {a b before behind : List α} {c : α}
    (h : a ++ b = before ++ c :: behind) :
    (∃ later, before = a ++ later ∧ b = later ++ c :: behind) ∨
      ∃ later, a = before ++ c :: later ∧ behind = later ++ b := by
  rcases List.append_eq_append_iff.1 h with h | ⟨later, ha, hb⟩
  · exact Or.inl h
  · cases later with
    | nil => exact Or.inl ⟨[], by simpa using ha.symm, hb.symm⟩
    | cons d later =>
      obtain ⟨rfl, rfl⟩ := List.cons.inj hb
      exact Or.inr ⟨later, ha, rfl⟩

namespace ProgramRecord

theorem returns (h : ProgramRecord es) : Returns es := by
  induction h with
  | nil => exact .nil
  | value _ _ i => exact .declared _ i
  | function i j d k _ hps hbody =>
    exact (Returns.declared _ i).append
      ((Returns.headed _ _).append ((hps.returns.append hbody.returns).scope j d k))
  | append _ _ ih ih' => exact ih.append ih'

theorem forall_mem (h : ProgramRecord es) {P : Event → Prop}
    (hdeclared : ∀ x i, x.Named → P (.declared x i)) (hentered : ∀ i d, P (.entered i d))
    (hleft : ∀ i, P (.left i)) (hheaded : ∀ f n, IsName f → P (.headed f n)) :
    ∀ e ∈ es, P e := by
  induction h with
  | nil => nofun
  | value hname _ i =>
    exact List.forall_mem_singleton.2 (hdeclared _ i (List.forall_mem_singleton.2 hname))
  | @function name ps es fs i j d k hname hps hbody =>
    have hfunction : Symbol.Named ⟨name, .function .void ps⟩ :=
      List.forall_mem_cons.2 ⟨hname, List.forall_mem_map.2 hps.names⟩
    simp only [List.forall_mem_append, List.forall_mem_cons]
    exact ⟨hdeclared _ i hfunction, hheaded name _ hname, hentered j d,
      ⟨hps.forall_mem hdeclared, hbody.forall_mem hdeclared hentered hleft⟩, hleft k, nofun⟩
  | append _ _ ih ih' => exact List.forall_mem_append.2 ⟨ih, ih'⟩

/-- The head of a function comes directly after its declaration in the global
scope, and its scope with its parameters comes directly after that. -/
theorem around_head (h : ProgramRecord es) {before behind : List Event} {f : String} {n : Nat}
    (hes : es = before ++ .headed f n :: behind) {s : Scopes} (hs : s.Grown)
    (hglobal : s.current = 0) (hconfirms : s.Confirms before) :
    ∃ earlier ps, before = earlier ++ [.declared ⟨f, .function .void ps⟩ 0] ∧ ps.length = n ∧
      ∃ i d fs later, ParameterRecord ps fs ∧ behind = .entered i d :: (fs ++ later) := by
  induction h generalizing s before behind with
  | nil => cases before <;> cases hes
  | value =>
    have hmem : Event.headed f n ∈ before ++ .headed f n :: behind := by simp
    rw [← hes, List.mem_singleton] at hmem
    cases hmem
  | @function name ps es fs i j d k hname hps hbody =>
    cases before with
    | nil => cases hes
    | cons b before =>
      obtain ⟨rfl, hrest⟩ := List.cons.inj hes
      cases before with
      | nil =>
        obtain ⟨hhead, hbehind⟩ := List.cons.inj hrest
        obtain ⟨rfl, rfl⟩ := Event.headed.inj hhead
        obtain ⟨rfl, -⟩ := Scopes.isTrueOf_declared_iff.1 (Scopes.confirms_singleton.1 hconfirms)
        rw [hglobal]
        refine ⟨[], ps, rfl, rfl, j, d, es, fs ++ [.left k], hps, ?_⟩
        rw [← hbehind, List.append_assoc]
      | cons c before =>
        -- behind its head a function has no other head
        obtain ⟨-, hrest⟩ := List.cons.inj hrest
        have hmem : Event.headed f n ∈ before.append (.headed f n :: behind) := by simp
        rw [← hrest] at hmem
        simp only [List.mem_cons, List.mem_append, List.not_mem_nil] at hmem
        rcases hmem with hmem | (hmem | hmem) | hmem | hmem
        · cases hmem
        · exact absurd rfl (hps.forall_mem (P := (· ≠ .headed f n)) nofun _ hmem)
        · exact absurd rfl (hbody.forall_mem (P := (· ≠ .headed f n)) nofun nofun nofun _ hmem)
        · cases hmem
        · cases hmem
  | @append es fs h hf ih ih' =>
    rcases append_eq_append_cons hes with ⟨later, rfl, hfs⟩ | ⟨later, hsame, rfl⟩
    · obtain ⟨hconfirms, hconfirms'⟩ := Scopes.confirms_append.1 hconfirms
      have hback := (h.returns s hs hconfirms).2
      obtain ⟨earlier, ps, rfl, hrest⟩ := ih' hfs (hs.after _) (hback.trans hglobal) hconfirms'
      exact ⟨es ++ earlier, ps, (List.append_assoc ..).symm, hrest⟩
    · obtain ⟨earlier, ps, rfl, hlength, i, d, gs, rest, hps, rfl⟩ := ih hsame hs hglobal hconfirms
      exact ⟨earlier, ps, rfl, hlength, i, d, gs, rest ++ fs, hps, by simp⟩

end ProgramRecord

end OnePass
