-- What is said in words can be read again: names, types and numbers are runs
-- of letters and digits, and between two of them there is always something
-- else. So a symbol is known from its line, and an entry of the journal from
-- its message.
import Mathlib.Data.List.Basic
import OnePass.Journal
import OnePass.Proofs.Lexicon.Spellings

namespace OnePass

/-! ## Runs -/

/-- Only letters, digits and underscores. -/
def IsRun (w : List Char) : Prop := ∀ c ∈ w, continuesName c = true

/-- What is written as names are, be it a word of the language. -/
def IsName (name : String) : Prop := Lexicon.Follows .name name.toList

theorem IsName.isRun {name : String} (h : IsName name) : IsRun name.toList := by
  unfold IsName at h
  generalize name.toList = w at h
  cases h with
  | name hc hw =>
    intro d hd
    rcases List.mem_cons.1 hd with rfl | hd
    · unfold startsName at hc
      unfold continuesName Char.isAlphanum
      grind
    · exact hw d hd

theorem ValueType.isRun_name (t : ValueType) : IsRun t.name.toList := by
  refine List.all_eq_true.1 ?_
  cases t <;> decide

theorem ValueType.name_injective {t u : ValueType} (h : t.name.toList = u.name.toList) : t = u := by
  cases t <;> cases u <;> first | rfl | exact absurd h (by decide)

theorem isRun_toDigits (n : Nat) : IsRun (Nat.toDigits 10 n) := by
  intro c hc
  have hdigit : c.isDigit = true := Nat.isDigit_of_mem_toDigits (by decide) (by decide) hc
  simp [continuesName, Char.isAlphanum, hdigit]

theorem toDigits_injective {m n : Nat} (h : Nat.toDigits 10 m = Nat.toDigits 10 n) : m = n := by
  rw [← Nat.ofDigitChars_ten_toDigits (n := m), h, Nat.ofDigitChars_ten_toDigits]

/-- A run ends at the first character that is not in runs. -/
theorem run_unique {a b x y : List Char} {c d : Char} (ha : IsRun a) (hb : IsRun b)
    (hc : continuesName c = false) (hd : continuesName d = false)
    (h : a ++ c :: x = b ++ d :: y) : a = b ∧ c = d ∧ x = y := by
  have htake := congrArg (List.takeWhile continuesName) h
  rw [List.takeWhile_append_of_pos ha, List.takeWhile_append_of_pos hb,
    List.takeWhile_cons_of_neg (by simp [hc]), List.takeWhile_cons_of_neg (by simp [hd]),
    List.append_nil, List.append_nil] at htake
  subst htake
  obtain ⟨rfl, rfl⟩ := List.cons.inj (List.append_cancel_left h)
  exact ⟨rfl, rfl, rfl⟩

/-- Two numbers are known from a text with one text between them. -/
theorem numbers_unique (between behind : List Char) {i j m n : Nat}
    (h : Nat.toDigits 10 i ++ ' ' :: (between ++ (Nat.toDigits 10 m ++ behind)) =
      Nat.toDigits 10 j ++ ' ' :: (between ++ (Nat.toDigits 10 n ++ behind))) : i = j ∧ m = n := by
  obtain ⟨hfirst, -, hrest⟩ :=
    run_unique (isRun_toDigits i) (isRun_toDigits j) (by decide) (by decide) h
  have hsecond := List.append_cancel_right (List.append_cancel_left hrest)
  exact ⟨toDigits_injective hfirst, toDigits_injective hsecond⟩

/-! ## Names in a text -/

/-- A lexeme that is a name is written as names are, `main` too. -/
theorem Lexicon.Lexes.isName {cs text : List Char} {k : Kind} (h : Lexes cs k text)
    (hk : k.isName = true) : Follows .name text := by
  have hfixed : ∀ x ∈ fixed, x.2.isName = true → x = ("main", .mainWord) := by decide
  cases h with
  | stray => cases hk
  | rule _ hr hv =>
    cases hv with
    | fixed =>
      obtain ⟨hmem, rfl⟩ := follows_fixed_iff.1 hr.follows
      cases hfixed _ hmem hk
      exact .name (by decide) (List.all_eq_true.1 (by decide))
    | name => exact hr.follows
    | number hw => cases hw <;> cases hk
    | _ => cases hk

/-- The next token of a text has the text of a name if it is one. -/
theorem Cursor.isName_next {c : Cursor} (h : c.next.1.kind.isName = true) :
    IsName c.next.1.text := by
  unfold Cursor.next at h ⊢
  cases hr : c.skipGap.rest with
  | nil =>
    rw [Cursor.read_of_rest_nil hr] at h
    cases h
  | cons x xs =>
    rw [Cursor.read_of_rest_cons hr] at h ⊢
    show Lexicon.Follows .name (String.toList _)
    rw [String.toList_ofList]
    exact (Lexicon.lexes_iff.2 ⟨rfl, rfl⟩).isName h

/-! ## Symbols -/

section
variable {ps qs : List Parameter} {u v : List Char}

/-- The parameters of a function as its line has them. -/
def shownParameters (ps : List Parameter) : String :=
  ", ".intercalate (ps.map fun p => p.type.name ++ " " ++ p.name)

theorem shownParameters_cons (p : Parameter) (ps : List Parameter) :
    (shownParameters (p :: ps)).toList = p.type.name.toList ++ ' ' :: (p.name.toList ++
      if ps = [] then [] else ',' :: ' ' :: (shownParameters ps).toList) := by
  unfold shownParameters
  cases ps <;> simp [String.toList_intercalate, List.intercalate]

/-- Parameters are known from their text, up to the closing parenthesis. -/
theorem shownParameters_unique (hps : ∀ p ∈ ps, IsName p.name) (hqs : ∀ q ∈ qs, IsName q.name)
    (h : (shownParameters ps).toList ++ ')' :: u = (shownParameters qs).toList ++ ')' :: v) :
    ps = qs ∧ u = v := by
  -- a type comes first, and it is not empty
  have hopen : ∀ (p : Parameter) ps w z,
      ')' :: w ≠ (shownParameters (p :: ps)).toList ++ ')' :: z := by
    intro p ps w z heq
    rw [shownParameters_cons] at heq
    obtain ⟨name, type⟩ := p
    cases type <;> simp [ValueType.name] at heq
  induction ps generalizing qs with
  | nil =>
    cases qs with
    | nil => exact ⟨rfl, (List.cons.inj h).2⟩
    | cons q qs => exact absurd h (hopen q qs u v)
  | cons p ps ih =>
    cases qs with
    | nil => exact absurd h.symm (hopen p ps v u)
    | cons q qs =>
      obtain ⟨hp, hps⟩ := List.forall_mem_cons.1 hps
      obtain ⟨hq, hqs⟩ := List.forall_mem_cons.1 hqs
      simp only [shownParameters_cons, List.append_assoc, List.cons_append] at h
      obtain ⟨htype, -, h⟩ :=
        run_unique p.type.isRun_name q.type.isRun_name (by decide) (by decide) h
      have hpq : p.name = q.name ∧ ps = qs ∧ u = v := by
        by_cases hpnil : ps = [] <;> by_cases hqnil : qs = []
        · rw [if_pos hpnil, if_pos hqnil] at h
          obtain ⟨hname, -, hrest⟩ := run_unique hp.isRun hq.isRun (by decide) (by decide) h
          exact ⟨String.toList_injective hname, hpnil.trans hqnil.symm, hrest⟩
        · rw [if_pos hpnil, if_neg hqnil] at h
          obtain ⟨-, hmark, -⟩ := run_unique hp.isRun hq.isRun (by decide) (by decide) h
          exact absurd hmark (by decide)
        · rw [if_neg hpnil, if_pos hqnil] at h
          obtain ⟨-, hmark, -⟩ := run_unique hp.isRun hq.isRun (by decide) (by decide) h
          exact absurd hmark (by decide)
        · rw [if_neg hpnil, if_neg hqnil] at h
          obtain ⟨hname, -, hrest⟩ := run_unique hp.isRun hq.isRun (by decide) (by decide) h
          obtain ⟨hrest, htail⟩ := ih hps hqs (List.cons.inj hrest).2
          exact ⟨String.toList_injective hname, hrest, htail⟩
      obtain ⟨hname, rfl, rfl⟩ := hpq
      obtain ⟨pname, ptype⟩ := p
      obtain ⟨qname, qtype⟩ := q
      cases hname
      cases ValueType.name_injective htype
      exact ⟨rfl, rfl⟩

end

namespace Role

/-- The mark behind the type in the line of a symbol. It tells the roles
apart. -/
def mark : Role → Char
  | value _ => ')'
  | parameter _ => ','
  | function .. => ' '

/-- What stands behind the mark. -/
def rest : Role → String
  | value _ => ""
  | parameter _ => " parameter)"
  | function _ ps => "function(" ++ shownParameters ps ++ "))"

theorem mark_not_in_runs (r : Role) : continuesName r.mark = false := by
  cases r <;> rfl

/-- A role is known from its text, wherever it ends. -/
theorem shown_unique {r s : Role} {u v : List Char} (hr : ∀ p ∈ r.parameters, IsName p.name)
    (hs : ∀ p ∈ s.parameters, IsName p.name)
    (h : r.type.name.toList ++ r.mark :: (r.rest.toList ++ u) =
      s.type.name.toList ++ s.mark :: (s.rest.toList ++ v)) : r = s ∧ u = v := by
  obtain ⟨htype, hmark, hrest⟩ :=
    run_unique r.type.isRun_name s.type.isRun_name r.mark_not_in_runs s.mark_not_in_runs h
  have htype := ValueType.name_injective htype
  rcases r with t | t | ⟨t, ps⟩ <;> rcases s with t' | t' | ⟨t', qs⟩ <;> try simp [mark] at hmark
  · exact ⟨congrArg value htype, hrest⟩
  · exact ⟨congrArg parameter htype, List.append_cancel_left hrest⟩
  · have hclose : "))".toList = [')', ')'] := by decide
    simp only [rest, String.toList_append, List.append_assoc, hclose] at hrest
    obtain ⟨rfl, htail⟩ := shownParameters_unique hr hs (List.append_cancel_left hrest)
    exact ⟨congrArg (function · ps) htype, (List.cons.inj htail).2⟩

end Role

namespace Symbol

/-- All names of a symbol are written as names are. -/
def Named (x : Symbol) : Prop := ∀ n ∈ x.names, IsName n

theorem shown_eq (x : Symbol) : x.shown.toList =
    x.name.toList ++ ' ' :: '(' :: (x.type.name.toList ++ x.role.mark :: x.role.rest.toList) := by
  have hopen : " (".toList = [' ', '('] := by decide
  have hclose : ")".toList = [')'] := by decide
  have hempty : "".toList = [] := by decide
  have hparameter : ", parameter)".toList = ',' :: " parameter)".toList := by decide
  have hfunction : " function(".toList = ' ' :: "function(".toList := by decide
  obtain ⟨name, t | t | ⟨t, ps⟩⟩ := x
  · simp only [shown, type, Role.type, Role.mark, Role.rest, String.toList_append, hopen, hclose,
      hempty, List.append_assoc, List.cons_append, List.nil_append]
  · simp only [shown, type, Role.type, Role.mark, Role.rest, String.toList_append, hopen,
      hparameter, List.append_assoc, List.cons_append, List.nil_append]
  · simp only [shown, type, Role.type, Role.mark, Role.rest, shownParameters, String.toList_append,
      hopen, hfunction, List.append_assoc, List.cons_append, List.nil_append]

/-- A symbol is known from its line, wherever it ends. -/
theorem shown_unique {x y : Symbol} {u v : List Char} (hx : x.Named) (hy : y.Named)
    (h : x.shown.toList ++ u = y.shown.toList ++ v) : x = y ∧ u = v := by
  obtain ⟨hxname, hxparameters⟩ := List.forall_mem_cons.1 hx
  obtain ⟨hyname, hyparameters⟩ := List.forall_mem_cons.1 hy
  rw [List.forall_mem_map] at hxparameters hyparameters
  simp only [shown_eq, List.append_assoc, List.cons_append] at h
  obtain ⟨hname, -, h⟩ := run_unique hxname.isRun hyname.isRun (by decide) (by decide) h
  obtain ⟨hrole, htail⟩ := Role.shown_unique hxparameters hyparameters (List.cons.inj h).2
  obtain ⟨name, role⟩ := x
  cases String.toList_injective hname
  cases hrole
  exact ⟨rfl, htail⟩

end Symbol

/-! ## Entries -/

namespace Event

/-- All names in an entry are written as names are, and it is none of a
token. -/
def Named : Event → Prop
  | declared x _ => x.Named
  | headed f _ => IsName f
  | read _ => False
  | _ => True

@[simp] theorem message_started (n : Nat) :
    (started n).message = "analysis started (" ++ toString n ++ " bytes)" := rfl

@[simp] theorem message_declared (x : Symbol) (i : Nat) :
    (declared x i).message = "declared " ++ x.shown ++ " in scope " ++ toString i := rfl

@[simp] theorem message_entered (i d : Nat) : (entered i d).message =
    "entered scope " ++ toString i ++ " (depth " ++ toString d ++ ")" := rfl

@[simp] theorem message_left (i : Nat) : (left i).message = "left scope " ++ toString i := rfl

@[simp] theorem message_headed (f : String) (n : Nat) : (headed f n).message =
    "function '" ++ f ++ "' with " ++ toString n ++ " parameter(s)" := rfl

@[simp] theorem message_finished (m n : Nat) : (finished m n).message =
    "analysis finished: " ++ toString m ++ " scope(s), " ++ toString n ++ " symbol(s)" := rfl

/-- An entry is known from its message. -/
theorem message_unique {e f : Event} (he : e.Named) (hf : f.Named)
    (h : e.message = f.message) : e = f := by
  have h := congrArg String.toList h
  cases e with
  | read t => exact he.elim
  | started n =>
    cases f with
    | read t => exact hf.elim
    | started m => exact congrArg started (toDigits_injective (by simpa using h))
    | _ => simp at h
  | declared x i =>
    cases f with
    | read t => exact hf.elim
    | declared y j =>
      have h : x.shown.toList ++ (" in scope ".toList ++ Nat.toDigits 10 i) =
          y.shown.toList ++ (" in scope ".toList ++ Nat.toDigits 10 j) := by simpa using h
      obtain ⟨rfl, hscope⟩ := Symbol.shown_unique he hf h
      rw [toDigits_injective (List.append_cancel_left hscope)]
    | _ => simp at h
  | entered i d =>
    cases f with
    | read t => exact hf.elim
    | entered j k =>
      obtain ⟨rfl, rfl⟩ : i = j ∧ d = k := by
        apply numbers_unique "(depth ".toList [')']
        simpa using h
      rfl
    | _ => simp at h
  | left i =>
    cases f with
    | read t => exact hf.elim
    | left j => exact congrArg left (toDigits_injective (by simpa using h))
    | _ => simp at h
  | headed g n =>
    cases f with
    | read t => exact hf.elim
    | headed k m =>
      have h : g.toList ++ '\'' :: (" with ".toList ++ (Nat.toDigits 10 n ++ " parameter(s)".toList)) =
          k.toList ++ '\'' :: (" with ".toList ++ (Nat.toDigits 10 m ++ " parameter(s)".toList)) := by
        simpa using h
      obtain ⟨hname, -, hcount⟩ := run_unique he.isRun hf.isRun (by decide) (by decide) h
      have hcount := List.append_cancel_right (List.append_cancel_left hcount)
      rw [String.toList_injective hname, toDigits_injective hcount]
    | _ => simp at h
  | finished m n =>
    cases f with
    | read t => exact hf.elim
    | finished i j =>
      obtain ⟨rfl, rfl⟩ : m = i ∧ n = j := by
        apply numbers_unique "scope(s), ".toList " symbol(s)".toList
        simpa using h
      rfl
    | _ => simp at h

end Event

end OnePass
