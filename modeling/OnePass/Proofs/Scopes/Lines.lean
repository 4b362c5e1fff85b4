-- The lines of an outline can be told apart: where all names are written as
-- names are, two outlines that are the same show the same symbols at the same
-- depths.
import OnePass.Proofs.Journal.Words
import OnePass.Proofs.Respelling
import OnePass.Proofs.Scopes.Order

namespace OnePass

/-! ## Cuts -/

/-- A text is cut in one way where the characters of a class end. -/
theorem cut_unique {p : Char → Bool} {a b u v : List Char} (ha : ∀ c ∈ a, p c = true)
    (hb : ∀ c ∈ b, p c = true) (hu : ∀ c, u.head? = some c → p c = false)
    (hv : ∀ c, v.head? = some c → p c = false) (h : a ++ u = b ++ v) : a = b ∧ u = v := by
  have htail : ∀ w : List Char, (∀ c, w.head? = some c → p c = false) → w.takeWhile p = [] := by
    intro w hw
    cases w with
    | nil => rfl
    | cons c w => simp [hw c rfl]
  have htake := congrArg (List.takeWhile p) h
  rw [List.takeWhile_append_of_pos ha, List.takeWhile_append_of_pos hb, htail u hu, htail v hv,
    List.append_nil, List.append_nil] at htake
  subst htake
  exact ⟨rfl, List.append_cancel_left h⟩

/-- Lines that a newline ends can be told apart. -/
theorem lines_unique {ls ms : List (List Char)} (hl : ∀ l ∈ ls, '\n' ∉ l)
    (hm : ∀ m ∈ ms, '\n' ∉ m) (h : ls.flatMap (· ++ ['\n']) = ms.flatMap (· ++ ['\n'])) :
    ls = ms := by
  induction ls generalizing ms with
  | nil =>
    cases ms with
    | nil => rfl
    | cons m ms => simp at h
  | cons l ls ih =>
    obtain ⟨hl0, hl1⟩ := List.forall_mem_cons.1 hl
    cases ms with
    | nil => simp at h
    | cons m ms =>
      obtain ⟨hm0, hm1⟩ := List.forall_mem_cons.1 hm
      simp only [List.flatMap_cons, List.append_assoc, List.singleton_append] at h
      have hclass : ∀ w : List Char, '\n' ∉ w → ∀ c ∈ w, decide (c ≠ '\n') = true := by
        intro w hw c hc
        rw [decide_eq_true_eq]
        rintro rfl
        exact hw hc
      obtain ⟨rfl, hrest⟩ := cut_unique (p := fun c => decide (c ≠ '\n')) (hclass l hl0)
        (hclass m hm0) (by simp) (by simp) h
      exact congrArg (List.cons l) (ih hl1 hm1 (List.cons.inj hrest).2)

/-! ## Names -/

theorem isName_iff {n : String} :
    IsName n ↔ ∃ c w, n.toList = c :: w ∧ startsName c = true ∧ ∀ d ∈ w, continuesName d = true := by
  unfold IsName
  constructor
  · intro h
    generalize n.toList = v at h
    cases h with
    | name hc hw => exact ⟨_, _, rfl, hc, hw⟩
  · rintro ⟨c, w, hn, hc, hw⟩
    rw [hn]
    exact .name hc hw

instance (n : String) : Decidable (IsName n) :=
  match hn : n.toList with
  | [] => isFalse fun h => by
    obtain ⟨c, w, hcw, -⟩ := isName_iff.1 h
    cases hn.symm.trans hcw
  | c :: w =>
    if h : startsName c = true ∧ w.all continuesName = true then
      isTrue (isName_iff.2 ⟨c, w, hn, h.1, List.all_eq_true.1 h.2⟩)
    else isFalse fun hname => by
      obtain ⟨c', w', hcw, hc, hw⟩ := isName_iff.1 hname
      cases hn.symm.trans hcw
      exact h ⟨hc, List.all_eq_true.2 hw⟩

instance (x : Symbol) : Decidable x.Named := inferInstanceAs (Decidable (∀ n ∈ x.names, IsName n))

/-! ## What a line says -/

/-- The symbol, if it is one. -/
def Member.content : Member → Option Symbol
  | .scope _ => none
  | .symbol _ x => some x

/-- The symbol that is born, if it is one. -/
def Birth.content : Birth → Option Symbol
  | .scope _ => none
  | .symbol _ x => some x

namespace Scopes

/-- What the line of a member says: how deep it stands, and which symbol it
is if it is one. -/
def Visit.entry (v : Visit) : Nat × Option Symbol := (v.depth, v.member.content)

/-- A line without its spaces. -/
def Visit.words (v : Visit) : List Char :=
  match v.member with
  | .scope _ => "[Scope]".toList
  | .symbol _ x => x.shown.toList

/-- All names in the line are written as names are. -/
def Visit.Named (v : Visit) : Prop := ∀ x, v.member.content = some x → x.Named

theorem Visit.toList_line (v : Visit) :
    v.line.toList = List.replicate (2 * v.depth) ' ' ++ v.words := by
  obtain ⟨d, c | ⟨i, x⟩⟩ := v <;> simp [line, words]

end Scopes

/-- The line of a symbol starts with its name. -/
theorem Symbol.Named.exists_shown {x : Symbol} (h : x.Named) :
    ∃ c w, x.shown.toList = c :: w ∧ startsName c = true := by
  obtain ⟨c, w, hn, hc, -⟩ := isName_iff.1 (h x.name List.mem_cons_self)
  rw [x.shown_eq, hn]
  exact ⟨c, _, rfl, hc⟩

namespace Scopes

/-- The spaces of a line end where its words start. -/
theorem Visit.Named.head_words {v : Visit} (h : v.Named) :
    ∀ c, v.words.head? = some c → decide (c = ' ') = false := by
  intro c hc
  obtain ⟨d, id | ⟨i, x⟩⟩ := v
  · cases hc
    rfl
  · obtain ⟨e, w, hw, he⟩ := (h x rfl).exists_shown
    have hc : x.shown.toList.head? = some c := hc
    rw [hw] at hc
    cases hc
    rw [decide_eq_false_iff_not]
    rintro rfl
    cases he

/-- A line says one thing. -/
theorem Visit.Named.entry_unique {v w : Visit} (hv : v.Named) (hw : w.Named)
    (h : v.line.toList = w.line.toList) : v.entry = w.entry := by
  rw [v.toList_line, w.toList_line] at h
  have hspaces : ∀ n, ∀ c ∈ List.replicate n ' ', decide (c = ' ') = true := by
    intro n c hc
    rw [List.eq_of_mem_replicate hc]
    rfl
  obtain ⟨hdepth, hwords⟩ := cut_unique (hspaces _) (hspaces _) hv.head_words hw.head_words h
  have hdepth := congrArg List.length hdepth
  rw [List.length_replicate, List.length_replicate] at hdepth
  have hbracket : ∀ x : Symbol, x.Named → "[Scope]".toList ≠ x.shown.toList := by
    intro x hx heq
    obtain ⟨c, l, hl, hc⟩ := hx.exists_shown
    rw [hl] at heq
    cases heq
    cases hc
  obtain ⟨d, m⟩ := v
  obtain ⟨e, n⟩ := w
  obtain rfl : d = e := Nat.eq_of_mul_eq_mul_left (Nat.zero_lt_two) hdepth
  cases m with
  | scope c =>
    cases n with
    | scope c' => rfl
    | symbol j y => exact absurd hwords (hbracket y (hw y rfl))
  | symbol i x =>
    cases n with
    | scope c' => exact absurd hwords.symm (hbracket x (hv x rfl))
    | symbol j y =>
      have hsame := Symbol.shown_unique (hv x rfl) (hw y rfl) (congrArg (· ++ []) hwords)
      rw [entry, entry, Member.content, Member.content, hsame.1]

theorem Visit.Named.newline_not_mem_line {v : Visit} (h : v.Named) : '\n' ∉ v.line.toList := by
  apply Visit.newline_not_mem_line
  intro i x hm
  apply Symbol.newline_not_mem_shown
  intro n hn hmem
  have hx : v.member.content = some x := by rw [hm]; rfl
  have hc := (h x hx n hn).isRun _ hmem
  exact absurd hc (by decide)

/-! ## What an outline says -/

/-- All names of symbols and parameters are written as names are. -/
def Named (s : Scopes) : Prop := ∀ n ∈ s.names, IsName n

theorem Named.symbol {s : Scopes} (h : s.Named) {b : Birth} (hb : b ∈ s.births) {x : Symbol}
    (hx : b.content = some x) : x.Named := by
  intro n hn
  cases b with
  | scope p => cases hx
  | symbol home y =>
    cases hx
    exact h n (List.mem_flatMap.2 ⟨_, hb, hn⟩)

/-- What the lines of an outline say, one after another. -/
def entries (s : Scopes) : List (Nat × Option Symbol) := s.walk.map Visit.entry

variable {s t : Scopes}

/-- What stands where, without the numbers. -/
theorem map_numbered (i j : Nat) (bs : List Birth) :
    (numbered i j bs).map (fun m => (m.1, m.2.content)) = bs.map fun b => (b.place, b.content) := by
  induction bs generalizing i j with
  | nil => rfl
  | cons b bs ih => cases b <;> exact congrArg (List.cons _) (ih _ _)

/-- The entries of an outline are the births, each as deep as its scope. -/
theorem Grown.entries_eq (h : s.Grown) :
    s.entries = s.births.map fun b => (s.depth b.place + 1, b.content) := by
  have hmap := congrArg (List.map fun e => (s.depth e.1 + 1, e.2)) (map_numbered 1 0 s.births)
  rw [List.map_map, List.map_map] at hmap
  rw [entries, h.walk_eq, List.map_map]
  exact hmap

theorem Grown.named_of_mem_walk (h : s.Grown) (hs : s.Named) : ∀ v ∈ s.walk, v.Named := by
  intro v hv x hx
  have hentry : v.entry ∈ s.entries := List.mem_map_of_mem hv
  rw [h.entries_eq] at hentry
  obtain ⟨b, hb, heq⟩ := List.mem_map.1 hentry
  exact hs.symbol hb ((Prod.ext_iff.1 heq).2.trans hx)

theorem toList_outline (s : Scopes) :
    s.outline.toList =
      "[Global]\n".toList ++ (s.walk.map fun v => v.line.toList).flatMap (· ++ ['\n']) := by
  simp [outline, Function.comp_def, List.flatMap]

/-- What is the same in one reading of a list is the same in another. -/
theorem map_unique {α β γ : Type} {f : α → β} {g : α → γ} {P : α → Prop}
    (hfg : ∀ a b, P a → P b → f a = f b → g a = g b) {l m : List α} (hl : ∀ a ∈ l, P a)
    (hm : ∀ a ∈ m, P a) (h : l.map f = m.map f) : l.map g = m.map g := by
  induction l generalizing m with
  | nil =>
    rw [List.map_eq_nil_iff.1 h.symm]
  | cons a l ih =>
    obtain ⟨b, m, rfl, hab, hlm⟩ := List.map_eq_cons_iff.1 h.symm
    obtain ⟨ha, hl⟩ := List.forall_mem_cons.1 hl
    obtain ⟨hb, hm⟩ := List.forall_mem_cons.1 hm
    rw [List.map_cons, List.map_cons, hfg a b ha hb hab.symm, ih hl hm hlm.symm]

/-- Scopes with one outline have the same said of them. -/
theorem Grown.entries_unique (hs : s.Grown) (ht : t.Grown) (hsw : s.Named) (htw : t.Named)
    (h : s.outline = t.outline) : s.entries = t.entries := by
  have hlines := congrArg String.toList h
  rw [toList_outline, toList_outline] at hlines
  have hs := hs.named_of_mem_walk hsw
  have ht := ht.named_of_mem_walk htw
  have hone : ∀ u : Scopes, (∀ v ∈ u.walk, v.Named) →
      ∀ l ∈ u.walk.map fun v => v.line.toList, '\n' ∉ l := by
    intro u hu l hl
    obtain ⟨v, hv, rfl⟩ := List.mem_map.1 hl
    exact (hu v hv).newline_not_mem_line
  have hlines := lines_unique (hone s hs) (hone t ht) (List.append_cancel_left hlines)
  exact map_unique (fun v w hv hw => hv.entry_unique hw) hs ht hlines

end Scopes

end OnePass
