-- Names count by which of them are the same, not by how they are spelled. A
-- text in which other names stand in place of the names, and different ones
-- for different ones, is judged as the text itself.
import OnePass.Proofs.Lexicon.Spellings
import OnePass.Proofs.SideBySide

namespace OnePass

/-! ## Names of a text -/

/-- The names in a text, but for `main`. -/
def namesOf (source : String) : List String :=
  ((tokenize source).filter (·.kind = .name)).map Token.text

theorem mem_namesOf {source x : String} :
    x ∈ namesOf source ↔ ∃ t ∈ tokenize source, t.kind = .name ∧ t.text = x := by
  simp [namesOf, and_assoc]

/-! ## Names of a table of scopes -/

def Birth.names : Birth → List String
  | .scope _ => []
  | .symbol _ x => x.names

/-- All names of symbols and parameters. -/
def Scopes.names (s : Scopes) : List String := s.births.flatMap Birth.names

section
variable {f g : String → String}

theorem Symbol.rename_congr {x : Symbol} (h : ∀ n ∈ x.names, f n = g n) :
    x.rename f = x.rename g := by
  have hname : f x.name = g x.name := h _ List.mem_cons_self
  rcases x with ⟨n, t | t | ⟨t, ps⟩⟩
  · exact congrArg (Symbol.mk · (.value t)) hname
  · exact congrArg (Symbol.mk · (.parameter t)) hname
  · have hps : ps.map (·.rename f) = ps.map (·.rename g) := by
      apply List.map_congr_left
      intro p hp
      have hp : f p.name = g p.name := h _ (List.mem_cons_of_mem _ (List.mem_map_of_mem hp))
      exact congrArg (Parameter.mk · p.type) hp
    show Symbol.mk (f n) (.function t _) = Symbol.mk (g n) (.function t _)
    rw [hps, show f n = g n from hname]

/-- Only the names that are there matter. -/
theorem Scopes.rename_congr {s : Scopes} (h : ∀ n ∈ s.names, f n = g n) :
    s.rename f = s.rename g := by
  have hb : s.births.map (·.rename f) = s.births.map (·.rename g) := by
    apply List.map_congr_left
    intro b hb
    cases b with
    | scope p => rfl
    | symbol home x =>
      refine congrArg (Birth.symbol home) (Symbol.rename_congr fun n hn => h n ?_)
      exact List.mem_flatMap.2 ⟨_, hb, hn⟩
  exact congrArg (Scopes.mk · s.current) hb

theorem Symbol.eq_of_rename_eq {x : Symbol} (h : x.rename f = x) : ∀ n ∈ x.names, f n = n := by
  intro n hn
  rcases List.mem_cons.1 hn with rfl | hn
  · exact congrArg Symbol.name h
  · obtain ⟨p, hp, rfl⟩ := List.mem_map.1 hn
    have hps : x.parameters.map (·.rename f) = x.parameters := by
      rw [← Symbol.parameters_rename, h]
    exact congrArg Parameter.name (List.map_inj_left.1 (hps.trans (List.map_id _).symm) p hp)

/-- A renaming that changes nothing changes no name. -/
theorem Scopes.eq_of_rename_eq {s : Scopes} (h : s.rename f = s) : ∀ n ∈ s.names, f n = n := by
  intro n hn
  obtain ⟨b, hb, hn⟩ := List.mem_flatMap.1 hn
  have hbirths : s.births.map (·.rename f) = s.births := congrArg Scopes.births h
  have hfixed := List.map_inj_left.1 (hbirths.trans (List.map_id _).symm) b hb
  cases b with
  | scope p => cases hn
  | symbol home x => exact Symbol.eq_of_rename_eq (Birth.symbol.inj hfixed).2 n hn

end

/-! ## Renamings of a few names -/

/-- A text longer than whatever `f` makes of one of the names. -/
def padding (names : List String) (f : String → String) : String :=
  String.join (names.map f) ++ "_"

/-- The names are renamed by `f`, and any other text is made longer than
those. -/
def respell (names : List String) (f : String → String) (x : String) : String :=
  if x ∈ names then f x else padding names f ++ x

section
variable {names : List String} {f : String → String} {x : String}

theorem respell_of_mem (h : x ∈ names) : respell names f x = f x := if_pos h

theorem respell_of_not_mem (h : x ∉ names) : respell names f x = padding names f ++ x := if_neg h

theorem length_lt_padding (h : x ∈ names) : (f x).length < (padding names f).length := by
  have hjoin : (f x).length ≤ (String.join (names.map f)).length := by
    induction names with
    | nil => cases h
    | cons n names ih =>
      rw [List.map_cons, String.join_cons, String.length_append]
      rcases List.mem_cons.1 h with rfl | h
      · exact Nat.le_add_right _ _
      · exact Nat.le_trans (ih h) (Nat.le_add_left _ _)
  rw [padding, String.length_append]
  exact Nat.lt_succ_of_le hjoin

/-- No text outside the names is left as it is. -/
theorem mem_of_respell_eq (h : respell names f x = x) : x ∈ names := by
  by_contra hx
  rw [respell_of_not_mem hx] at h
  have hlength := congrArg String.length h
  simp [padding] at hlength

/-- As long as the names stay apart, all texts do. -/
theorem respell_injective (hf : ∀ x ∈ names, ∀ y ∈ names, f x = f y → x = y) :
    Function.Injective (respell names f) := by
  have hne : ∀ {x y}, x ∈ names → y ∉ names → respell names f x ≠ respell names f y := by
    intro x y hx hy h
    rw [respell_of_mem hx, respell_of_not_mem hy] at h
    have hlength := length_lt_padding (f := f) hx
    rw [h, String.length_append] at hlength
    omega
  intro x y h
  by_cases hx : x ∈ names
  · by_cases hy : y ∈ names
    · rw [respell_of_mem hx, respell_of_mem hy] at h
      exact hf x hx y hy h
    · exact absurd h (hne hx hy)
  · by_cases hy : y ∈ names
    · exact absurd h.symm (hne hy hx)
    · rw [respell_of_not_mem hx, respell_of_not_mem hy] at h
      exact String.append_right_inj _ |>.1 h

end

/-! ## Two texts -/

/-- Two tokens of one kind. If they are names other than `main`, the one is
renamed to the other, and else they are spelled alike. -/
def Token.Respelled (word : String → String) (t u : Token) : Prop :=
  u.kind = t.kind ∧ u.text = if t.kind = .name then word t.text else t.text

instance (word : String → String) (t u : Token) : Decidable (t.Respelled word u) :=
  inferInstanceAs (Decidable (_ ∧ _))

/-- A renaming that spares `main`. -/
def sparingMain (word : String → String) (x : String) : String :=
  if x = "main" then x else word x

theorem Cause.stage_rename (word : String → String) (c : Cause) :
    (c.rename word).stage = c.stage := by
  cases c <;> rfl

section
variable {source other : String} {word : String → String}

/-- A name in a text is `main` or one of the others. -/
theorem name_cases {t : Token} (ht : t ∈ tokenize source) (hk : t.kind.isName = true) :
    t.kind = .mainWord ∧ t.text = "main" ∨
      t.kind = .name ∧ t.text ≠ "main" ∧ t.text ∈ namesOf source := by
  by_cases hmain : t.kind = .mainWord
  · exact Or.inl ⟨hmain, (kind_mainWord_iff ht hk).1 hmain⟩
  · have hname : t.kind = .name := by
      revert hk hmain
      cases t.kind <;> simp [Kind.isName]
    exact Or.inr ⟨hname, mt (kind_mainWord_iff ht hk).2 hmain,
      mem_namesOf.2 ⟨t, ht, hname, rfl⟩⟩

/-- Two texts side by side to their ends, one with names changed by
`word`. -/
theorem sideBySide_of_forall
    (h : List.Forall₂ (Token.Renamed word) (tokenize source) (tokenize other)) :
    SideBySide word (reel source) (reel other) (reel source).ahead.length := by
  apply SideBySide.of_take (Nat.le_refl _)
  have hl := h.length_eq
  rw [← tokens_reel, ← tokens_reel] at h hl
  rw [← Reel.length_tokens, List.take_length, hl, List.take_length]
  exact h

/-- The names in the scopes of a program are names in its text. -/
theorem names_subset {scopes : Scopes} (h : (analyze source).verdict = .ok scopes) :
    scopes.names ⊆ "main" :: namesOf source := by
  -- A renaming of all other texts would change any name that is not there.
  let other := respell ("main" :: namesOf source) id
  have hself : List.Forall₂ (Token.Renamed other) (tokenize source) (tokenize source) := by
    rw [List.forall₂_same]
    intro t ht
    refine ⟨rfl, fun hk => ?_, fun _ => rfl⟩
    refine (respell_of_mem (f := id) ?_).symm
    rcases name_cases ht hk with ⟨-, hmain⟩ | ⟨-, -, hname⟩
    · rw [hmain]
      exact List.mem_cons_self
    · exact List.mem_cons_of_mem _ hname
  have hinj : Function.Injective other := respell_injective fun _ _ _ _ h => h
  intro n hn
  apply mem_of_respell_eq (f := id)
  refine Scopes.eq_of_rename_eq ?_ n hn
  rcases (sideBySide_of_forall hself).verdicts hinj #[.started (Text.bytes source.toList)]
    #[.started (Text.bytes source.toList)] with ⟨s, h1, h2⟩ | ⟨c, t, u, i, h1, -⟩
  · rw [examine_reel, h] at h1 h2
    cases h1
    exact (Except.ok.inj h2).symm
  · rw [examine_reel, h] at h1
    cases h1

theorem sparingMain_main : sparingMain word "main" = "main" := if_pos rfl

/-- Any other name is renamed, and does not become `main`. -/
theorem sparingMain_of_mem
    (h : List.Forall₂ (Token.Respelled word) (tokenize source) (tokenize other)) {x : String}
    (hx : x ∈ namesOf source) : sparingMain word x = word x ∧ word x ≠ "main" := by
  obtain ⟨t, ht, hk, rfl⟩ := mem_namesOf.1 hx
  obtain ⟨i, hi, rfl⟩ := List.getElem_of_mem ht
  have hi' : i < (tokenize other).length := by rwa [← h.length_eq]
  obtain ⟨hkind, htext⟩ := h.get hi hi'
  simp only [List.get_eq_getElem] at hkind htext
  rw [if_pos hk] at htext
  rw [hk] at hkind
  have hne : ∀ {s : String} {u : Token}, u ∈ tokenize s → u.kind = .name → u.text ≠ "main" := by
    intro s u hu hname hmain
    rw [(kind_mainWord_iff hu (by rw [hname]; rfl)).2 hmain] at hname
    cases hname
  exact ⟨if_neg (hne ht hk), htext ▸ hne (List.getElem_mem hi') hkind⟩

/-- Renamed without `main`, the names are still apart when `main` is one of
them. -/
theorem sparingMain_apart
    (hw : ∀ x ∈ namesOf source, ∀ y ∈ namesOf source, word x = word y → x = y)
    (h : List.Forall₂ (Token.Respelled word) (tokenize source) (tokenize other)) :
    ∀ x ∈ "main" :: namesOf source, ∀ y ∈ "main" :: namesOf source,
      sparingMain word x = sparingMain word y → x = y := by
  intro x hx y hy hxy
  rcases List.mem_cons.1 hx with rfl | hx
  · rcases List.mem_cons.1 hy with rfl | hy
    · rfl
    · rw [sparingMain_main, (sparingMain_of_mem h hy).1] at hxy
      exact absurd hxy.symm (sparingMain_of_mem h hy).2
  · rcases List.mem_cons.1 hy with rfl | hy
    · rw [sparingMain_main, (sparingMain_of_mem h hx).1] at hxy
      exact absurd hxy (sparingMain_of_mem h hx).2
    · rw [(sparingMain_of_mem h hx).1, (sparingMain_of_mem h hy).1] at hxy
      exact hw x hx y hy hxy

/-- The same renaming, as one of all texts. -/
theorem renamed_of_respelled
    (h : List.Forall₂ (Token.Respelled word) (tokenize source) (tokenize other)) :
    List.Forall₂ (Token.Renamed (respell ("main" :: namesOf source) (sparingMain word)))
      (tokenize source) (tokenize other) := by
  rw [List.forall₂_iff_zip]
  refine ⟨h.length_eq, fun {t u} htu => ?_⟩
  obtain ⟨hkind, htext⟩ := (List.forall₂_iff_zip.1 h).2 htu
  refine ⟨hkind, fun hk => ?_, fun hk => ?_⟩
  · rcases name_cases (List.of_mem_zip htu).1 hk with ⟨hk, hmain⟩ | ⟨hk, -, hmem⟩
    · rw [if_neg (by rw [hk]; simp)] at htext
      rw [htext, hmain, respell_of_mem List.mem_cons_self, sparingMain_main]
    · rw [if_pos hk] at htext
      rw [htext, respell_of_mem (List.mem_cons_of_mem _ hmem), (sparingMain_of_mem h hmem).1]
  · rw [if_neg (by rintro hname; rw [hname] at hk; cases hk)] at htext
    exact htext

end

/-! ## The law -/

/-- A renaming of the names of a text that keeps them apart changes nothing
but the names: the renamed text is accepted with renamed scopes, or turned
down at the same stage, at the token of the same index. -/
theorem a_renamed_text_is_judged_alike {source other : String} {word : String → String}
    (hw : ∀ x ∈ namesOf source, ∀ y ∈ namesOf source, word x = word y → x = y)
    (h : List.Forall₂ (Token.Respelled word) (tokenize source) (tokenize other)) :
    (∀ scopes, (analyze source).verdict = .ok scopes →
      (analyze other).verdict = .ok (scopes.rename (sparingMain word))) ∧
    ∀ r, (analyze source).verdict = .error r →
      ∃ (q : Rejection) (i : Nat), (analyze other).verdict = .error q ∧
        q.cause.stage = r.cause.stage ∧ (tokenize source)[i]? = some r.token ∧
        (tokenize other)[i]? = some q.token := by
  have hside := sideBySide_of_forall (renamed_of_respelled h)
  rcases hside.verdicts (respell_injective (sparingMain_apart hw h))
    #[.started (Text.bytes source.toList)] #[.started (Text.bytes other.toList)] with
    ⟨s, h1, h2⟩ | ⟨c, t, u, i, h1, h2, ht, hu⟩
  · rw [examine_reel] at h1 h2
    refine ⟨?_, ?_⟩
    · intro scopes hs
      cases h1.symm.trans hs
      have hall : ∀ n ∈ s.names, respell ("main" :: namesOf source) (sparingMain word) n =
          sparingMain word n := fun n hn => respell_of_mem (names_subset h1 hn)
      rw [h2, Scopes.rename_congr hall]
    · intro r hr
      cases h1.symm.trans hr
  · rw [examine_reel] at h1 h2
    rw [tokens_reel] at ht hu
    refine ⟨?_, ?_⟩
    · intro scopes hs
      cases h1.symm.trans hs
    · intro r hr
      cases h1.symm.trans hr
      exact ⟨_, i, h2, c.stage_rename _, ht, hu⟩

/-- A variable and a parameter change their names, and `main` does not. -/
theorem a_variable_and_a_parameter_change_names :
    let source := "int x; void main(int y) { x = y; }"
    let other := "int y; void main(int x) { y = x; }"
    let swap := fun n => if n = "x" then "y" else if n = "y" then "x" else n
    let scopes : Scopes :=
      ⟨[.symbol 0 ⟨"x", .value .int⟩, .symbol 0 ⟨"main", .function .void [⟨"y", .int⟩]⟩, .scope 0,
        .symbol 1 ⟨"y", .parameter .int⟩], 0⟩
    (∀ x ∈ namesOf source, ∀ y ∈ namesOf source, swap x = swap y → x = y) ∧
    List.Forall₂ (Token.Respelled swap) (tokenize source) (tokenize other) ∧
    (analyze source).verdict = .ok scopes ∧
    (analyze other).verdict = .ok (scopes.rename (sparingMain swap)) := by
  intro source other swap scopes
  have hw : ∀ x ∈ namesOf source, ∀ y ∈ namesOf source, swap x = swap y → x = y := by
    decide +kernel
  have h : List.Forall₂ (Token.Respelled swap) (tokenize source) (tokenize other) := by
    decide +kernel
  have hv : (analyze source).verdict = .ok scopes := by decide +kernel
  exact ⟨hw, h, hv, (a_renamed_text_is_judged_alike hw h).1 scopes hv⟩

end OnePass
