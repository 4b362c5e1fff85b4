-- Two programs in one text, with a newline between them, are the program that
-- has the declarations of both. It is accepted unless both declare a global
-- name, and then the second declaration of a name is to blame.
import OnePass.Proofs.Blame
import OnePass.Proofs.Grammar.Sequel
import OnePass.Proofs.Lexicon.Seam

namespace OnePass

open Grammar Text

/-! ## Where a global name stands -/

namespace Grammar

theorem Commas.mem_spelling {α : Type} {spell : α → List Token} {xs : Commas α} {x : α}
    {t : Token} (hx : x ∈ xs.toList) (ht : t ∈ spell x) : t ∈ xs.spelling spell := by
  rcases List.mem_cons.1 hx with rfl | hx
  · exact List.mem_append_left _ ht
  · obtain ⟨y, hy, rfl⟩ := List.mem_map.1 hx
    exact List.mem_append_right _ (List.mem_flatMap.2 ⟨y, hy, List.mem_cons_of_mem _ ht⟩)

/-- A global name is spelled by its token, which is one of the program. -/
theorem Program.token_of_global {x : Program} {g : Global} (h : g ∈ x.globalNames) :
    g.token ∈ x.spelling ∧ g.token.text = g.symbol.name := by
  obtain ⟨d, hd, hg⟩ := List.mem_flatMap.1 h
  have hmem : g.token ∈ d.spelling ∧ g.token.text = g.symbol.name := by
    cases d with
    | globals x =>
      obtain ⟨i, hi, rfl⟩ := List.mem_map.1 hg
      have hitem : (i.global x.word.1.kind.wordType).token ∈ i.spelling := by
        cases i <;> exact List.mem_cons_self
      refine ⟨?_, by cases i <;> rfl⟩
      refine List.mem_cons_of_mem _ (List.mem_append_left _ ?_)
      exact Commas.mem_spelling hi hitem
    | function f =>
      obtain rfl := List.mem_singleton.1 hg
      exact ⟨List.mem_cons_of_mem _ List.mem_cons_self, rfl⟩
  refine ⟨?_, hmem.2⟩
  exact List.mem_append_left _ (List.mem_flatMap.2 ⟨d, hd, hmem.1⟩)

end Grammar

/-- The text is a program, and in it the global symbol is declared by this
token. -/
structure DeclaredBy (source : String) (x : Symbol) (t : Token) : Prop where
  token : t ∈ tokenize source
  text : t.text = x.name
  program : ∃ y : Program, y.spelling = tokenize source
  global : ∀ y : Program, y.spelling = tokenize source →
    ∃ g ∈ y.globalNames, g.symbol = x ∧ g.token = t

/-! ## Lists of tokens that are moved -/

namespace Token

variable {l n : Nat}

theorem alike_moved (t : Token) : t.Alike (t.moved l n) := ⟨rfl, rfl⟩

theorem moved_alike (t : Token) : (t.moved l n).Alike t := ⟨rfl, rfl⟩

theorem moved_injective (l n : Nat) : Function.Injective (moved l n) := by
  rintro ⟨kind, text, line, start, stop⟩ ⟨kind', text', line', start', stop'⟩ h
  simp only [moved, mk.injEq, Span.mk.injEq, Nat.add_right_cancel_iff] at h
  simp [h]

theorem forall₂_moved (l n : Nat) (ts : List Token) :
    List.Forall₂ Alike ts (ts.map (moved l n)) := by
  rw [List.forall₂_map_right_iff, List.forall₂_same]
  exact fun t _ => t.alike_moved

theorem forall₂_moved_left (l n : Nat) (ts : List Token) :
    List.Forall₂ Alike (ts.map (moved l n)) ts := by
  rw [List.forall₂_map_left_iff, List.forall₂_same]
  exact fun t _ => t.moved_alike

end Token

/-- A finished list with all its tokens moved. -/
def Reel.moved (l n : Nat) (r : Reel) : Reel where
  ahead := r.ahead.map (Token.moved l n)
  last := r.last.moved l n
  ahead_ne := by
    intro t ht
    obtain ⟨u, hu, rfl⟩ := List.mem_map.1 ht
    exact r.ahead_ne u hu
  last_eq := r.last_eq

theorem Reel.tokens_moved (l n : Nat) (r : Reel) :
    (r.moved l n).tokens = r.tokens.map (Token.moved l n) := by
  unfold tokens moved
  rw [List.map_append, List.map_singleton]

/-! ## One text behind the other -/

section
variable {first second : String} {s t : Scopes}

/-- A program that is accepted is one wherever its tokens are moved. -/
theorem exists_program_moved (h : (analyze first).verdict = .ok s) (l n : Nat) :
    ∃ x : Program, x.spelling = (tokenize first).map (Token.moved l n) ∧ x.meaning = .ok s := by
  have halike : List.Forall₂ Token.Alike (reel first).tokens ((reel first).moved l n).tokens := by
    rw [Reel.tokens_moved]
    exact Token.forall₂_moved l n _
  rw [← examine_reel] at h
  rcases Reel.verdicts_of_alike halike #[.started (bytes first.toList)] #[] with
    ⟨scopes, h1, h2⟩ | ⟨c, t, u, h1, -⟩
  · cases h.symm.trans h1
    obtain ⟨x, hx, hmeaning⟩ := exists_program_of_ok h2
    exact ⟨x, by rw [hx, Reel.tokens_moved, tokens_reel], hmeaning⟩
  · cases h.symm.trans h1

theorem valid_of_accepted (h : (analyze first).verdict = .ok s) :
    ∀ t ∈ tokenize first, t.kind.fault? = none := by
  intro t ht
  rw [← examine_reel] at h
  obtain ⟨x, hx, -⟩ := exists_program_of_ok h
  rw [tokens_reel] at hx
  exact x.fault?_eq_none (by rwa [hx])

/-- The tree of a text means what the text is judged to be. -/
theorem meaning_of_accepted (h : (analyze second).verdict = .ok t) {y : Program}
    (hy : y.spelling = tokenize second) : y.meaning = .ok t := by
  rw [← examine_reel] at h
  rw [← h]
  exact (verdict_eq_meaning y (by rw [tokens_reel, hy]) _).symm

/-- Both texts are a program together, wherever the tokens of the first one
are moved. It is judged as the text is that has them both. -/
theorem verdict_followedBy (hs : (analyze first).verdict = .ok s) {x y : Program} {l n : Nat}
    (hx : x.spelling = (tokenize first).map (Token.moved l n))
    (hy : y.spelling = tokenize second) :
    (∃ u, (x.followedBy y).meaning = .ok u ∧
      (analyze (first ++ "\n" ++ second)).verdict = .ok u) ∨
    ∃ c u v, (x.followedBy y).meaning = .error ⟨c, u⟩ ∧
      (analyze (first ++ "\n" ++ second)).verdict = .error ⟨c, v⟩ ∧
      (u ∈ (tokenize first).map (Token.moved l n) ∨
        v = u.moved (newlines first.toList + 1) (bytes first.toList + 1)) := by
  have hspelling : (x.followedBy y).reel.tokens =
      (tokenize first).dropLast.map (Token.moved l n) ++ tokenize second := by
    rw [Program.tokens_reel, Program.spelling_followedBy, hx, hy, List.map_dropLast]
  have htokens := tokenize_seam second (valid_of_accepted hs)
  rw [← tokens_reel (first ++ "\n" ++ second)] at htokens
  have halike : List.Forall₂ Token.Alike (x.followedBy y).reel.tokens
      (reel (first ++ "\n" ++ second)).tokens := by
    rw [hspelling, htokens]
    exact List.rel_append (Token.forall₂_moved_left l n _) (Token.forall₂_moved _ _ _)
  have hverdict := verdict_eq_meaning (x.followedBy y) (Program.tokens_reel _) #[]
  rcases Reel.verdicts_of_alike halike #[]
    #[.started (bytes (first ++ "\n" ++ second).toList)] with
    ⟨u, h1, h2⟩ | ⟨c, u, v, h1, h2, i, hu, hv⟩
  · rw [examine_reel] at h2
    exact Or.inl ⟨u, hverdict.symm.trans h1, h2⟩
  · rw [examine_reel] at h2
    refine Or.inr ⟨c, u, v, hverdict.symm.trans h1, h2, ?_⟩
    rw [hspelling] at hu
    rw [htokens] at hv
    have hlen : ((tokenize first).dropLast.map (Token.moved l n)).length =
        (tokenize first).dropLast.length := List.length_map _
    rcases Nat.lt_or_ge i (tokenize first).dropLast.length with hi | hi
    · rw [List.getElem?_append_left (by rwa [hlen])] at hu
      have hsub := (List.dropLast_sublist (tokenize first)).map (Token.moved l n)
      exact Or.inl (hsub.subset (List.mem_of_getElem? hu))
    · rw [List.getElem?_append_right (by rwa [hlen]), hlen] at hu
      rw [List.getElem?_append_right hi, List.getElem?_map, hu] at hv
      exact Or.inr (Option.some.inj hv).symm

/-- The first global name of the second text that the first one has is to
blame. If there is none, the scopes go on. -/
theorem verdict_seam (hs : (analyze first).verdict = .ok s)
    (ht : (analyze second).verdict = .ok t) {y : Program} (hy : y.spelling = tokenize second) :
    (analyze (first ++ "\n" ++ second)).verdict =
      match y.globalNames.find? fun g => s.findIn 0 g.symbol.name ≠ none with
      | none => .ok (s.continuedBy t)
      | some g => .error ⟨.meaning (.redeclared g.symbol),
          g.token.moved (newlines first.toList + 1) (bytes first.toList + 1)⟩ := by
  have hmeaning := meaning_of_accepted ht hy
  cases hfind : y.globalNames.find? fun g => s.findIn 0 g.symbol.name ≠ none with
  | none =>
    obtain ⟨x, hx, hxs⟩ := exists_program_moved hs 0 0
    have hboth := Program.meaning_followedBy hxs hmeaning
    rw [hfind] at hboth
    rcases verdict_followedBy hs hx hy with ⟨u, hu, hverdict⟩ | ⟨c, u, v, hu, -⟩
    · rw [hverdict]
      exact hu.symm.trans hboth
    · cases hu.symm.trans hboth
  | some g =>
    -- The tokens of the first text are moved behind this one, so that it is none of them.
    obtain ⟨x, hx, hxs⟩ := exists_program_moved hs 0 (g.token.span.start + 1)
    have hboth := Program.meaning_followedBy hxs hmeaning
    rw [hfind] at hboth
    rcases verdict_followedBy hs hx hy with ⟨u, hu, -⟩ | ⟨c, u, v, hu, hverdict, htoken⟩
    · cases hu.symm.trans hboth
    · cases hu.symm.trans hboth
      rw [hverdict]
      rcases htoken with hmem | rfl
      · obtain ⟨p, -, hp⟩ := List.mem_map.1 hmem
        have hstart := congrArg (fun t : Token => t.span.start) hp
        simp only [Token.moved] at hstart
        omega
      · rfl

/-- The scopes of a text that is accepted have grown. -/
theorem grown_of_accepted (h : (analyze first).verdict = .ok s) : s.Grown := by
  rw [← examine_reel] at h
  obtain ⟨x, -, hx⟩ := exists_program_of_ok h
  exact x.grown_of_meaning hx

/-- What is to blame is the token that declares the name. -/
theorem declaredBy_of_find? (hs : (analyze first).verdict = .ok s)
    (ht : (analyze second).verdict = .ok t) {y : Program} {g : Global}
    (hy : y.spelling = tokenize second)
    (hg : (y.globalNames.find? fun g => s.findIn 0 g.symbol.name ≠ none) = some g) :
    DeclaredBy second g.symbol g.token := by
  obtain ⟨htoken, htext⟩ := Program.token_of_global (List.mem_of_find?_eq_some hg)
  refine ⟨by rwa [← hy], htext, ⟨y, hy⟩, ?_⟩
  intro z hz
  have hverdict := verdict_seam hs ht hz
  rw [verdict_seam hs ht hy, hg] at hverdict
  cases hfind : z.globalNames.find? fun g => s.findIn 0 g.symbol.name ≠ none with
  | none =>
    rw [hfind] at hverdict
    cases hverdict
  | some f =>
    rw [hfind] at hverdict
    simp only [Except.error.injEq, Rejection.mk.injEq, Cause.meaning.injEq,
      Violation.redeclared.injEq] at hverdict
    exact ⟨f, List.mem_of_find?_eq_some hfind, hverdict.1.symm,
      (Token.moved_injective _ _ hverdict.2).symm⟩

/-- A global name is told of as that of a variable or that of a function. -/
theorem word_of_global {y : Program} {g : Global} (hg : g ∈ y.globalNames) :
    g.symbol.role.word = if g.symbol.role.isFunction then "function" else "variable" := by
  rcases Program.global_cases hg with ⟨⟨type, htype⟩, -⟩ | ⟨f, rfl⟩
  · rw [htype]
    rfl
  · rfl

/-! ## The law -/

theorem apart_iff {y : Program} (hy : y.meaning = .ok t) :
    s.Apart t ↔ (y.globalNames.find? fun g => s.findIn 0 g.symbol.name ≠ none) = none := by
  rw [List.find?_eq_none, Scopes.Apart, (Program.globals_of_meaning hy).2]
  simp only [ne_eq, decide_not, Bool.not_eq_true', decide_eq_false_iff_not, not_not,
    Scopes.findIn_zero_eq_none_iff, List.forall_mem_map]
  exact ⟨fun h g hg x hx => h x hx g hg, fun h x hx g hg => h g hg x hx⟩

/-- Two texts that are accepted are put in a row, with a newline between
them. If they share no global name, the text is accepted with the scopes of
the first one, continued by those of the second one. If they share some, the
first of these that the second one declares is declared for the second time
there, and it is turned down for that. -/
theorem a_program_goes_on_behind_another (hs : (analyze first).verdict = .ok s)
    (ht : (analyze second).verdict = .ok t) :
    (s.Apart t →
      (analyze (first ++ "\n" ++ second)).verdict = .ok (s.continuedBy t) ∧
        (s.continuedBy t).Continues s t) ∧
    (¬s.Apart t → ∃ before x after token,
      t.globals = before ++ x :: after ∧
      (∀ y ∈ s.globals, ∀ z ∈ before, y.name ≠ z.name) ∧
      (∃ y ∈ s.globals, y.name = x.name) ∧
      DeclaredBy second x token ∧
      (analyze (first ++ "\n" ++ second)).verdict = .error ⟨.meaning (.redeclared x),
        token.moved (newlines first.toList + 1) (bytes first.toList + 1)⟩ ∧
      (Cause.meaning (.redeclared x)).stage = .semantic ∧
      (Violation.redeclared x).message = "redeclaration of " ++
        (if x.role.isFunction then "function" else "variable") ++ " '" ++ x.name ++ "'") := by
  obtain ⟨y, hy⟩ : ∃ y : Program, y.spelling = tokenize second := by
    rw [← examine_reel] at ht
    obtain ⟨y, hy, -⟩ := exists_program_of_ok ht
    exact ⟨y, by rw [hy, tokens_reel]⟩
  have hmeaning := meaning_of_accepted ht hy
  have hverdict := verdict_seam hs ht hy
  constructor
  · intro hapart
    rw [(apart_iff hmeaning).1 hapart] at hverdict
    refine ⟨hverdict, ?_⟩
    exact (grown_of_accepted hs).continues (grown_of_accepted ht) (grown_of_accepted hverdict)
      (Program.globals_of_meaning hmeaning).1
  · intro hshared
    rw [apart_iff hmeaning, ← ne_eq, Option.ne_none_iff_exists'] at hshared
    obtain ⟨g, hg⟩ := hshared
    rw [hg] at hverdict
    have hmem := List.mem_of_find?_eq_some hg
    obtain ⟨htaken, before, after, hsplit, hbefore⟩ := List.find?_eq_some_iff_append.1 hg
    simp only [ne_eq, decide_not, Bool.not_eq_true', decide_eq_false_iff_not, Bool.not_not,
      decide_eq_true_eq] at htaken hbefore
    refine ⟨before.map Global.symbol, g.symbol, after.map Global.symbol, g.token, ?_, ?_, ?_,
      declaredBy_of_find? hs ht hy hg, hverdict, rfl, ?_⟩
    · rw [(Program.globals_of_meaning hmeaning).2, hsplit, List.map_append, List.map_cons]
    · intro x hx z hz
      obtain ⟨f, hf, rfl⟩ := List.mem_map.1 hz
      exact Scopes.findIn_zero_eq_none_iff.1 (hbefore f hf) x hx
    · rw [Scopes.findIn_zero_eq_none_iff] at htaken
      simpa using htaken
    · rw [← word_of_global hmem]
      rfl

end

/-- The first text ends in a comment, and both others have a name of their own
`a`. Only the one that is global is a second one. -/
theorem a_parameter_is_no_second_global :
    let first := "int a; // a"
    let second := "void f(int a) { a = 1; }"
    let third := "int b; void a() { b = 1; }"
    let s : Scopes := ⟨[.symbol 0 ⟨"a", .value .int⟩], 0⟩
    let t : Scopes :=
      ⟨[.symbol 0 ⟨"f", .function .void [⟨"a", .int⟩]⟩, .scope 0,
        .symbol 1 ⟨"a", .parameter .int⟩], 0⟩
    let u : Scopes :=
      ⟨[.symbol 0 ⟨"b", .value .int⟩, .symbol 0 ⟨"a", .function .void []⟩, .scope 0], 0⟩
    (analyze first).verdict = .ok s ∧ (analyze second).verdict = .ok t ∧
    (analyze third).verdict = .ok u ∧
    (analyze (first ++ "\n" ++ second)).verdict = .ok (s.continuedBy t) ∧
    ∃ x token, x.name = "a" ∧ DeclaredBy third x token ∧
      (analyze (first ++ "\n" ++ third)).verdict =
        .error ⟨.meaning (.redeclared x), token.moved 1 12⟩ := by
  intro first second third s t u
  have hs : (analyze first).verdict = .ok s := by decide +kernel
  have ht : (analyze second).verdict = .ok t := by decide +kernel
  have hu : (analyze third).verdict = .ok u := by decide +kernel
  have hapart : s.Apart t := by
    unfold Scopes.Apart
    decide
  have hshared : ¬s.Apart u := by
    unfold Scopes.Apart
    decide
  refine ⟨hs, ht, hu, ((a_program_goes_on_behind_another hs ht).1 hapart).1, ?_⟩
  obtain ⟨before, x, after, token, -, -, ⟨y, hy, hname⟩, htoken, hverdict, -⟩ :=
    (a_program_goes_on_behind_another hs hu).2 hshared
  obtain rfl : y = ⟨"a", .value .int⟩ := by simpa [s, Scopes.globals, Scopes.symbols] using hy
  have hlines : newlines first.toList = 0 := by decide +kernel
  have hbytes : bytes first.toList = 11 := by decide +kernel
  rw [hlines, hbytes] at hverdict
  exact ⟨x, token, hname.symm, htoken, hverdict⟩

end OnePass
