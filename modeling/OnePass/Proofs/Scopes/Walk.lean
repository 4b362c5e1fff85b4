-- The walk through all scopes meets scopes and symbols in the order in which
-- they were born. What is current is always at the end of what was walked so
-- far, so a birth there comes last in the walk as well.
import OnePass.Proofs.Scopes.Chains

namespace OnePass.Scopes

variable {s t : Scopes} {x : Symbol} {m : Member} {id p c d : Nat}

/-! ## New members -/

theorem members_enter (s : Scopes) (id : Nat) :
    s.enter.members id = s.members id ++ if s.current = id then [.scope s.scopeCount] else [] := by
  rw [members_append s.births_enter]
  by_cases h : s.current = id <;> simp [numbered, h]

theorem members_declare (h : s.declare? x = some t) (id : Nat) :
    t.members id = s.members id ++
      if s.current = id then [.symbol s.symbolCount x] else [] := by
  rw [members_append (births_declare? h)]
  by_cases h : s.current = id <;> simp [numbered, h]

/-! ## The last way down -/

/-- Each scope around the current one ends with the next scope on the way
down to it. -/
def Rightmost (s : Scopes) : Prop :=
  ∀ c ∈ s.enclosing s.current, ∀ p, s.parent? c = some p →
    (s.members p).getLast? = some (.scope c)

theorem Grown.rightmost (h : s.Grown) : s.Rightmost := by
  induction h with
  | empty =>
    intro c hc p hp
    obtain rfl : c = 0 := by simpa [Scopes.empty] using hc
    cases hp
  | @enter s hs ih =>
    intro c hc p hp
    have hs := hs.ordered
    rw [current_enter, hs.enclosing_enter, List.mem_cons] at hc
    rw [parent?_enter] at hp
    rcases hc with rfl | hc
    · rw [if_pos rfl] at hp
      cases hp
      rw [members_enter, if_pos rfl, List.getLast?_concat]
    · have hle := hs.le_of_mem_enclosing _ hs.current_lt c hc
      have hlt := hs.current_lt
      rw [if_neg (by omega)] at hp
      have hp' := hs.parent_lt hp
      rw [members_enter, if_neg (by omega), List.append_nil]
      exact ih c hc p hp
  | @leave s t hs ht ih =>
    intro c hc p hp
    obtain ⟨q, hq, rfl⟩ := leave?_eq_some_iff.1 ht
    apply ih c _ p hp
    rw [hs.ordered.enclosing_of_parent? hq]
    exact List.mem_cons_of_mem _ hc
  | @declare s t x hs ht ih =>
    intro c hc p hp
    have hs := hs.ordered
    rw [current_declare? ht, enclosing_congr (parents_declare? ht)] at hc
    rw [parent?_congr (parents_declare? ht)] at hp
    have hle := hs.le_of_mem_enclosing _ hs.current_lt c hc
    have hlt := hs.parent_lt hp
    rw [members_declare ht, if_neg (by omega), List.append_nil]
    exact ih c hc p hp

/-! ## One walk and the next -/

/-- What a walk meets at a member, and inside it. -/
def walkAt (s : Scopes) (depth : Nat) : Member → List Visit
  | .symbol i x => [⟨depth, .symbol i x⟩]
  | .scope c => ⟨depth, .scope c⟩ :: s.walkFrom c (depth + 1)

/-- The walk goes into every scope that it meets. -/
theorem Ordered.walkFrom_eq (hs : s.Ordered) (id depth : Nat) :
    s.walkFrom id depth = (s.members id).flatMap (s.walkAt depth) := by
  rw [walkFrom]
  apply List.flatMap_congr
  intro m hm
  cases m with
  | symbol i x => rfl
  | scope c =>
    have hc := scope_mem_members.1 hm
    simp only [walkAt]
    rw [dif_pos ⟨hs.parent_lt hc, lt_scopeCount_of_parent? hc⟩]

/-- Which scope is current is nothing to a walk. -/
theorem Ordered.walkFrom_congr (hs : s.Ordered) (ht : t.Ordered) (h : t.births = s.births) :
    ∀ id < s.scopeCount, ∀ depth, t.walkFrom id depth = s.walkFrom id depth := by
  refine hs.downward ?_
  intro id hid ih depth
  have hm : t.members id = s.members id := by
    unfold members
    rw [h]
  rw [hs.walkFrom_eq, ht.walkFrom_eq, hm]
  apply List.flatMap_congr
  intro m hm
  cases m with
  | symbol i x => rfl
  | scope c => simp only [walkAt, ih c (scope_mem_members.1 hm)]

/-- The next scope on the way down stands at the end, and only there. -/
theorem Rightmost.exists_members_eq (hr : s.Rightmost) (hs : s.Ordered)
    (hid : id ∈ s.enclosing s.current) (hne : id ≠ s.current) :
    ∃ ms c, s.members id = ms ++ [.scope c] ∧ c ∈ s.enclosing s.current ∧
      ∀ c', .scope c' ∈ ms → c' ∉ s.enclosing s.current := by
  obtain ⟨c, hc, hp⟩ := (hs.eq_or_exists_child _ hs.current_lt id hid).resolve_left hne
  obtain ⟨ms, hms⟩ := List.getLast?_eq_some_iff.1 (hr c hc id hp)
  refine ⟨ms, c, hms, hc, ?_⟩
  intro c' hc' hmem
  have hlast := hr c' hmem id (scope_mem_members.1 (by rw [hms]; exact List.mem_append_left _ hc'))
  rw [hms, List.getLast?_concat] at hlast
  cases hlast
  have hnodup := s.nodup_members id
  rw [hms, List.nodup_append] at hnodup
  exact hnodup.2.2 _ hc' _ (List.mem_singleton_self _) rfl

/-- No other scope has a scope in it that is on the way down. -/
theorem Ordered.not_mem_enclosing (hs : s.Ordered)
    (hid : id ∉ s.enclosing s.current ∨ id = s.current) :
    ∀ c, .scope c ∈ s.members id → c ∉ s.enclosing s.current := by
  intro c hc hmem
  have hp := scope_mem_members.1 hc
  rcases hid with hid | rfl
  · exact hid (hs.mem_enclosing_of_parent? _ hs.current_lt c hmem id hp)
  · have hle := hs.le_of_mem_enclosing _ hs.current_lt c hmem
    have hlt := hs.parent_lt hp
    omega

/-- A member that comes into the current scope is met last, by every walk
that comes through the current scope. -/
theorem Ordered.walkFrom_append (hs : s.Ordered) (ht : t.Ordered) (hr : s.Rightmost)
    (hm : ∀ id, t.members id = s.members id ++ if s.current = id then [m] else [])
    (hlast : ∀ d, t.walkAt d m = [⟨d, m⟩]) :
    ∀ id < s.scopeCount, t.walkFrom id (s.depth id + 1) = s.walkFrom id (s.depth id + 1) ++
      if id ∈ s.enclosing s.current then [⟨s.depth s.current + 1, m⟩] else [] := by
  refine hs.downward ?_
  intro id hid ih
  have hat : ∀ n ∈ s.members id, (∀ c, n = .scope c → c ∉ s.enclosing s.current) →
      t.walkAt (s.depth id + 1) n = s.walkAt (s.depth id + 1) n := by
    intro n hn hopen
    cases n with
    | symbol i x => rfl
    | scope c =>
      have hc := scope_mem_members.1 hn
      have hwalk := ih c hc
      rw [hs.depth_of_parent? hc, if_neg (hopen c rfl), List.append_nil] at hwalk
      simp only [walkAt, hwalk]
  have hsame : ∀ ms : List Member, (∀ n ∈ ms, n ∈ s.members id) →
      (∀ c, Member.scope c ∈ ms → c ∉ s.enclosing s.current) →
      ms.flatMap (t.walkAt (s.depth id + 1)) = ms.flatMap (s.walkAt (s.depth id + 1)) := by
    intro ms hsub hopen
    apply List.flatMap_congr
    intro n hn
    exact hat n (hsub n hn) fun c hc => hopen c (hc ▸ hn)
  rw [hs.walkFrom_eq, ht.walkFrom_eq, hm, List.flatMap_append]
  by_cases hcur : id = s.current
  · -- The new member stands in this very scope.
    rw [hsame _ (fun _ h => h) (hs.not_mem_enclosing (Or.inr hcur)), if_pos hcur.symm, hcur,
      if_pos (hs.self_mem_enclosing hs.current_lt), List.flatMap_singleton, hlast]
  · rw [if_neg (Ne.symm hcur), List.flatMap_nil, List.append_nil]
    by_cases hmem : id ∈ s.enclosing s.current
    · -- It stands somewhere inside the last scope here.
      obtain ⟨ms, c, hms, hc, hopen⟩ := hr.exists_members_eq hs hmem hcur
      have hcm : Member.scope c ∈ s.members id := by
        rw [hms]
        exact List.mem_append_right _ (List.mem_singleton_self _)
      have hwalk := ih c (scope_mem_members.1 hcm)
      rw [hs.depth_of_parent? (scope_mem_members.1 hcm), if_pos hc] at hwalk
      have hsub : ∀ n ∈ ms, n ∈ s.members id := by
        rw [hms]
        exact fun n hn => List.mem_append_left _ hn
      rw [if_pos hmem, hms, List.flatMap_append, List.flatMap_append, hsame ms hsub hopen,
        List.flatMap_singleton, List.flatMap_singleton, List.append_assoc]
      simp only [walkAt, hwalk, List.cons_append]
    · rw [if_neg hmem, List.append_nil,
        hsame _ (fun _ h => h) (hs.not_mem_enclosing (Or.inl hmem))]

/-! ## The order of births -/

/-- What a walk tells of a member that stands in a scope. -/
def visit (s : Scopes) (m : Nat × Member) : Visit := ⟨s.depth m.1 + 1, m.2⟩

theorem Ordered.place_lt (hs : s.Ordered) : ∀ m ∈ numbered 1 0 s.births, m.1 < s.scopeCount := by
  rintro ⟨p, n⟩ hm
  have hmem := mem_members.2 hm
  cases n with
  | scope c =>
    have hp := scope_mem_members.1 hmem
    exact Nat.lt_trans (hs.parent_lt hp) (lt_scopeCount_of_parent? hp)
  | symbol i x => exact hs.home_lt _ (List.mem_of_getElem? (symbol_mem_members.1 hmem))

/-- Nothing stands in a scope that is not there yet. -/
theorem Ordered.members_eq_nil (hs : s.Ordered) (hid : s.scopeCount ≤ id) : s.members id = [] := by
  rw [List.eq_nil_iff_forall_not_mem]
  intro n hn
  have hlt := hs.place_lt _ (mem_members.1 hn)
  omega

/-- A birth in the current scope comes last in the walk. -/
theorem Ordered.walk_append (hs : s.Ordered) (ht : t.Ordered) (hr : s.Rightmost) {ps : List Nat}
    (hp : t.parents = s.parents ++ ps)
    (hn : numbered 1 0 t.births = numbered 1 0 s.births ++ [(s.current, m)])
    (hm : ∀ id, t.members id = s.members id ++ if s.current = id then [m] else [])
    (hlast : ∀ d, t.walkAt d m = [⟨d, m⟩])
    (ih : s.walk = (numbered 1 0 s.births).map s.visit) :
    t.walk = (numbered 1 0 t.births).map t.visit := by
  have hdepth : ∀ id < s.scopeCount, t.depth id = s.depth id := by
    intro id hid
    unfold depth
    rw [hs.enclosing_of_parents ht hp id hid]
  have hvisit : (numbered 1 0 s.births).map t.visit = (numbered 1 0 s.births).map s.visit := by
    apply List.map_congr_left
    intro n hn
    simp only [visit, hdepth _ (hs.place_lt n hn)]
  have hwalk := hs.walkFrom_append ht hr hm hlast 0 (Nat.zero_lt_succ _)
  rw [depth_zero, if_pos (hs.zero_mem_enclosing _ hs.current_lt)] at hwalk
  rw [hn, List.map_append, hvisit, ← ih, List.map_singleton]
  unfold walk visit
  rw [hwalk, hdepth _ hs.current_lt]

/-- The walk meets everything in the order of the births. -/
theorem Grown.walk_eq (h : s.Grown) : s.walk = (numbered 1 0 s.births).map s.visit := by
  induction h with
  | empty =>
    unfold walk
    rw [Ordered.empty.walkFrom_eq]
    rfl
  | @enter s hs ih =>
    have ho := hs.ordered
    apply ho.walk_append ho.enter hs.rightmost s.parents_enter _ s.members_enter _ ih
    · exact numbered_births_append s.births_enter
    · intro d
      have hne : s.current ≠ s.scopeCount := Nat.ne_of_lt ho.current_lt
      rw [walkAt, ho.enter.walkFrom_eq, members_enter, if_neg hne,
        ho.members_eq_nil (Nat.le_refl _)]
      rfl
  | @leave s t hs ht ih =>
    have hb := births_leave? ht
    have hwalk : t.walk = s.walk :=
      hs.ordered.walkFrom_congr (hs.ordered.leave ht) hb 0 (Nat.zero_lt_succ _) 1
    have hvisit : t.visit = s.visit := by
      funext m
      unfold visit depth enclosing parents
      rw [hb]
    rw [hwalk, hvisit, hb, ih]
  | @declare s t x hs ht ih =>
    have ho := hs.ordered
    have hparents : t.parents = s.parents ++ [] := by rw [parents_declare? ht, List.append_nil]
    exact ho.walk_append (ho.declare ht) hs.rightmost hparents
      (numbered_births_append (births_declare? ht)) (members_declare ht) (fun _ => rfl) ih

end OnePass.Scopes
