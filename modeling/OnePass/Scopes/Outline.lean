-- The scopes as an outline: each member on a line of its own, two spaces
-- deeper than the scope that it stands in.
import OnePass.Scopes.Basic

namespace OnePass.Scopes

/-- A member met on a walk, with the number of scopes around it. -/
structure Visit where
  depth : Nat
  member : Member
deriving DecidableEq

/-- A walk through a scope: its members in order, each scope followed by
what is inside it. A scope inside another is younger. -/
def walkFrom (s : Scopes) (id depth : Nat) : List Visit :=
  (s.members id).flatMap fun m =>
    match m with
    | .symbol .. => [⟨depth, m⟩]
    | .scope c =>
      ⟨depth, m⟩ :: if _ : id < c ∧ c < s.scopeCount then s.walkFrom c (depth + 1) else []
termination_by s.scopeCount - id

/-- A walk through everything. -/
def walk (s : Scopes) : List Visit := s.walkFrom 0 1

/-- All scopes in the order of the walk. -/
def inOrder (s : Scopes) : List Nat :=
  0 :: s.walk.filterMap fun v =>
    match v.member with
    | .scope c => some c
    | .symbol .. => none

/-- The line of a member. -/
def Visit.line (v : Visit) : String :=
  String.ofList (List.replicate (2 * v.depth) ' ') ++
    match v.member with
    | .scope _ => "[Scope]"
    | .symbol _ x => x.shown

/-- The outline of all scopes. -/
def outline (s : Scopes) : String :=
  "[Global]\n" ++ String.join (s.walk.map fun v => v.line ++ "\n")

end OnePass.Scopes
