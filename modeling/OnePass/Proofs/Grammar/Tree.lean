-- The grammar of the language as a type: a constructor is a production, and
-- its leaves are the tokens that the production asks for. So a tree cannot
-- be badly formed, and what it spells is a sentence.
import OnePass.Token.Basic
import OnePass.Typing.ValueType

namespace OnePass.Grammar

/-! ## Leaves -/

/-- A token of one kind. -/
abbrev Of (k : Kind) : Type := { t : Token // t.kind = k }

abbrev Name : Type := { t : Token // t.kind.isName = true }

/-- A word for the type of a variable. -/
abbrev TypeWord : Type := { t : Token // t.kind.isTypeWord = true }

abbrev Constant : Type := { t : Token // t.kind.constantType?.isSome = true }

abbrev Sign : Type := { t : Token // t.kind.isSign = true }

/-- An operator of one tier. -/
abbrev OperatorOf (tier : List Operator) : Type :=
  { t : Token // t.kind.isOperatorOf tier = true }

/-- Things with commas between them. -/
structure Commas (α : Type) where
  first : α
  more : List (Of .comma × α)

def Commas.toList {α : Type} (xs : Commas α) : List α := xs.first :: xs.more.map (·.2)

def Commas.spelling {α : Type} (spell : α → List Token) (xs : Commas α) : List Token :=
  spell xs.first ++ xs.more.flatMap fun x => x.1.1 :: spell x.2

/-! ## Expressions -/

mutual

inductive Primary : Type
  | name (x : Name)
  | constant (x : Constant)
  | group (left : Of .leftParen) (inside : Tiered Operator.tiers) (right : Of .rightParen)

/-- An expression of the given tiers of operators, the loosest first. The
operators of a tier lean to the left: what stands on the right of one has
tighter operators only. -/
inductive Tiered : List (List Operator) → Type
  | plain (x : Primary) : Tiered []
  | signed (sign : Sign) (x : Primary) : Tiered []
  | lift {tier : List Operator} {tiers : List (List Operator)} (x : Tiered tiers) :
    Tiered (tier :: tiers)
  | join {tier : List Operator} {tiers : List (List Operator)} (left : Tiered (tier :: tiers))
    (op : OperatorOf tier) (right : Tiered tiers) : Tiered (tier :: tiers)

end

abbrev Expression : Type := Tiered Operator.tiers

mutual

def Primary.spelling : Primary → List Token
  | .name x => [x.1]
  | .constant x => [x.1]
  | .group l x r => l.1 :: (x.spelling ++ [r.1])

def Tiered.spelling : {tiers : List (List Operator)} → Tiered tiers → List Token
  | _, .plain x => x.spelling
  | _, .signed s x => s.1 :: x.spelling
  | _, .lift x => x.spelling
  | _, .join l op r => l.spelling ++ op.1 :: r.spelling

end

def Primary.head : Primary → Token
  | .name x => x.1
  | .constant x => x.1
  | .group l _ _ => l.1

/-- The token with which an expression starts. -/
def Tiered.head : {tiers : List (List Operator)} → Tiered tiers → Token
  | _, .plain x => x.head
  | _, .signed s _ => s.1
  | _, .lift x => x.head
  | _, .join l _ _ => l.head

theorem Primary.spelling_eq (x : Primary) : ∃ ts, x.spelling = x.head :: ts := by
  cases x with
  | name x => exact ⟨[], by rw [Primary.spelling, Primary.head]⟩
  | constant x => exact ⟨[], by rw [Primary.spelling, Primary.head]⟩
  | group l x r => exact ⟨x.spelling ++ [r.1], by rw [Primary.spelling, Primary.head]⟩

theorem Tiered.spelling_eq {tiers : List (List Operator)} (x : Tiered tiers) :
    ∃ ts, x.spelling = x.head :: ts := by
  cases x with
  | plain x =>
    rw [Tiered.spelling, Tiered.head]
    exact x.spelling_eq
  | signed s x => exact ⟨x.spelling, by rw [Tiered.spelling, Tiered.head]⟩
  | lift x =>
    rw [Tiered.spelling, Tiered.head]
    exact x.spelling_eq
  | join l op r =>
    obtain ⟨ts, hts⟩ := l.spelling_eq
    rw [Tiered.spelling, Tiered.head, hts]
    exact ⟨_, rfl⟩

/-- Expressions with commas between them start with the first one. -/
theorem Commas.spelling_eq (xs : Commas Expression) :
    ∃ ts, xs.spelling Tiered.spelling = xs.first.head :: ts := by
  obtain ⟨ts, hts⟩ := xs.first.spelling_eq
  exact ⟨_, by rw [Commas.spelling, hts]; rfl⟩

/-! ## Statements -/

/-- A name of a variable, with a first value or without one. -/
inductive Item : Type
  | bare (name : Name)
  | valued (name : Name) (sign : Of .assign) (value : Expression)

def Item.spelling : Item → List Token
  | .bare x => [x.1]
  | .valued x s e => x.1 :: s.1 :: e.spelling

/-- A declaration of variables. -/
structure Variables : Type where
  word : TypeWord
  items : Commas Item
  stop : Of .semicolon

def Variables.spelling (x : Variables) : List Token :=
  x.word.1 :: (x.items.spelling Item.spelling ++ [x.stop.1])

/-- Arguments of a call, if there are any. -/
def spellArguments : Option (Commas Expression) → List Token
  | none => []
  | some xs => xs.spelling Tiered.spelling

inductive Statement : Type
  | assign (name : Name) (sign : Of .assign) (value : Expression) (stop : Of .semicolon)
  | call (name : Name) (left : Of .leftParen) (arguments : Option (Commas Expression))
    (right : Of .rightParen) (stop : Of .semicolon)
  | block (left : Of .leftBrace) (body : List Statement) (right : Of .rightBrace)
  | loop (word : Of .whileWord) (left : Of .leftParen) (condition : Expression)
    (right : Of .rightParen) (body : Statement)
  | declare (x : Variables)
  | empty (stop : Of .semicolon)

mutual

def Statement.spelling : Statement → List Token
  | .assign x s e stop => x.1 :: s.1 :: (e.spelling ++ [stop.1])
  | .call x l args r stop => x.1 :: l.1 :: (spellArguments args ++ [r.1, stop.1])
  | .block l body r => l.1 :: (spellBody body ++ [r.1])
  | .loop w l e r body => w.1 :: l.1 :: (e.spelling ++ r.1 :: body.spelling)
  | .declare x => x.spelling
  | .empty stop => [stop.1]

def spellBody : List Statement → List Token
  | [] => []
  | x :: xs => x.spelling ++ spellBody xs

end

/-! ## Programs -/

/-- A parameter of a function. It cannot be called `main`. -/
structure ParameterItem : Type where
  word : TypeWord
  name : Of .name

def ParameterItem.spelling (x : ParameterItem) : List Token := [x.word.1, x.name.1]

def spellParameters : Option (Commas ParameterItem) → List Token
  | none => []
  | some xs => xs.spelling ParameterItem.spelling

structure Function : Type where
  word : Of .voidWord
  name : Name
  left : Of .leftParen
  parameters : Option (Commas ParameterItem)
  right : Of .rightParen
  opening : Of .leftBrace
  body : List Statement
  closing : Of .rightBrace

def Function.spelling (x : Function) : List Token :=
  x.word.1 :: x.name.1 :: x.left.1 :: (spellParameters x.parameters ++
    x.right.1 :: x.opening.1 :: (spellBody x.body ++ [x.closing.1]))

inductive Declaration : Type
  | globals (x : Variables)
  | function (x : Function)

def Declaration.spelling : Declaration → List Token
  | .globals x => x.spelling
  | .function x => x.spelling

structure Program : Type where
  declarations : List Declaration
  stop : Of .finish

def Program.spelling (x : Program) : List Token :=
  x.declarations.flatMap Declaration.spelling ++ [x.stop.1]

/-- The kinds of the tokens make up a program. -/
def Sentence (ks : List Kind) : Prop := ∃ p : Program, p.spelling.map Token.kind = ks

/-- The kinds can be completed to those of a program. -/
def Viable (ks : List Kind) : Prop := ∃ more, Sentence (ks ++ more)

end OnePass.Grammar
