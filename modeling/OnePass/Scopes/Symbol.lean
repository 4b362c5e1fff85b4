-- The symbols of a program: variables, parameters and functions.
import OnePass.Typing.ValueType

namespace OnePass

/-- A parameter of a function. -/
structure Parameter where
  name : String
  type : ValueType
deriving DecidableEq

/-- What a symbol stands for. A function that is declared in a program gives
no value back, so its type is `void`. -/
inductive Role where
  /-- A variable. -/
  | value (type : ValueType)
  | parameter (type : ValueType)
  | function (type : ValueType) (parameters : List Parameter)
deriving DecidableEq

/-- A name and what it stands for. -/
structure Symbol where
  name : String
  role : Role
deriving DecidableEq

namespace Role

/-- The role in one word. -/
def word : Role → String
  | value _ => "variable"
  | parameter _ => "parameter"
  | function .. => "function"

/-- The type of the values. -/
def type : Role → ValueType
  | value t => t
  | parameter t => t
  | function t _ => t

def isFunction : Role → Bool
  | function .. => true
  | _ => false

/-- The parameters of a function; nothing else has any. -/
def parameters : Role → List Parameter
  | function _ ps => ps
  | _ => []

end Role

namespace Symbol

abbrev type (s : Symbol) : ValueType := s.role.type

abbrev parameters (s : Symbol) : List Parameter := s.role.parameters

/-- The names of a symbol and of its parameters. -/
def names (x : Symbol) : List String := x.name :: x.parameters.map Parameter.name

/-- The symbol on one line: `x (int)`, `a (int, parameter)` or
`f (void function(int a, double b))`. -/
def shown (s : Symbol) : String :=
  match s.role with
  | .value t => s.name ++ " (" ++ t.name ++ ")"
  | .parameter t => s.name ++ " (" ++ t.name ++ ", parameter)"
  | .function t ps =>
    s.name ++ " (" ++ t.name ++ " function(" ++
      ", ".intercalate (ps.map fun p => p.type.name ++ " " ++ p.name) ++ "))"

end Symbol

end OnePass
