import NodeCost.Enumerated

namespace NodeCost

inductive MathFunction where
  | abs
  | sqrt
  | log
  | log10
  | sin
  | cos
  | tan
  | exp
deriving DecidableEq, Repr

namespace MathFunction

def all : List MathFunction := [abs, sqrt, log, log10, sin, cos, tan, exp]

def index : MathFunction → Nat
  | abs => 0
  | sqrt => 1
  | log => 2
  | log10 => 3
  | sin => 4
  | cos => 5
  | tan => 6
  | exp => 7

instance : Enumerated MathFunction where
  all := all
  label
    | abs => "Abs"
    | sqrt => "Sqrt"
    | log => "Log"
    | log10 => "Log10"
    | sin => "Sin"
    | cos => "Cos"
    | tan => "Tan"
    | exp => "Exp"

def isLogarithm : MathFunction → Bool
  | log | log10 => true
  | _ => false

end MathFunction

inductive ElementKind where
  | bool
  | byte
  | char
  | short
  | int
  | long
  | float
  | double
  | object
deriving DecidableEq, Repr

namespace ElementKind

def all : List ElementKind := [bool, byte, char, short, int, long, float, double, object]

def index : ElementKind → Nat
  | bool => 0
  | byte => 1
  | char => 2
  | short => 3
  | int => 4
  | long => 5
  | float => 6
  | double => 7
  | object => 8

instance : Enumerated ElementKind where
  all := all
  label
    | bool => "Bool"
    | byte => "Byte"
    | char => "Char"
    | short => "Short"
    | int => "Int"
    | long => "Long"
    | float => "Float"
    | double => "Double"
    | object => "Object"

def name : ElementKind → String
  | bool => "bool"
  | byte => "byte"
  | char => "char"
  | short => "short"
  | int => "int"
  | long => "long"
  | float => "float"
  | double => "double"
  | object => "object"

end ElementKind

end NodeCost
