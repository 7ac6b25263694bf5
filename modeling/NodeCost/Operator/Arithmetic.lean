import NodeCost.Enumerated

namespace NodeCost

inductive Arithmetic where
  | add
  | sub
  | mul
  | trueDiv
  | floorDiv
  | mod
  | pow
  | neg
  | abs
deriving DecidableEq, Repr

namespace Arithmetic

def all : List Arithmetic := [add, sub, mul, trueDiv, floorDiv, mod, pow, neg, abs]

/-- The number of an operation; those with one operand start at sixteen. -/
def index : Arithmetic → Nat
  | add => 0
  | sub => 1
  | mul => 2
  | trueDiv => 3
  | floorDiv => 4
  | mod => 5
  | pow => 6
  | neg => 16
  | abs => 18

instance : Enumerated Arithmetic where
  all := all
  label
    | add => "Add"
    | sub => "Sub"
    | mul => "Mul"
    | trueDiv => "TrueDiv"
    | floorDiv => "FloorDiv"
    | mod => "Mod"
    | pow => "Pow"
    | neg => "Neg"
    | abs => "Abs"

def isDivision : Arithmetic → Bool
  | trueDiv | floorDiv | mod => true
  | _ => false

end Arithmetic

inductive Comparison where
  | lt
  | le
  | eq
  | ne
  | gt
  | ge
  | same
  | notSame
deriving DecidableEq, Repr

namespace Comparison

def all : List Comparison := [lt, le, eq, ne, gt, ge, same, notSame]

def index : Comparison → Nat
  | lt => 0
  | le => 1
  | eq => 2
  | ne => 3
  | gt => 4
  | ge => 5
  | same => 6
  | notSame => 7

instance : Enumerated Comparison where
  all := all
  label
    | lt => "Lt"
    | le => "Le"
    | eq => "Eq"
    | ne => "Ne"
    | gt => "Gt"
    | ge => "Ge"
    | same => "Is"
    | notSame => "IsNot"

end Comparison

inductive BitOperation where
  | and
  | or
  | xor
  | shl
  | shr
  | not
deriving DecidableEq, Repr

namespace BitOperation

def all : List BitOperation := [and, or, xor, shl, shr, not]

def index : BitOperation → Nat
  | and => 0
  | or => 1
  | xor => 2
  | shl => 3
  | shr => 4
  | not => 16

instance : Enumerated BitOperation where
  all := all
  label
    | and => "And"
    | or => "Or"
    | xor => "Xor"
    | shl => "Shl"
    | shr => "Shr"
    | not => "Not"

end BitOperation

end NodeCost
