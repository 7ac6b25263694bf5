import NodeCost.Enumerated

namespace NodeCost

/-- A class of operators that are counted together. -/
inductive Category where
  | constant
  | arithmetic
  | comparison
  | bitwise
  | memory
  | control
  | guard
  | call
  | projection
  | phi
  | object
  | intrinsic
deriving DecidableEq, Repr

namespace Category

def all : List Category :=
  [constant, arithmetic, comparison, bitwise, memory, control, guard, call, projection, phi,
   object, intrinsic]

def index : Category → Nat
  | constant => 0
  | arithmetic => 1
  | comparison => 2
  | bitwise => 3
  | memory => 4
  | control => 5
  | guard => 6
  | call => 7
  | projection => 8
  | phi => 9
  | object => 10
  | intrinsic => 11

instance : Ord Category where
  compare a b := compare a.index b.index

instance : Enumerated Category where
  all := all
  label
    | constant => "Constant"
    | arithmetic => "Arithmetic"
    | comparison => "Comparison"
    | bitwise => "Bitwise"
    | memory => "Memory"
    | control => "Control"
    | guard => "Guard"
    | call => "Call"
    | projection => "Projection"
    | phi => "Phi"
    | object => "Object"
    | intrinsic => "Intrinsic"

theorem mem_all (c : Category) : c ∈ all := by cases c <;> decide

theorem eq_of_index_eq {c d : Category} (h : c.index = d.index) : c = d := by
  cases c <;> cases d <;> first | rfl | simp [index] at h

end Category

end NodeCost
