import NodeCost.Operator.Basic

namespace NodeCost

structure NodeId where
  index : UInt32
deriving DecidableEq, Repr

namespace NodeId

instance : Ord NodeId where
  compare a b := compare a.index b.index

def dump (id : NodeId) : String := "n" ++ toString id.index.toNat

def dumpList (ids : List NodeId) : String := "[" ++ ", ".intercalate (ids.map dump) ++ "]"

end NodeId

structure Node where
  op : Operator
  inputs : List NodeId := []
deriving DecidableEq, Repr

namespace Node

def parameter (index : UInt16) : Node := { op := .parameter index }

def constInt (value : Int64) : Node := { op := .constInt value }

def intAdd (lhs rhs : NodeId) : Node := { op := .intOp .add, inputs := [lhs, rhs] }

def math (function : MathFunction) (value : NodeId) : Node :=
  { op := .mathIntrinsic function, inputs := [value] }

def arrayEquals (kind : ElementKind) (lhs rhs length : NodeId) : Node :=
  { op := .arrayEquals kind, inputs := [lhs, rhs, length] }

def ret (control value : NodeId) : Node :=
  { op := .control .ret, inputs := [control, value] }

def input? (n : Node) (i : Nat) : Option NodeId := n.inputs[i]?

def dump (n : Node) : String :=
  if n.inputs.isEmpty then n.op.dump else n.op.dump ++ " " ++ NodeId.dumpList n.inputs

end Node

end NodeCost
