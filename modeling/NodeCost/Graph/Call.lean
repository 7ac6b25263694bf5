import NodeCost.Graph.Basic

namespace NodeCost

namespace Graph

def parameter (g : Graph) (index : UInt16) : NodeId × Graph := g.add (.parameter index) []

def constInt (g : Graph) (value : Int64) : NodeId × Graph := g.add (.constInt value) []

def intAdd (g : Graph) (lhs rhs : NodeId) : NodeId × Graph := g.add (.intOp .add) [lhs, rhs]

def math (g : Graph) (function : MathFunction) (value : NodeId) : NodeId × Graph :=
  g.add (.mathIntrinsic function) [value]

def arrayEquals (g : Graph) (kind : ElementKind) (lhs rhs length : NodeId) : NodeId × Graph :=
  g.add (.arrayEquals kind) [lhs, rhs, length]

def ret (g : Graph) (control value : NodeId) : NodeId × Graph :=
  g.add (.control .ret) [control, value]

inductive Call where
  | add (op : Operator) (inputs : List NodeId)
  | parameter (index : UInt16)
  | constInt (value : Int64)
  | intAdd (lhs rhs : NodeId)
  | math (function : MathFunction) (value : NodeId)
  | arrayEquals (kind : ElementKind) (lhs rhs length : NodeId)
  | ret (control value : NodeId)
deriving DecidableEq, Repr

def call (g : Graph) : Call → NodeId × Graph
  | .add op inputs => g.add op inputs
  | .parameter index => g.parameter index
  | .constInt value => g.constInt value
  | .intAdd lhs rhs => g.intAdd lhs rhs
  | .math function value => g.math function value
  | .arrayEquals kind lhs rhs length => g.arrayEquals kind lhs rhs length
  | .ret control value => g.ret control value

def run (g : Graph) : List Call → List NodeId × Graph
  | [] => ([], g)
  | c :: cs =>
    let (id, g) := g.call c
    let (ids, g) := g.run cs
    (id :: ids, g)

def Call.node : Call → Node
  | add op inputs => { op, inputs }
  | parameter index => .parameter index
  | constInt value => .constInt value
  | intAdd lhs rhs => .intAdd lhs rhs
  | math function value => .math function value
  | arrayEquals kind lhs rhs length => .arrayEquals kind lhs rhs length
  | ret control value => .ret control value

theorem call_eq_add (g : Graph) (c : Call) : g.call c = g.add c.node.op c.node.inputs := by
  cases c <;> rfl

@[simp] theorem toList_call (g : Graph) (c : Call) :
    (g.call c).2.toList = g.toList ++ [c.node] := by
  rw [call_eq_add, toList_add]

@[simp] theorem toList_run (g : Graph) (cs : List Call) :
    (g.run cs).2.toList = g.toList ++ cs.map Call.node := by
  induction cs generalizing g with
  | nil => simp [run]
  | cons c cs ih => simp [run, ih]

theorem run_append (g : Graph) (cs ds : List Call) :
    g.run (cs ++ ds) =
      ((g.run cs).1 ++ ((g.run cs).2.run ds).1, ((g.run cs).2.run ds).2) := by
  induction cs generalizing g with
  | nil => rfl
  | cons c cs ih => simp [run, ih]

end Graph

end NodeCost
