import NodeCost.Model.Generic
import NodeCost.Target.Basic

namespace NodeCost

structure Amd64 where
  avx2 : Bool
  sse41 : Bool
deriving DecidableEq, Repr

namespace Amd64

def ofTarget (t : Target) : Amd64 where
  avx2 := t.contains .avx2
  sse41 := t.contains .sse41

/-- A logarithm is expanded to a polynomial, a return has an epilogue, and arrays are compared
by vectors where there are any; all else costs what it costs everywhere. -/
def cycles (m : Amd64) (op : Operator) : Cycles :=
  match op with
  | .mathIntrinsic f => if f.isLogarithm then .fifteen else Generic.cycles op
  | .control .ret => .six
  | .arrayEquals _ => if m.avx2 then .fifty else if m.sse41 then .eighty else Generic.cycles op
  | _ => Generic.cycles op

/-- The size does not depend on the vector compares. -/
def size (op : Operator) : Size :=
  match op with
  | .mathIntrinsic f => if f.isLogarithm then .thirty else Generic.size op
  | .control .ret => .four
  | _ => Generic.size op

def model (m : Amd64) : CostModel where
  name := "amd64"
  cycles n := m.cycles n.op
  size n := size n.op

def dump (m : Amd64) : String :=
  "Amd64CostModel \x7b generic: GenericCostModel, avx2: " ++ toString m.avx2
    ++ ", sse41: " ++ toString m.sse41 ++ " \x7d"

end Amd64

def CostModel.ofTarget (t : Target) : CostModel :=
  match t.arch with
  | .x86_64 => (Amd64.ofTarget t).model
  | .aarch64 | .generic => Generic.model

end NodeCost
