import NodeCost.Graph.Basic
import NodeCost.Summary
import NodeCost.Tier.Cycles
import NodeCost.Tier.Size

namespace NodeCost

structure Pricing where
  cycles : Node → Cycles
  size : Node → Size

namespace Pricing

def totalCycles (p : Pricing) (nodes : List Node) : UInt64 := Tier.total p.cycles nodes

def totalSize (p : Pricing) (nodes : List Node) : UInt64 := Tier.total p.size nodes

def recordNode (p : Pricing) (s : Summary) (n : Node) : Summary :=
  s.record n.op.category (p.cycles n).value (p.size n).value

def summary (p : Pricing) (nodes : List Node) : Summary := nodes.foldl p.recordNode {}

end Pricing

end NodeCost
