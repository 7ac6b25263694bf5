import NodeCost.Model.Pricing

namespace NodeCost

/-- A named pricing with its answers for whole graphs. These are the sums over the nodes, unless
a model has answers of its own. -/
structure CostModel extends Pricing where
  name : String
  graphCycles : Graph → UInt64 := fun g => toPricing.totalCycles g.toList
  graphSize : Graph → UInt64 := fun g => toPricing.totalSize g.toList
  summarize : Graph → Summary := fun g => toPricing.summary g.toList

def Pricing.named (p : Pricing) (name : String) : CostModel := { p with name }

end NodeCost
