import NodeCost.Model.Basic

namespace NodeCost

/-- How a model is held: as it is, or behind handles that own or share it. A handle passes every
question on. -/
inductive Handle where
  | direct (m : CostModel)
  | owned (h : Handle)
  | shared (h : Handle)

namespace Handle

def name : Handle → String
  | direct m => m.name
  | owned h | shared h => h.name

def cycles : Handle → Node → Cycles
  | direct m => m.cycles
  | owned h | shared h => h.cycles

def size : Handle → Node → Size
  | direct m => m.size
  | owned h | shared h => h.size

def graphCycles : Handle → Graph → UInt64
  | direct m => m.graphCycles
  | owned h | shared h => h.graphCycles

def graphSize : Handle → Graph → UInt64
  | direct m => m.graphSize
  | owned h | shared h => h.graphSize

def summarize : Handle → Graph → Summary
  | direct m => m.summarize
  | owned h | shared h => h.summarize

end Handle

end NodeCost
