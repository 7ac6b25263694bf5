import NodeCost.Node

namespace NodeCost

/-- Nodes in the order in which they were added. A node is addressed by its position. -/
structure Graph where
  nodes : Array Node
  start : NodeId
  finish : NodeId
deriving DecidableEq, Repr

inductive GraphError where
  | foreignNode (id : NodeId)
deriving DecidableEq, Repr

namespace Graph

/-- Adds a node. Its number is its position, cut down to 32 bits; the inputs are taken as they
are. -/
def add (g : Graph) (op : Operator) (inputs : List NodeId) : NodeId × Graph :=
  (⟨UInt32.ofNat g.nodes.size⟩, { g with nodes := g.nodes.push { op, inputs } })

/-- The graph that holds its entry and its exit and nothing else. -/
def skeleton : Graph :=
  let (start, g) := add { nodes := #[], start := ⟨0⟩, finish := ⟨0⟩ } (.control .start) []
  let (finish, g) := g.add (.control .finish) [start]
  { g with start, finish }

instance : Inhabited Graph := ⟨skeleton⟩

def size (g : Graph) : Nat := g.nodes.size

def isSkeleton (g : Graph) : Bool := g.size ≤ 2

def toList (g : Graph) : List Node := g.nodes.toList

def get? (g : Graph) (id : NodeId) : Option Node := g.nodes[id.index.toNat]?

def node (g : Graph) (id : NodeId) : Except GraphError Node :=
  if h : id.index.toNat < g.nodes.size then .ok g.nodes[id.index.toNat]
  else .error (.foreignNode id)

def entries (g : Graph) : List (NodeId × Node) :=
  g.toList.zipIdx.map fun (n, i) => (⟨UInt32.ofNat i⟩, n)

def dumpEntry (e : NodeId × Node) : String := "  " ++ e.1.dump ++ ": " ++ e.2.dump ++ "\n"

def dump (g : Graph) : String :=
  "Graph (" ++ toString g.size ++ " nodes):\n" ++ String.join (g.entries.map dumpEntry)

@[simp] theorem size_add (g : Graph) (op : Operator) (inputs : List NodeId) :
    (g.add op inputs).2.size = g.size + 1 := by
  simp [add, size]

@[simp] theorem toList_add (g : Graph) (op : Operator) (inputs : List NodeId) :
    (g.add op inputs).2.toList = g.toList ++ [⟨op, inputs⟩] := by
  simp [add, toList]

@[simp] theorem length_toList (g : Graph) : g.toList.length = g.size := by
  simp [toList, size]

theorem get?_eq_getElem? (g : Graph) (id : NodeId) : g.get? id = g.toList[id.index.toNat]? := by
  simp [get?, toList]

end Graph

end NodeCost
