import NodeCost.Operator.Category

namespace NodeCost

/-- How many nodes were counted, and the sums of their estimates in 64 bit words. -/
structure Figures where
  nodes : Nat := 0
  cycles : UInt64 := 0
  size : UInt64 := 0
deriving DecidableEq, Repr

namespace Figures

def record (f : Figures) (cycles size : Nat) : Figures where
  nodes := f.nodes + 1
  cycles := f.cycles + UInt64.ofNat cycles
  size := f.size + UInt64.ofNat size

def dump (f : Figures) : String :=
  "CategoryCost \x7b nodes: " ++ toString f.nodes ++ ", cycles: " ++ toString f.cycles.toNat
    ++ ", size: " ++ toString f.size.toNat ++ " \x7d"

end Figures

/-- The figures of a whole graph, and those of each category that occurs in it. -/
structure Summary where
  total : Figures := {}
  entries : List (Category × Figures) := []
deriving DecidableEq, Repr

namespace Summary

def recordEntry (c : Category) (cycles size : Nat) :
    List (Category × Figures) → List (Category × Figures)
  | [] => [(c, Figures.record {} cycles size)]
  | (d, f) :: r =>
    if d = c then (d, f.record cycles size) :: r else (d, f) :: recordEntry c cycles size r

def record (s : Summary) (c : Category) (cycles size : Nat) : Summary where
  total := s.total.record cycles size
  entries := recordEntry c cycles size s.entries

/-- The figures of a category, all zero for one that does not occur. -/
def category (s : Summary) (c : Category) : Figures := (s.entries.lookup c).getD {}

/-- Whether an entry may stand before another: by falling cycles, then by category. -/
def hotter (a b : Category × Figures) : Bool :=
  b.2.cycles < a.2.cycles || (a.2.cycles == b.2.cycles && a.1.index ≤ b.1.index)

def ranked (entries : List (Category × Figures)) : List (Category × Figures) :=
  entries.mergeSort hotter

def hottest (s : Summary) : List (Category × Figures) := ranked s.entries

end Summary

end NodeCost
