namespace NodeCost

/-- A type of finitely many values, listed in declaration order, each with its own label. -/
class Enumerated (α : Type) where
  all : List α
  label : α → String

export Enumerated (label)

def Enumerated.ofLabel? {α : Type} [Enumerated α] (s : String) : Option α :=
  (Enumerated.all : List α).find? (fun a => label a == s)

end NodeCost
