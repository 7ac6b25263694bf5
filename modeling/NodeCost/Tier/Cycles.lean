import NodeCost.Tier.Basic

namespace NodeCost

/-- A coarse count of the cycles that a node takes. -/
inductive Cycles where
  | zero
  | one
  | two
  | three
  | four
  | five
  | six
  | eight
  | ten
  | fifteen
  | twenty
  | thirty
  | forty
  | fifty
  | eighty
  | hundred
  | twoHundred
  | fiveHundred
deriving DecidableEq, Repr

namespace Cycles

def all : List Cycles :=
  [zero, one, two, three, four, five, six, eight, ten, fifteen, twenty, thirty, forty, fifty,
   eighty, hundred, twoHundred, fiveHundred]

def value : Cycles → Nat
  | zero => 0
  | one => 1
  | two => 2
  | three => 3
  | four => 4
  | five => 5
  | six => 6
  | eight => 8
  | ten => 10
  | fifteen => 15
  | twenty => 20
  | thirty => 30
  | forty => 40
  | fifty => 50
  | eighty => 80
  | hundred => 100
  | twoHundred => 200
  | fiveHundred => 500

def rank : Cycles → Nat
  | zero => 0
  | one => 1
  | two => 2
  | three => 3
  | four => 4
  | five => 5
  | six => 6
  | eight => 7
  | ten => 8
  | fifteen => 9
  | twenty => 10
  | thirty => 11
  | forty => 12
  | fifty => 13
  | eighty => 14
  | hundred => 15
  | twoHundred => 16
  | fiveHundred => 17

instance : Ord Cycles where
  compare a b := compare a.rank b.rank

def text (t : Cycles) : String := toString t.value ++ " cycles"

instance : Tier Cycles where
  all := all
  label t := "Cycles" ++ toString t.value
  value := value
  cap := 500
  cap_lt := by decide
  value_le t := by cases t <;> decide
  find?_value t := by cases t <;> rfl

end Cycles

end NodeCost
