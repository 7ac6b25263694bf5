import NodeCost.Tier.Basic

namespace NodeCost

/-- A coarse count of the instructions that a node is compiled to. -/
inductive Size where
  | zero
  | one
  | two
  | three
  | four
  | six
  | eight
  | ten
  | fifteen
  | twenty
  | thirty
  | forty
  | fifty
  | eighty
  | hundred
  | twoHundred
deriving DecidableEq, Repr

namespace Size

def all : List Size :=
  [zero, one, two, three, four, six, eight, ten, fifteen, twenty, thirty, forty, fifty, eighty,
   hundred, twoHundred]

def value : Size → Nat
  | zero => 0
  | one => 1
  | two => 2
  | three => 3
  | four => 4
  | six => 6
  | eight => 8
  | ten => 10
  | fifteen => 15
  | twenty => 20
  | thirty => 30
  | forty => 40
  | fifty => 50
  | eighty => 80
  | hundred => 100
  | twoHundred => 200

def rank : Size → Nat
  | zero => 0
  | one => 1
  | two => 2
  | three => 3
  | four => 4
  | six => 5
  | eight => 6
  | ten => 7
  | fifteen => 8
  | twenty => 9
  | thirty => 10
  | forty => 11
  | fifty => 12
  | eighty => 13
  | hundred => 14
  | twoHundred => 15

instance : Ord Size where
  compare a b := compare a.rank b.rank

def text (t : Size) : String := "size " ++ toString t.value

instance : Tier Size where
  all := all
  label t := "Size" ++ toString t.value
  value := value
  cap := 200
  cap_lt := by decide
  value_le t := by cases t <;> decide
  find?_value t := by cases t <;> rfl

end Size

end NodeCost
