import NodeCost.Number.Shortest

namespace NodeCost

def zeros (n : Nat) : List Char := List.replicate n '0'

def exponentText (e : Int) : List Char :=
  'e' :: (if e < 0 then '-' else '+') :: Nat.toDigits 10 e.natAbs

/-- Lays out a decimal: positionally when its point stands at most four places before and at
most sixteen places after the start of its digits, with an exponent otherwise. A whole number
written positionally keeps a zero behind its point. -/
def Decimal.layout (d : Decimal) : List Char :=
  let digits := Nat.toDigits 10 d.digits
  let point : Int := digits.length + d.exp
  if point ≤ -5 ∨ 16 < point then
    (if digits.length = 1 then digits else digits.take 1 ++ '.' :: digits.drop 1)
      ++ exponentText (point - 1)
  else if point ≤ 0 then '0' :: '.' :: zeros (-point).toNat ++ digits
  else if 0 ≤ d.exp then digits ++ zeros d.exp.toNat ++ ['.', '0']
  else digits.take point.toNat ++ '.' :: digits.drop point.toNat

/-- The fewest digits that identify the value; zero keeps its sign. -/
def Binary.text (x : Binary) : String :=
  let size := if x.m = 0 then ['0', '.', '0'] else x.shortest.layout
  String.ofList (if x.negative then '-' :: size else size)

end NodeCost
