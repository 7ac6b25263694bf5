namespace NodeCost

/-- The number `digits * 10 ^ exp`. -/
structure Decimal where
  digits : Nat
  exp : Int
deriving DecidableEq, Repr

/-- A finite binary64 value of size `m * 2 ^ q`. -/
structure Binary where
  negative : Bool
  m : Nat
  q : Int
  /-- The next smaller size is only half as far away as the next greater one. -/
  narrowBelow : Bool
deriving DecidableEq, Repr

namespace Binary

def ofBits (bits : UInt64) : Binary :=
  let e := ((bits >>> 52) &&& 0x7FF).toNat
  let f := (bits &&& 0xFFFFFFFFFFFFF).toNat
  let negative := bits >>> 63 = 1
  if e = 0 then ⟨negative, f, -1074, false⟩
  else ⟨negative, 0x10000000000000 + f, (e : Int) - 1075, f = 0 ∧ 1 < e⟩

/-- The number `n * b ^ e`, and `n` itself for a negative exponent. -/
def timesPower (b n : Nat) (e : Int) : Nat := n * Nat.pow b e.toNat

/-- Compares `a * 10 ^ i` with `n * 2 ^ j`. Factors with a negative exponent change sides. -/
def compareScaled (a : Nat) (i : Int) (n : Nat) (j : Int) : Ordering :=
  compare (timesPower 2 (timesPower 10 a i) (-j)) (timesPower 10 (timesPower 2 n j) (-i))

/-- Whether a decimal lies among the reals that round to the size: from halfway to the next
smaller up to halfway to the next greater one, both ends included when `m` is even. -/
def readsBack (x : Binary) (d : Decimal) : Bool :=
  let lo := if x.narrowBelow then 4 * x.m - 1 else 4 * x.m - 2
  let hi := 4 * x.m + 2
  let closed := x.m % 2 = 0
  let below := compareScaled d.digits d.exp lo (x.q - 2)
  let above := compareScaled d.digits d.exp hi (x.q - 2)
  (below == .gt || (closed && below == .eq)) && (above == .lt || (closed && above == .eq))

/-- The least `k` with `m * 2 ^ q < 10 ^ k`. The binary logarithm gives a guess that is at most
two too low. -/
def scale (x : Binary) : Int :=
  let guess := ((x.m.log2 : Int) + x.q) * 30103 / 100000
  let fits (k : Int) : Bool := compareScaled 1 k x.m x.q == .gt
  if fits guess then guess else if fits (guess + 1) then guess + 1 else guess + 2

def floorAt (x : Binary) (exp : Int) : Nat :=
  timesPower 10 (timesPower 2 x.m x.q) (-exp) / timesPower 10 (timesPower 2 1 (-x.q)) exp

/-- The multiple of `10 ^ exp` that reads back, if there is one: of two the nearer, and of two
equally near the even one. -/
def onGrid? (x : Binary) (exp : Int) : Option Decimal :=
  let d := x.floorAt exp
  match x.readsBack ⟨d, exp⟩, x.readsBack ⟨d + 1, exp⟩ with
  | true, false => some ⟨d, exp⟩
  | false, true => some ⟨d + 1, exp⟩
  | false, false => none
  | true, true =>
    match compareScaled (2 * d + 1) exp x.m (x.q + 1) with
    | .gt => some ⟨d, exp⟩
    | .lt => some ⟨d + 1, exp⟩
    | .eq => some ⟨if d % 2 = 0 then d else d + 1, exp⟩

def exact (x : Binary) : Decimal :=
  ⟨timesPower 5 (timesPower 2 x.m x.q) (-x.q), min x.q 0⟩

end Binary

def Decimal.strip (d : Decimal) : Decimal :=
  if d.digits ≠ 0 ∧ d.digits % 10 = 0 then strip ⟨d.digits / 10, d.exp + 1⟩ else d
termination_by d.digits
decreasing_by grind

/-- The decimal with the fewest digits that reads back as the size. -/
def Binary.shortest (x : Binary) : Decimal :=
  let grids := (List.range 17).map (fun n => x.scale - (Int.ofNat n + 1))
  ((grids.findSome? x.onGrid?).getD x.exact).strip

end NodeCost
