import NodeCost.Number.Text

namespace NodeCost.Json

structure Numeral where
  negative : Bool
  whole : List (Fin 10)
  fraction : List (Fin 10)
  exponent : Option Int
deriving DecidableEq, Repr

/-- What a numeral denotes: an integer of 64 bits, or the nearest that a binary64 computation
gives. -/
inductive Quantity where
  | integer (n : Int)
  | floating (x : Binary)
deriving DecidableEq, Repr

namespace Numeral

/-- Appends digits to a number while it fits 64 bits; gives the number and the digits
from the first one that does not fit. -/
def accumulate : Nat → List (Fin 10) → Nat × List (Fin 10)
  | n, [] => (n, [])
  | n, d :: ds =>
    if 10 * n + d.val < UInt64.size then accumulate (10 * n + d.val) ds else (n, d :: ds)

def natOfDigits (ds : List (Fin 10)) : Nat := ds.foldl (fun n d => 10 * n + d.val) 0

/-- The integer, for a numeral without fraction and exponent that fits 64 bits, signed if it is
negative. Negative zero is none. -/
def integer? (n : Numeral) : Option Int :=
  let size := natOfDigits n.whole
  if n.fraction ≠ [] ∨ n.exponent.isSome then none
  else if n.negative then (if 0 < size ∧ size ≤ UInt64.size / 2 then some (-size) else none)
  else if size < UInt64.size then some size else none

def powerOfTen (k : Nat) : Float := Float.ofScientific 1 false k

/-- Scales by a power of ten in one step, or in two when the power has no binary64 value of its
own; `none` if the result is too great. -/
def scale? (significand : UInt64) (exp : Int) : Option Float :=
  let f := significand.toFloat
  if 308 < exp then (if significand = 0 then some f else none)
  else if 0 ≤ exp then
    let x := f * powerOfTen exp.toNat
    if x.isInf then none else some x
  else if -308 ≤ exp then some (f / powerOfTen (-exp).toNat)
  else if -616 ≤ exp then some (f / powerOfTen 308 / powerOfTen (-exp - 308).toNat)
  else some 0

def float? (n : Numeral) : Option Float :=
  let (s, wholeRest) := accumulate 0 n.whole
  let (s, fractionRest) := accumulate s n.fraction
  let exp : Int := wholeRest.length - (n.fraction.length - fractionRest.length : Nat)
  (scale? (UInt64.ofNat s) (exp + n.exponent.getD 0)).map (fun x => if n.negative then -x else x)

def quantity? (n : Numeral) : Option Quantity :=
  match n.integer? with
  | some i => some (.integer i)
  | none => n.float?.map (fun x => .floating (Binary.ofBits x.toBits))

def digitChar (d : Fin 10) : Char := Char.ofNat ('0'.toNat + d.val)

def chars (n : Numeral) : List Char :=
  (if n.negative then ['-'] else []) ++ n.whole.map digitChar
    ++ (if n.fraction = [] then [] else '.' :: n.fraction.map digitChar)
    ++ n.exponent.elim [] (fun e => 'e' :: (toString e).toList)

def digit? (c : Char) : Option (Fin 10) :=
  if h : 48 ≤ c.toNat ∧ c.toNat < 58 then some ⟨c.toNat - 48, by omega⟩ else none

def takeDigits : List Char → List (Fin 10) × List Char
  | [] => ([], [])
  | c :: r =>
    match digit? c with
    | some d => (d :: (takeDigits r).1, (takeDigits r).2)
    | none => ([], c :: r)

def takeDigits? (s : List Char) : Option (List (Fin 10) × List Char) :=
  if (takeDigits s).1 = [] then none else some (takeDigits s)

/-- A whole part has no needless zero at its start. -/
def takeWhole? (s : List Char) : Option (List (Fin 10) × List Char) :=
  match takeDigits? s with
  | some (0 :: _ :: _, _) => none
  | found => found

def takeFraction? : List Char → Option (List (Fin 10) × List Char)
  | '.' :: r => takeDigits? r
  | s => some ([], s)

def takePower? (s : List Char) : Option (Int × List Char) :=
  match s with
  | '-' :: r => (takeDigits? r).map (fun (ds, r) => (-(natOfDigits ds : Int), r))
  | '+' :: r => (takeDigits? r).map (fun (ds, r) => ((natOfDigits ds : Int), r))
  | r => (takeDigits? r).map (fun (ds, r) => ((natOfDigits ds : Int), r))

def takeExponent? (s : List Char) : Option (Option Int × List Char) :=
  match s with
  | c :: r =>
    if c = 'e' ∨ c = 'E' then (takePower? r).map (fun (e, r) => (some e, r))
    else some (none, c :: r)
  | [] => some (none, [])

def takeUnsigned? (negative : Bool) (s : List Char) : Option (Numeral × List Char) := do
  let (whole, s) ← takeWhole? s
  let (fraction, s) ← takeFraction? s
  let (exponent, s) ← takeExponent? s
  return ({ negative, whole, fraction, exponent }, s)

def take? : List Char → Option (Numeral × List Char)
  | '-' :: r => takeUnsigned? true r
  | s => takeUnsigned? false s

theorem length_takeDigits (s : List Char) :
    (takeDigits s).1.length + (takeDigits s).2.length = s.length := by
  induction s with
  | nil => rfl
  | cons c r ih =>
    rw [takeDigits]
    split
    · simp only [List.length_cons]
      omega
    · simp

theorem length_lt_of_takeDigits? {s r : List Char} {ds : List (Fin 10)}
    (h : takeDigits? s = some (ds, r)) : r.length < s.length := by
  simp only [takeDigits?] at h
  split at h
  · cases h
  · rename_i hd
    have := length_takeDigits s
    have := List.length_pos_iff.2 hd
    simp only [Option.some.injEq] at h
    simp only [h] at *
    omega

theorem takeDigits?_of_takeWhole? {s r : List Char} {ds : List (Fin 10)}
    (h : takeWhole? s = some (ds, r)) : takeDigits? s = some (ds, r) := by
  rw [takeWhole?] at h
  split at h
  · cases h
  · exact h

theorem length_le_of_takeFraction? {s r : List Char} {ds : List (Fin 10)}
    (h : takeFraction? s = some (ds, r)) : r.length ≤ s.length := by
  rw [takeFraction?.eq_def] at h
  split at h
  · have := length_lt_of_takeDigits? h
    simp only [List.length_cons]
    omega
  · cases h
    exact Nat.le_refl _

theorem length_lt_of_takePower? {s r : List Char} {e : Int}
    (h : takePower? s = some (e, r)) : r.length < s.length := by
  rw [takePower?.eq_def] at h
  split at h
  · obtain ⟨⟨ds, t⟩, ht, he⟩ := Option.map_eq_some_iff.1 h
    cases he
    exact Nat.lt_succ_of_lt (length_lt_of_takeDigits? ht)
  · obtain ⟨⟨ds, t⟩, ht, he⟩ := Option.map_eq_some_iff.1 h
    cases he
    exact Nat.lt_succ_of_lt (length_lt_of_takeDigits? ht)
  · obtain ⟨⟨ds, t⟩, ht, he⟩ := Option.map_eq_some_iff.1 h
    cases he
    exact length_lt_of_takeDigits? ht

theorem length_le_of_takeExponent? {s r : List Char} {e : Option Int}
    (h : takeExponent? s = some (e, r)) : r.length ≤ s.length := by
  rw [takeExponent?.eq_def] at h
  split at h
  · split at h
    · obtain ⟨⟨p, t⟩, ht, h⟩ := Option.map_eq_some_iff.1 h
      have := length_lt_of_takePower? ht
      cases h
      simp only [List.length_cons]
      omega
    · cases h
      exact Nat.le_refl _
  · cases h
    exact Nat.le_refl _

theorem length_lt_of_takeUnsigned? {negative : Bool} {s r : List Char} {n : Numeral}
    (h : takeUnsigned? negative s = some (n, r)) : r.length < s.length := by
  simp only [takeUnsigned?, Option.bind_eq_bind, Option.bind_eq_some_iff] at h
  obtain ⟨⟨w, s₁⟩, hw, ⟨f, s₂⟩, hf, ⟨e, s₃⟩, he, h⟩ := h
  have hw := length_lt_of_takeDigits? (takeDigits?_of_takeWhole? hw)
  have hf := length_le_of_takeFraction? hf
  have he := length_le_of_takeExponent? he
  cases h
  exact Nat.lt_of_le_of_lt (Nat.le_trans he hf) hw

theorem length_lt_of_take? {s r : List Char} {n : Numeral} (h : take? s = some (n, r)) :
    r.length < s.length := by
  rw [take?.eq_def] at h
  split at h
  · have := length_lt_of_takeUnsigned? h
    simp only [List.length_cons]
    omega
  · exact length_lt_of_takeUnsigned? h

end Numeral

end NodeCost.Json
