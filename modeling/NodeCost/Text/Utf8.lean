namespace NodeCost.Text.Utf8

/-- A stretch of a byte string: one encoded character, or bytes that encode nothing. -/
inductive Segment where
  | char (c : Char)
  | broken (bytes : List UInt8)
deriving DecidableEq, Repr

/-- What a first byte announces: how many bytes follow it, how much of its own value is
payload, and the range of the byte right after it. -/
structure Lead where
  follow : Nat
  payload : Nat
  lo : UInt8 := 0x80
  hi : UInt8 := 0xBF

/-- The ranges keep out overlong forms, surrogates and values above U+10FFFF, so every complete
sequence is a character and no character has a second form. -/
def lead? (b : UInt8) : Option Lead :=
  if b < 0x80 then some { follow := 0, payload := b.toNat }
  else if b < 0xC2 then none
  else if b < 0xE0 then some { follow := 1, payload := b.toNat - 0xC0 }
  else if b = 0xE0 then some { follow := 2, payload := 0, lo := 0xA0 }
  else if b = 0xED then some { follow := 2, payload := 0x0D, hi := 0x9F }
  else if b < 0xF0 then some { follow := 2, payload := b.toNat - 0xE0 }
  else if b = 0xF0 then some { follow := 3, payload := 0, lo := 0x90 }
  else if b < 0xF4 then some { follow := 3, payload := b.toNat - 0xF0 }
  else if b = 0xF4 then some { follow := 3, payload := 4, hi := 0x8F }
  else none

/-- The longest run of at most `n` bytes that can continue a sequence, the first of them
between `lo` and `hi`. -/
def continuation : Nat → UInt8 → UInt8 → List UInt8 → List UInt8
  | 0, _, _, _ => []
  | _ + 1, _, _, [] => []
  | n + 1, lo, hi, b :: r =>
    if lo ≤ b ∧ b ≤ hi then b :: continuation n 0x80 0xBF r else []

def assemble (payload : Nat) (follow : List UInt8) : Char :=
  Char.ofNat (follow.foldl (fun n b => 64 * n + (b.toNat - 0x80)) payload)

/-- Cuts a byte string into characters and maximal broken stretches: a stretch that fails ends
right before the byte that cannot continue it. -/
def segments : List UInt8 → List Segment
  | [] => []
  | b :: r =>
    match lead? b with
    | none => .broken [b] :: segments r
    | some l =>
      let follow := continuation l.follow l.lo l.hi r
      (if follow.length = l.follow then .char (assemble l.payload follow)
        else .broken (b :: follow)) :: segments (r.drop follow.length)
termination_by bytes => bytes.length

def Segment.char? : Segment → Option Char
  | .char c => some c
  | .broken _ => none

def Segment.shown : Segment → Char
  | .char c => c
  | .broken _ => '\uFFFD'

def decode? (bytes : List UInt8) : Option (List Char) := (segments bytes).mapM Segment.char?

def decodeLossy (bytes : List UInt8) : List Char := (segments bytes).map Segment.shown

end NodeCost.Text.Utf8
