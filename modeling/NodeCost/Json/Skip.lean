import NodeCost.Json.Token

namespace NodeCost.Json

inductive Bracket where
  | array
  | object
deriving DecidableEq, Repr

inductive Expected where
  | value
  | valueOrClose
  | key
  | keyOrClose
  | colon
  | commaOrClose
deriving DecidableEq, Repr

/-- How far the reading of a value has come; the open brackets stand innermost first. -/
inductive Progress where
  | done
  | inside (next : Expected) (opened : List Bracket)
deriving DecidableEq, Repr

namespace Progress

def afterValue : List Bracket → Progress
  | [] => done
  | opened => inside .commaOrClose opened

def startValue (opened : List Bracket) : Token → Option Progress
  | .openArray => some (inside .valueOrClose (.array :: opened))
  | .openObject => some (inside .keyOrClose (.object :: opened))
  | .null | .bool _ | .number _ | .string _ => some (afterValue opened)
  | _ => none

def close (bracket : Bracket) : List Bracket → Option Progress
  | [] => none
  | b :: outer => if b = bracket then some (afterValue outer) else none

def startKey (opened : List Bracket) : Token → Option Progress
  | .string _ => some (inside .colon opened)
  | _ => none

def advance (next : Expected) (opened : List Bracket) (t : Token) : Option Progress :=
  match next with
  | .value => startValue opened t
  | .valueOrClose => if t = .closeArray then close .array opened else startValue opened t
  | .key => startKey opened t
  | .keyOrClose => if t = .closeObject then close .object opened else startKey opened t
  | .colon => if t = .colon then some (inside .value opened) else none
  | .commaOrClose =>
    match t, opened with
    | .comma, .array :: _ => some (inside .value opened)
    | .comma, .object :: _ => some (inside .key opened)
    | .closeArray, _ => close .array opened
    | .closeObject, _ => close .object opened
    | _, _ => none

end Progress

def skipFrom : Progress → List Token → Option (List Token)
  | .done, ts => some ts
  | .inside _ _, [] => none
  | .inside next opened, t :: r => (Progress.advance next opened t).bind (skipFrom · r)

/-- Skips one value of any kind, by the grammar alone; gives the lexemes behind it. -/
def skip (ts : List Token) : Option (List Token) := skipFrom (.inside .value []) ts

theorem length_le_of_skipFrom {p : Progress} {ts r : List Token} (h : skipFrom p ts = some r) :
    r.length ≤ ts.length := by
  induction ts generalizing p with
  | nil =>
    cases p with
    | done =>
      cases h
      exact Nat.le_refl _
    | inside next opened => cases h
  | cons t ts ih =>
    cases p with
    | done =>
      cases h
      exact Nat.le_refl _
    | inside next opened =>
      obtain ⟨p, -, h⟩ := Option.bind_eq_some_iff.1 h
      exact Nat.le_succ_of_le (ih h)

theorem length_lt_of_skip {ts r : List Token} (h : skip ts = some r) : r.length < ts.length := by
  cases ts with
  | nil => cases h
  | cons t ts =>
    obtain ⟨p, -, h⟩ := Option.bind_eq_some_iff.1 h
    exact Nat.lt_succ_of_le (length_le_of_skipFrom h)

end NodeCost.Json
