import NodeCost.Json.Numeral
import NodeCost.Json.Text

namespace NodeCost.Json

/-- A lexeme of a JSON text. A string whose escapes leave half a character has no text. -/
inductive Token where
  | openArray
  | closeArray
  | openObject
  | closeObject
  | comma
  | colon
  | null
  | bool (b : Bool)
  | number (n : Numeral)
  | string (s : Option String)
  /-- What cannot be read; it stands at the end of a token list. -/
  | junk
deriving DecidableEq, Repr

def isBlank (c : Char) : Bool := c = ' ' || c = '\n' || c = '\t' || c = '\r'

namespace Token

def afterWord? : List Char → List Char → Option (List Char)
  | [], s => some s
  | _ :: _, [] => none
  | a :: w, c :: r => if a = c then afterWord? w r else none

def take? (c : Char) (r : List Char) : Option (Token × List Char) :=
  match c with
  | '[' => some (openArray, r)
  | ']' => some (closeArray, r)
  | '\x7b' => some (openObject, r)
  | '\x7d' => some (closeObject, r)
  | ',' => some (comma, r)
  | ':' => some (colon, r)
  | 'n' => (afterWord? ['u', 'l', 'l'] r).map (null, ·)
  | 't' => (afterWord? ['r', 'u', 'e'] r).map (bool true, ·)
  | 'f' => (afterWord? ['a', 'l', 's', 'e'] r).map (bool false, ·)
  | '"' => (takeString? r).map fun (units, rest) =>
    (string ((CodeUnit.join? units).map String.ofList), rest)
  | _ => (Numeral.take? (c :: r)).map fun (n, rest) => (number n, rest)

theorem append_of_afterWord? {w s r : List Char} (h : afterWord? w s = some r) : w ++ r = s := by
  induction w generalizing s with
  | nil => exact (Option.some.inj h).symm
  | cons a w ih =>
    cases s with
    | nil => cases h
    | cons c t =>
      rw [afterWord?] at h
      split at h
      · rename_i hc
        rw [List.cons_append, ih h, hc]
      · cases h

theorem length_le_of_take? {c : Char} {r rest : List Char} {t : Token}
    (h : take? c r = some (t, rest)) : rest.length ≤ r.length := by
  have hw : ∀ {w : List Char} {t' : Token},
      ((afterWord? w r).map fun x => (t', x)) = some (t, rest) → rest.length ≤ r.length := by
    intro w t' hw
    obtain ⟨x, hx, hw⟩ := Option.map_eq_some_iff.1 hw
    have hl := congrArg List.length (append_of_afterWord? hx)
    cases hw
    simp only [List.length_append] at hl
    omega
  rw [take?.eq_def] at h
  split at h
  case h_7 | h_8 | h_9 => exact hw h
  case h_10 =>
    obtain ⟨⟨units, x⟩, hx, h⟩ := Option.map_eq_some_iff.1 h
    have := length_lt_of_takeString? hx
    cases h
    omega
  case h_11 =>
    obtain ⟨⟨n, x⟩, hx, h⟩ := Option.map_eq_some_iff.1 h
    have := Numeral.length_lt_of_take? hx
    cases h
    simp only [List.length_cons] at this
    omega
  all_goals
    cases h
    exact Nat.le_refl _

/-- The lexemes of a text from left to right, up to the first place that is none. -/
def scan : List Char → List Token
  | [] => []
  | c :: r =>
    if isBlank c then scan r
    else
      match _h : take? c r with
      | some (t, rest) => t :: scan rest
      | none => [junk]
termination_by s => s.length
decreasing_by
  · simp
  · have := length_le_of_take? _h
    simp only [List.length_cons]
    omega

end Token

end NodeCost.Json
