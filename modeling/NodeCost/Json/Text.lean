namespace NodeCost.Json

/-- What one step through a quoted string yields: a character, or a 16 bit half of one that only
an escape can write. -/
inductive CodeUnit where
  | char (c : Char)
  | half (n : Nat)
deriving DecidableEq, Repr

namespace CodeUnit

def ofEscape (n : Nat) : CodeUnit :=
  if 0xD800 ≤ n ∧ n < 0xE000 then half n else char (Char.ofNat n)

def pair? (hi lo : Nat) : Option Char :=
  if hi < 0xDC00 ∧ 0xDC00 ≤ lo then
    some (Char.ofNat (0x10000 + 0x400 * (hi - 0xD800) + (lo - 0xDC00)))
  else none

def join? : List CodeUnit → Option (List Char)
  | [] => some []
  | char c :: r => (join? r).map (c :: ·)
  | half hi :: half lo :: r => do return (← pair? hi lo) :: (← join? r)
  | half _ :: _ => none

end CodeUnit

def unescape? : Char → Option Char
  | '"' => some '"'
  | '\\' => some '\\'
  | '/' => some '/'
  | 'b' => some '\x08'
  | 'f' => some '\x0c'
  | 'n' => some '\n'
  | 'r' => some '\r'
  | 't' => some '\t'
  | _ => none

def hexDigit? (c : Char) : Option Nat :=
  if '0' ≤ c ∧ c ≤ '9' then some (c.toNat - '0'.toNat)
  else if 'a' ≤ c ∧ c ≤ 'f' then some (c.toNat - 'a'.toNat + 10)
  else if 'A' ≤ c ∧ c ≤ 'F' then some (c.toNat - 'A'.toNat + 10)
  else none

def hexQuad? (a b c d : Char) : Option Nat :=
  ([a, b, c, d].mapM hexDigit?).map fun ds => ds.foldl (fun n d => 16 * n + d) 0

def takeString? : List Char → Option (List CodeUnit × List Char)
  | [] => none
  | '"' :: r => some ([], r)
  | '\\' :: 'u' :: a :: b :: c :: d :: r =>
    (hexQuad? a b c d).bind fun n =>
      (takeString? r).map fun (units, rest) => (.ofEscape n :: units, rest)
  | '\\' :: e :: r =>
    (unescape? e).bind fun c =>
      (takeString? r).map fun (units, rest) => (.char c :: units, rest)
  | c :: r =>
    if c = '\\' ∨ c.toNat < 0x20 then none
    else (takeString? r).map fun (units, rest) => (.char c :: units, rest)

/-- How a character is written inside a string: the shortest escape for a quote, a backslash
and the controls, itself otherwise. -/
def escapeChar (c : Char) : List Char :=
  match c with
  | '"' => ['\\', '"']
  | '\\' => ['\\', '\\']
  | '\x08' => ['\\', 'b']
  | '\x0c' => ['\\', 'f']
  | '\n' => ['\\', 'n']
  | '\r' => ['\\', 'r']
  | '\t' => ['\\', 't']
  | _ =>
    if c.toNat < 0x20 then
      ['\\', 'u', '0', '0', Nat.digitChar (c.toNat / 16), Nat.digitChar (c.toNat % 16)]
    else [c]

def quoted (s : List Char) : List Char := '"' :: (s.flatMap escapeChar ++ ['"'])

theorem length_lt_of_takeString? {s r : List Char} {units : List CodeUnit}
    (h : takeString? s = some (units, r)) : r.length < s.length := by
  fun_induction takeString? s generalizing units r with
  | case1 => cases h
  | case2 r' =>
    cases h
    exact Nat.lt_succ_self _
  | case3 a b c d r' ih =>
    simp only [Option.bind_eq_some_iff, Option.map_eq_some_iff] at h
    obtain ⟨n, -, ⟨u, t⟩, ht, h⟩ := h
    have hlt := ih ht
    cases h
    simp only [List.length_cons]
    omega
  | case4 e r' hu ih =>
    simp only [Option.bind_eq_some_iff, Option.map_eq_some_iff] at h
    obtain ⟨c, -, ⟨u, t⟩, ht, h⟩ := h
    have hlt := ih ht
    cases h
    simp only [List.length_cons]
    omega
  | case5 => cases h
  | case6 c r' _ _ _ hc ih =>
    obtain ⟨⟨u, t⟩, ht, h⟩ := Option.map_eq_some_iff.1 h
    have hlt := ih ht
    cases h
    exact Nat.lt_succ_of_lt hlt

end NodeCost.Json
