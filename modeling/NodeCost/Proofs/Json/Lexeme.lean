import Mathlib.Data.List.Chain
import NodeCost.Json.Token
import NodeCost.Proofs.Json.Numeral

namespace NodeCost.Json

/-- The ways to write a text inside quotes. Every character may stand for itself or be escaped, but
quotes, backslashes and controls have to be escaped. -/
inductive Spelled : List Char → List Char → Prop where
  | nil : Spelled [] []
  | plain {c : Char} {s t : List Char} (hq : c ≠ '"') (hb : c ≠ '\\') (hc : 0x20 ≤ c.toNat)
      (h : Spelled s t) : Spelled (c :: s) (c :: t)
  | letter {e c : Char} {s t : List Char} (he : unescape? e = some c) (h : Spelled s t) :
      Spelled (c :: s) ('\\' :: e :: t)
  | code {a b c d : Char} {n : Nat} {s t : List Char} (hn : hexQuad? a b c d = some n)
      (hc : n < 0xD800 ∨ 0xE000 ≤ n) (h : Spelled s t) :
      Spelled (Char.ofNat n :: s) ('\\' :: 'u' :: a :: b :: c :: d :: t)
  | pair {a b c d a' b' c' d' : Char} {hi lo : Nat} {s t : List Char}
      (hhi : hexQuad? a b c d = some hi) (hlo : hexQuad? a' b' c' d' = some lo)
      (hi_mem : 0xD800 ≤ hi ∧ hi < 0xDC00) (lo_mem : 0xDC00 ≤ lo ∧ lo < 0xE000)
      (h : Spelled s t) :
      Spelled (Char.ofNat (0x10000 + 0x400 * (hi - 0xD800) + (lo - 0xDC00)) :: s)
        ('\\' :: 'u' :: a :: b :: c :: d :: '\\' :: 'u' :: a' :: b' :: c' :: d' :: t)

theorem takeString?_code {a b c d : Char} {n : Nat} (hn : hexQuad? a b c d = some n)
    (r : List Char) : takeString? ('\\' :: 'u' :: a :: b :: c :: d :: r) =
      (takeString? r).map fun (units, rest) => (.ofEscape n :: units, rest) := by
  rw [takeString?, hn]
  rfl

theorem takeString?_letter {e c : Char} (he : unescape? e = some c) (r : List Char) :
    takeString? ('\\' :: e :: r) =
      (takeString? r).map fun (units, rest) => (.char c :: units, rest) := by
  have hu : e ≠ 'u' := by
    intro h
    subst h
    cases he
  simp [takeString?, hu, he]

theorem takeString?_plain {c : Char} (hq : c ≠ '"') (hb : c ≠ '\\') (hc : 0x20 ≤ c.toNat)
    (r : List Char) : takeString? (c :: r) =
      (takeString? r).map fun (units, rest) => (.char c :: units, rest) := by
  simp [takeString?, hb, Nat.not_lt.2 hc]

theorem Spelled.takeString?_append {s t : List Char} (h : Spelled s t) (r : List Char) :
    ∃ units, takeString? (t ++ '"' :: r) = some (units, r) ∧ CodeUnit.join? units = some s := by
  induction h with
  | nil => exact ⟨[], rfl, rfl⟩
  | @plain c s t hq hb hc h ih =>
    obtain ⟨units, ht, hj⟩ := ih
    refine ⟨.char c :: units, ?_, ?_⟩
    · rw [List.cons_append, takeString?_plain hq hb hc, ht]
      rfl
    · rw [CodeUnit.join?, hj]
      rfl
  | @letter e c s t he h ih =>
    obtain ⟨units, ht, hj⟩ := ih
    refine ⟨.char c :: units, ?_, ?_⟩
    · rw [List.cons_append, List.cons_append, takeString?_letter he, ht]
      rfl
    · rw [CodeUnit.join?, hj]
      rfl
  | @code a b c d n s t hn hc h ih =>
    obtain ⟨units, ht, hj⟩ := ih
    have hu : CodeUnit.ofEscape n = .char (Char.ofNat n) := by
      rw [CodeUnit.ofEscape, if_neg]
      omega
    refine ⟨.char (Char.ofNat n) :: units, ?_, ?_⟩
    · simp only [List.cons_append, takeString?_code hn, ht, Option.map_some, hu]
    · rw [CodeUnit.join?, hj]
      rfl
  | @pair a b c d a' b' c' d' hi lo s t hhi hlo hi_mem lo_mem h ih =>
    obtain ⟨units, ht, hj⟩ := ih
    have hu : CodeUnit.ofEscape hi = .half hi := by
      rw [CodeUnit.ofEscape, if_pos]
      omega
    have hu' : CodeUnit.ofEscape lo = .half lo := by
      rw [CodeUnit.ofEscape, if_pos]
      omega
    refine ⟨.half hi :: .half lo :: units, ?_, ?_⟩
    · simp only [List.cons_append, takeString?_code hhi, takeString?_code hlo, ht,
        Option.map_some, hu, hu']
    · rw [CodeUnit.join?, CodeUnit.pair?, if_pos ⟨hi_mem.2, lo_mem.1⟩, hj]
      rfl

namespace Token

inductive Written : Token → List Char → Prop where
  | openArray : Written .openArray ['[']
  | closeArray : Written .closeArray [']']
  | openObject : Written .openObject ['\x7b']
  | closeObject : Written .closeObject ['\x7d']
  | comma : Written .comma [',']
  | colon : Written .colon [':']
  | null : Written .null ['n', 'u', 'l', 'l']
  | yes : Written (.bool true) ['t', 'r', 'u', 'e']
  | no : Written (.bool false) ['f', 'a', 'l', 's', 'e']
  | number {n : Numeral} {s : List Char} (h : n.Written s) : Written (.number n) s
  | string {s t : List Char} (h : Spelled s t) :
      Written (.string (some (String.ofList s))) ('"' :: (t ++ ['"']))

def isNumber : Token → Bool
  | number _ => true
  | _ => false

theorem take?_digitChar (d : Fin 10) (r : List Char) :
    take? (Numeral.digitChar d) r =
      (Numeral.take? (Numeral.digitChar d :: r)).map fun (n, rest) => (number n, rest) := by
  match d with
  | 0 | 1 | 2 | 3 | 4 | 5 | 6 | 7 | 8 | 9 => rfl

theorem isBlank_digitChar (d : Fin 10) : isBlank (Numeral.digitChar d) = false := by
  revert d
  decide

theorem Written.take?_append {t : Token} {s : List Char} (h : Written t s) {r : List Char}
    (hr : t.isNumber = true → Numeral.Stops r) :
    ∃ c u, s = c :: u ∧ isBlank c = false ∧ take? c (u ++ r) = some (t, r) := by
  cases h with
  | openArray | closeArray | openObject | closeObject | comma | colon | null | yes | no =>
    exact ⟨_, _, rfl, by decide, rfl⟩
  | number hn =>
    have ht := hn.take?_append (hr rfl)
    cases hn with
    | positive hw hf he =>
      obtain ⟨d, ds, rfl⟩ := List.exists_cons_of_ne_nil hw.ne_nil
      refine ⟨Numeral.digitChar d, _, rfl, isBlank_digitChar d, ?_⟩
      rw [take?_digitChar]
      exact congrArg (Option.map _) ht
    | negative hw hf he => exact ⟨'-', _, rfl, by decide, congrArg (Option.map _) ht⟩
  | @string s t h =>
    obtain ⟨units, ht, hj⟩ := h.takeString?_append r
    refine ⟨'"', t ++ ['"'], rfl, by decide, ?_⟩
    simp only [List.append_assoc, List.singleton_append, take?, ht, Option.map_some, hj]

theorem scan_cons_of_isBlank {c : Char} (hc : isBlank c = true) (r : List Char) :
    scan (c :: r) = scan r := by
  rw [scan, if_pos hc]

theorem scan_cons_of_take? {c : Char} {r rest : List Char} {t : Token}
    (hc : isBlank c = false) (ht : take? c r = some (t, rest)) :
    scan (c :: r) = t :: scan rest := by
  rw [scan, if_neg (Bool.eq_false_iff.1 hc)]
  split
  · rename_i heq
    rw [ht] at heq
    cases heq
    rfl
  · rename_i heq
    rw [ht] at heq
    cases heq

end Token

def Blanks (s : List Char) : Prop := ∀ c ∈ s, isBlank c = true

instance (s : List Char) : Decidable (Blanks s) :=
  decidable_of_iff (s.all isBlank = true) List.all_eq_true

theorem blanks_nil : Blanks [] := fun _ hc => absurd hc List.not_mem_nil

theorem scan_blanks_append {b : List Char} (hb : Blanks b) (r : List Char) :
    Token.scan (b ++ r) = Token.scan r := by
  induction b with
  | nil => rfl
  | cons c b ih =>
    rw [List.cons_append, Token.scan_cons_of_isBlank (hb c List.mem_cons_self)]
    exact ih fun d hd => hb d (List.mem_cons_of_mem c hd)

/-- A text that consists of the given lexemes, with blanks around them. -/
inductive Layout : List Token → List Char → Prop where
  | nil {b : List Char} (hb : Blanks b) : Layout [] b
  | cons {t : Token} {ts : List Token} {b s r : List Char} (hb : Blanks b) (ht : t.Written s)
      (hr : Layout ts r) : Layout (t :: ts) (b ++ (s ++ r))

def Token.endsValue : Token → Bool
  | comma | closeArray | closeObject => true
  | _ => false

/-- Behind a numeral there is nothing that could belong to it. -/
def Separated (ts : List Token) : Prop :=
  ts.IsChain fun t u => t.isNumber = true → u.endsValue = true

theorem stops_of_isBlank {c : Char} (hc : isBlank c = true) (r : List Char) :
    Numeral.Stops (c :: r) := by
  intro d hd
  cases hd
  simp only [isBlank, Bool.or_eq_true, decide_eq_true_eq] at hc
  obtain ((rfl | rfl) | rfl) | rfl := hc <;> decide

theorem Layout.stops {ts : List Token} {r : List Char} (h : Layout ts r)
    (hts : ∀ u ∈ ts.head?, u.endsValue = true) : Numeral.Stops r := by
  cases h with
  | @nil b hb =>
    cases r with
    | nil => exact fun c hc => by cases hc
    | cons c r => exact stops_of_isBlank (hb c List.mem_cons_self) r
  | @cons t ts b s r hb ht hr =>
    cases b with
    | nil =>
      have hend := hts t rfl
      intro c hc
      cases ht with
      | comma | closeArray | closeObject =>
        cases hc
        decide
      | _ => cases hend
    | cons c b => exact stops_of_isBlank (hb c List.mem_cons_self) _

theorem Layout.scan_eq {ts : List Token} {s : List Char} (h : Layout ts s) (hs : Separated ts) :
    Token.scan s = ts := by
  induction h with
  | @nil b hb =>
    have hscan := scan_blanks_append hb []
    rw [List.append_nil] at hscan
    rw [hscan, Token.scan]
  | @cons t ts b s r hb ht hr ih =>
    obtain ⟨hhead, htail⟩ := List.isChain_cons.1 hs
    have hstops : t.isNumber = true → Numeral.Stops r := fun hn =>
      hr.stops fun u hu => hhead u hu hn
    obtain ⟨c, u, rfl, hc, htake⟩ := ht.take?_append hstops
    rw [scan_blanks_append hb, List.cons_append, Token.scan_cons_of_take? hc htake, ih htail]

end NodeCost.Json
