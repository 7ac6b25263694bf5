import NodeCost.Text.Utf8
import Mathlib.Data.List.Infix

namespace NodeCost.Text.Utf8

deriving instance DecidableEq for Lead

variable {n : Nat}

/-- What a first byte announces, by the number of bytes that follow it. -/
inductive Leads (n : Nat) : Lead → Prop where
  | one (hn : n < 0x80) : Leads n { follow := 0, payload := n }
  | two (hlo : 0xC2 ≤ n) (hhi : n < 0xE0) : Leads n { follow := 1, payload := n - 0xC0 }
  | three (hlo : 0xE0 ≤ n) (hhi : n < 0xF0) : Leads n
      { follow := 2, payload := n - 0xE0, lo := if n = 0xE0 then 0xA0 else 0x80,
        hi := if n = 0xED then 0x9F else 0xBF }
  | four (hlo : 0xF0 ≤ n) (hhi : n < 0xF5) : Leads n
      { follow := 3, payload := n - 0xF0, lo := if n = 0xF0 then 0x90 else 0x80,
        hi := if n = 0xF4 then 0x8F else 0xBF }

def leadOf (n : Nat) : Option Lead :=
  if n < 0x80 then some { follow := 0, payload := n }
  else if n < 0xC2 then none
  else if n < 0xE0 then some { follow := 1, payload := n - 0xC0 }
  else if n < 0xF0 then some
    { follow := 2, payload := n - 0xE0, lo := if n = 0xE0 then 0xA0 else 0x80,
      hi := if n = 0xED then 0x9F else 0xBF }
  else if n < 0xF5 then some
    { follow := 3, payload := n - 0xF0, lo := if n = 0xF0 then 0x90 else 0x80,
      hi := if n = 0xF4 then 0x8F else 0xBF }
  else none

theorem lead?_eq_leadOf (b : UInt8) : lead? b = leadOf b.toNat := by
  have h : ∀ n < 256, lead? (.ofNat n) = leadOf n := by decide +kernel
  have hb := h b.toNat b.toNat_lt
  rwa [UInt8.ofNat_toNat] at hb

theorem lead?_eq_some_iff {b : UInt8} {l : Lead} : lead? b = some l ↔ Leads b.toNat l := by
  rw [lead?_eq_leadOf, leadOf]
  constructor
  · intro h
    split at h
    · cases h
      exact .one ‹_›
    split at h
    · cases h
    split at h
    · cases h
      exact .two (by omega) ‹_›
    split at h
    · cases h
      exact .three (by omega) ‹_›
    split at h
    · cases h
      exact .four (by omega) ‹_›
    · cases h
  · intro h
    cases h with
    | one hn => rw [if_pos hn]
    | two hlo hhi => rw [if_neg (by omega), if_neg (by omega), if_pos hhi]
    | three hlo hhi => rw [if_neg (by omega), if_neg (by omega), if_neg (by omega), if_pos hhi]
    | four hlo hhi =>
      rw [if_neg (by omega), if_neg (by omega), if_neg (by omega), if_neg (by omega), if_pos hhi]

theorem Leads.lo_le_hi {l : Lead} (h : Leads n l) : l.lo ≤ l.hi := by
  cases h with
  | one | two => exact (by decide : (0x80 : UInt8) ≤ 0xBF)
  | three | four =>
    rw [UInt8.le_iff_toNat_le]
    split <;> split <;> simp
    omega

def Continues : UInt8 → UInt8 → List UInt8 → Prop
  | _, _, [] => True
  | lo, hi, b :: r => (lo ≤ b ∧ b ≤ hi) ∧ Continues 0x80 0xBF r

section Ranges

variable {x y z : UInt8}

theorem continues_one_iff :
    Continues 0x80 0xBF [x] ↔ 0x80 ≤ x.toNat ∧ x.toNat ≤ 0xBF := by
  simp [Continues, UInt8.le_iff_toNat_le]

theorem continues_two_iff :
    Continues (if n = 0xE0 then 0xA0 else 0x80) (if n = 0xED then 0x9F else 0xBF) [x, y] ↔
      (0x80 ≤ x.toNat ∧ x.toNat ≤ 0xBF) ∧ (n = 0xE0 → 0xA0 ≤ x.toNat) ∧
        (n = 0xED → x.toNat ≤ 0x9F) ∧ 0x80 ≤ y.toNat ∧ y.toNat ≤ 0xBF := by
  split <;> split <;> simp [Continues, UInt8.le_iff_toNat_le] <;> omega

theorem continues_three_iff :
    Continues (if n = 0xF0 then 0x90 else 0x80) (if n = 0xF4 then 0x8F else 0xBF) [x, y, z] ↔
      (0x80 ≤ x.toNat ∧ x.toNat ≤ 0xBF) ∧ (n = 0xF0 → 0x90 ≤ x.toNat) ∧
        (n = 0xF4 → x.toNat ≤ 0x8F) ∧ (0x80 ≤ y.toNat ∧ y.toNat ≤ 0xBF) ∧
        0x80 ≤ z.toNat ∧ z.toNat ≤ 0xBF := by
  split <;> split <;> simp [Continues, UInt8.le_iff_toNat_le] <;> omega

end Ranges

theorem Continues.of_append {lo hi : UInt8} {p q : List UInt8} (h : Continues lo hi (p ++ q)) :
    Continues lo hi p := by
  induction p generalizing lo hi with
  | nil => trivial
  | cons b p ih => exact ⟨h.1, ih h.2⟩

theorem Continues.exists_append {lo hi : UInt8} {p : List UInt8} (h : Continues lo hi p)
    (hle : lo ≤ hi) (n : Nat) : ∃ q, q.length = n ∧ Continues lo hi (p ++ q) := by
  induction p generalizing lo hi with
  | cons b p ih =>
    obtain ⟨q, hq, hc⟩ := ih h.2 (by decide)
    exact ⟨q, hq, h.1, hc⟩
  | nil =>
    induction n generalizing lo hi with
    | zero => exact ⟨[], rfl, trivial⟩
    | succ n ih =>
      have hnil : Continues 0x80 0xBF [] := trivial
      obtain ⟨q, hq, hc⟩ := ih hnil (by decide)
      exact ⟨lo :: q, congrArg (· + 1) hq, ⟨UInt8.le_refl lo, hle⟩, hc⟩

theorem exists_continuation_append (n : Nat) (lo hi : UInt8) (r : List UInt8) :
    ∃ rest, r = continuation n lo hi r ++ rest := by
  fun_induction continuation n lo hi r with
  | case1 lo hi r => exact ⟨r, rfl⟩
  | case2 => exact ⟨[], rfl⟩
  | case3 lo hi n b r hb ih =>
    obtain ⟨rest, hr⟩ := ih
    exact ⟨rest, congrArg (b :: ·) hr⟩
  | case4 lo hi n b r => exact ⟨b :: r, rfl⟩

theorem length_continuation_le (n : Nat) (lo hi : UInt8) (r : List UInt8) :
    (continuation n lo hi r).length ≤ n := by
  fun_induction continuation n lo hi r with
  | case1 | case2 | case4 => exact Nat.zero_le _
  | case3 lo hi n b r hb ih => exact Nat.succ_le_succ ih

theorem continues_continuation (n : Nat) (lo hi : UInt8) (r : List UInt8) :
    Continues lo hi (continuation n lo hi r) := by
  fun_induction continuation n lo hi r with
  | case1 | case2 | case4 => trivial
  | case3 lo hi n b r hb ih => exact ⟨hb, ih⟩

theorem Continues.exists_continuation {lo hi : UInt8} {p : List UInt8}
    (h : Continues lo hi p) (hn : p.length ≤ n) (rest : List UInt8) :
    ∃ q, continuation n lo hi (p ++ rest) = p ++ q := by
  induction p generalizing n lo hi with
  | nil => exact ⟨_, rfl⟩
  | cons b p ih =>
    cases n with
    | zero => exact absurd hn (Nat.not_succ_le_zero _)
    | succ n =>
      obtain ⟨q, hq⟩ := ih h.2 (Nat.le_of_succ_le_succ hn)
      refine ⟨q, ?_⟩
      rw [List.cons_append, continuation, if_pos h.1, hq]
      rfl

/-- The bytes `b :: follow` are a first byte with all that it announces, and stand for `c`. -/
structure Sequence (c : Char) (b : UInt8) (l : Lead) (follow : List UInt8) : Prop where
  lead : lead? b = some l
  length_eq : follow.length = l.follow
  continues : Continues l.lo l.hi follow
  assemble_eq : assemble l.payload follow = c

theorem ofNat_eq_byte {b : UInt8} (h : n = b.toNat) : UInt8.ofNat n = b := by
  rw [h, UInt8.ofNat_toNat]

theorem exists_byte (h : n < 256) : ∃ b : UInt8, b.toNat = n :=
  ⟨.ofNat n, UInt8.toNat_ofNat_of_lt' h⟩

theorem ofNat_eq_char {c : Char} (h : n = c.toNat) : Char.ofNat n = c := by
  rw [h, Char.ofNat_toNat]

theorem toNat_val_ofNat (h : n.isValidChar) : (Char.ofNat n).val.toNat = n := by
  rw [Char.ofNat, dif_pos h]
  rfl

theorem Sequence.encode_eq {c : Char} {b : UInt8} {l : Lead} {follow : List UInt8}
    (h : Sequence c b l follow) : String.utf8EncodeChar c = b :: follow := by
  obtain ⟨hl, hlen, hc, rfl⟩ := h
  cases lead?_eq_some_iff.1 hl with
  | one hn =>
    obtain rfl : follow = [] := List.length_eq_zero_iff.1 hlen
    have hv : b.toNat.isValidChar := Or.inl (by omega)
    rw [assemble, List.foldl_nil, String.utf8EncodeChar, toNat_val_ofNat hv, if_pos (by omega),
      UInt8.ofNat_toNat]
  | two hlo hhi =>
    obtain ⟨x, rfl⟩ := List.length_eq_one_iff.1 hlen
    rw [continues_one_iff] at hc
    rw [assemble, List.foldl_cons, List.foldl_nil]
    generalize hm : 64 * (b.toNat - 0xC0) + (x.toNat - 0x80) = m
    have hv : m.isValidChar := Or.inl (by omega)
    rw [String.utf8EncodeChar, toNat_val_ofNat hv, if_neg (by omega), if_pos (by omega)]
    simp only [List.cons.injEq, and_true]
    exact ⟨ofNat_eq_byte (by omega), ofNat_eq_byte (by omega)⟩
  | three hlo hhi =>
    obtain ⟨x, y, rfl⟩ := List.length_eq_two.1 hlen
    rw [continues_two_iff] at hc
    rw [assemble, List.foldl_cons, List.foldl_cons, List.foldl_nil]
    generalize hm : 64 * (64 * (b.toNat - 0xE0) + (x.toNat - 0x80)) + (y.toNat - 0x80) = m
    have hv : m.isValidChar := by
      simp only [Nat.isValidChar]
      omega
    rw [String.utf8EncodeChar, toNat_val_ofNat hv, if_neg (by omega), if_neg (by omega),
      if_pos (by omega)]
    simp only [List.cons.injEq, and_true]
    exact ⟨ofNat_eq_byte (by omega), ofNat_eq_byte (by omega), ofNat_eq_byte (by omega)⟩
  | four hlo hhi =>
    obtain ⟨x, y, z, rfl⟩ := List.length_eq_three.1 hlen
    rw [continues_three_iff] at hc
    rw [assemble, List.foldl_cons, List.foldl_cons, List.foldl_cons, List.foldl_nil]
    generalize hm : 64 * (64 * (64 * (b.toNat - 0xF0) + (x.toNat - 0x80)) + (y.toNat - 0x80)) +
      (z.toNat - 0x80) = m
    have hv : m.isValidChar := Or.inr (by omega)
    rw [String.utf8EncodeChar, toNat_val_ofNat hv, if_neg (by omega), if_neg (by omega),
      if_neg (by omega)]
    simp only [List.cons.injEq, and_true]
    exact ⟨ofNat_eq_byte (by omega), ofNat_eq_byte (by omega), ofNat_eq_byte (by omega),
      ofNat_eq_byte (by omega)⟩

theorem exists_sequence (c : Char) : ∃ b l follow, Sequence c b l follow := by
  have hc : c.toNat.isValidChar := c.valid
  rw [Nat.isValidChar] at hc
  by_cases h1 : c.toNat < 0x80
  · obtain ⟨b, hb⟩ := exists_byte (n := c.toNat) (by omega)
    exact ⟨b, _, [], lead?_eq_some_iff.2 (.one (by omega)), rfl, trivial, ofNat_eq_char hb⟩
  by_cases h2 : c.toNat < 0x800
  · obtain ⟨b, hb⟩ := exists_byte (n := 0xC0 + c.toNat / 64) (by omega)
    obtain ⟨x, hx⟩ := exists_byte (n := 0x80 + c.toNat % 64) (by omega)
    refine ⟨b, _, [x], lead?_eq_some_iff.2 (.two (by omega) (by omega)), rfl, ?_, ?_⟩
    · exact continues_one_iff.2 (by omega)
    · exact ofNat_eq_char (by simp only [List.foldl_cons, List.foldl_nil]; omega)
  by_cases h3 : c.toNat < 0x10000
  · obtain ⟨b, hb⟩ := exists_byte (n := 0xE0 + c.toNat / 4096) (by omega)
    obtain ⟨x, hx⟩ := exists_byte (n := 0x80 + c.toNat / 64 % 64) (by omega)
    obtain ⟨y, hy⟩ := exists_byte (n := 0x80 + c.toNat % 64) (by omega)
    refine ⟨b, _, [x, y], lead?_eq_some_iff.2 (.three (by omega) (by omega)), rfl, ?_, ?_⟩
    · exact continues_two_iff.2 (by omega)
    · exact ofNat_eq_char (by simp only [List.foldl_cons, List.foldl_nil]; omega)
  · obtain ⟨b, hb⟩ := exists_byte (n := 0xF0 + c.toNat / 262144) (by omega)
    obtain ⟨x, hx⟩ := exists_byte (n := 0x80 + c.toNat / 4096 % 64) (by omega)
    obtain ⟨y, hy⟩ := exists_byte (n := 0x80 + c.toNat / 64 % 64) (by omega)
    obtain ⟨z, hz⟩ := exists_byte (n := 0x80 + c.toNat % 64) (by omega)
    refine ⟨b, _, [x, y, z], lead?_eq_some_iff.2 (.four (by omega) (by omega)), rfl, ?_, ?_⟩
    · exact continues_three_iff.2 (by omega)
    · exact ofNat_eq_char (by simp only [List.foldl_cons, List.foldl_nil]; omega)

end NodeCost.Text.Utf8
