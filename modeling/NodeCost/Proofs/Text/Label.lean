import Mathlib.Data.List.Basic
import NodeCost.Enumerated
import NodeCost.Text.Fields

namespace NodeCost

namespace Text

def isWordChar (c : Char) : Bool := c.isAlphanum || c == '-'

/-- A text of letters, digits and signs only. -/
def isWord (s : String) : Bool := s.toList.all isWordChar

theorem not_mem_of_isWord {s : String} (h : isWord s = true) {c : Char}
    (hc : isWordChar c = false) : c ∉ s.toList := by
  intro hm
  have hw := List.all_eq_true.1 h c hm
  rw [hc] at hw
  cases hw

theorem isDigit_of_mem_repr {n : Nat} {c : Char} (h : c ∈ n.repr.toList) : c.isDigit = true := by
  rw [Nat.toList_repr] at h
  exact Nat.isDigit_of_mem_toDigits (by decide) (by decide) h

theorem isWord_toString_nat (n : Nat) : isWord (toString n) = true := by
  apply List.all_eq_true.2
  intro c hc
  rw [isWordChar, Char.isAlphanum, isDigit_of_mem_repr hc, Bool.or_true, Bool.true_or]

theorem toList_toString_negSucc (n : Nat) :
    (toString (Int.negSucc n)).toList = '-' :: (toString (n + 1)).toList :=
  String.toList_append

theorem isWord_toString_int (i : Int) : isWord (toString i) = true := by
  cases i with
  | ofNat n => exact isWord_toString_nat n
  | negSucc n =>
    rw [isWord, toList_toString_negSucc, List.all_cons]
    exact isWord_toString_nat (n + 1)

theorem toString_nat_injective : Function.Injective (toString : Nat → String) := by
  intro m n h
  have hdigits : Nat.toDigits 10 m = Nat.toDigits 10 n := by
    rw [← Nat.toList_repr, ← Nat.toList_repr]
    exact congrArg String.toList h
  have hread := congrArg (fun ds => Nat.ofDigitChars 10 ds 0) hdigits
  simpa using hread

theorem toString_ofNat_ne_negSucc (m n : Nat) :
    toString (Int.ofNat m) ≠ toString (Int.negSucc n) := by
  intro h
  have hsign : '-' ∈ m.repr.toList := by
    have hm := congrArg String.toList h
    rw [toList_toString_negSucc] at hm
    exact hm ▸ List.mem_cons_self
  exact absurd (isDigit_of_mem_repr hsign) (by decide)

theorem toString_int_injective : Function.Injective (toString : Int → String) := by
  intro i j h
  cases i with
  | ofNat m =>
    cases j with
    | ofNat n => exact congrArg Int.ofNat (toString_nat_injective h)
    | negSucc n => exact absurd h (toString_ofNat_ne_negSucc m n)
  | negSucc m =>
    cases j with
    | ofNat n => exact absurd h.symm (toString_ofNat_ne_negSucc n m)
    | negSucc n =>
      have hl := congrArg String.toList h
      rw [toList_toString_negSucc, toList_toString_negSucc] at hl
      have hsucc := toString_nat_injective (String.toList_inj.1 (List.cons.inj hl).2)
      exact congrArg Int.negSucc (Nat.succ.inj hsucc)

theorem splitOn_join {α : Type} {sep : Char} {f : α → String} {line : α → List Char}
    (hf : ∀ a, (f a).toList = line a ++ [sep]) (hsep : ∀ a, sep ∉ line a) (as : List α)
    (s : List Char) :
    ((String.join (as.map f)).toList ++ s).splitOn sep = as.map line ++ s.splitOn sep := by
  have hjoin : (String.join (as.map f)).toList = (as.map line).flatMap fun l => l ++ [sep] := by
    rw [String.toList_join, List.flatMap_map, List.flatMap_map]
    exact List.flatMap_congr fun a _ => hf a
  have hlines : ∀ l ∈ as.map line, sep ∉ l := by
    intro l hl
    obtain ⟨a, -, rfl⟩ := List.mem_map.1 hl
    exact hsep a
  rw [hjoin, splitOn_flatMap_append hlines]

/-- The commas tell words apart; a blank is left before each but the first. -/
theorem splitOn_intercalate {α : Type} {f : α → String} (hf : ∀ a, isWord (f a) = true) (a : α)
    (as : List α) : (", ".intercalate ((a :: as).map f)).toList.splitOn ',' =
      (f a).toList :: as.map fun a => ' ' :: (f a).toList := by
  have hcomma : ∀ a, ',' ∉ (f a).toList := fun a => not_mem_of_isWord (hf a) rfl
  rw [splitOn_eq_iff, String.toList_intercalate, List.map_map, List.map_cons]
  refine ⟨List.cons_ne_nil _ _, ?_, ?_⟩
  · intro p hp
    obtain rfl | hp := List.mem_cons.1 hp
    · exact hcomma a
    · obtain ⟨b, -, rfl⟩ := List.mem_map.1 hp
      simpa using hcomma b
  · refine (intercalate_pair _ _).trans ?_
    rw [List.map_map]
    rfl

theorem intercalate_injective {α : Type} {f : α → String} (hf : ∀ a, isWord (f a) = true)
    (hne : ∀ a, f a ≠ "") (hinj : Function.Injective f) :
    Function.Injective fun as : List α => ", ".intercalate (as.map f) := by
  intro as bs h
  have hp := congrArg (fun s : String => s.toList.splitOn ',') h
  have hnil : ∀ a, (f a).toList ≠ [] := fun a ha => hne a (String.toList_eq_nil_iff.1 ha)
  have hblank : Function.Injective fun a => ' ' :: (f a).toList := fun a b hab =>
    hinj (String.toList_injective (List.cons.inj hab).2)
  cases as with
  | nil =>
    cases bs with
    | nil => rfl
    | cons b bs =>
      simp only [splitOn_intercalate hf] at hp
      exact absurd (List.cons.inj hp).1.symm (hnil b)
  | cons a as =>
    cases bs with
    | nil =>
      simp only [splitOn_intercalate hf] at hp
      exact absurd (List.cons.inj hp).1 (hnil a)
    | cons b bs =>
      simp only [splitOn_intercalate hf, List.cons.injEq] at hp
      rw [hinj (String.toList_injective hp.1), hblank.list_map hp.2]

end Text

open Text

/-- What has labels is found by them, and they are words. -/
class LawfulEnumerated (α : Type) [Enumerated α] : Prop where
  ofLabel?_label : ∀ a : α, Enumerated.ofLabel? (label a) = some a
  isWord_label : ∀ a : α, isWord (label a) = true

export LawfulEnumerated (ofLabel?_label isWord_label)

theorem eq_of_label_eq {α : Type} [Enumerated α] [LawfulEnumerated α] {a b : α}
    (h : label a = label b) : a = b := by
  have ha := ofLabel?_label a
  rw [h, ofLabel?_label b] at ha
  exact (Option.some.inj ha).symm

end NodeCost
