import Mathlib.Algebra.GroupWithZero.Nat
import Mathlib.Algebra.Order.BigOperators.Group.List
import Mathlib.Algebra.Order.Group.Nat
import NodeCost.Tier.Basic

namespace NodeCost

/-- What a fold has reached after some elements it would have reached if there were no others. -/
theorem eq_foldl_take {α β : Type} {step : β → α → β} {init b : β} {l : List α} {i : Nat}
    (h : (l.scanl step init)[i]? = some b) : b = (l.take i).foldl step init := by
  rw [List.getElem?_scanl] at h
  split at h
  · exact (Option.some.inj h).symm
  · cases h

namespace Tier

variable {α T : Type} [Tier T] {f g : α → T} {l : List α}

def exactTotal (f : α → T) (l : List α) : Nat := (l.map fun a => value (f a)).sum

theorem foldl_add_ofNat (f : α → T) (l : List α) (total : UInt64) :
    l.foldl (fun total a => total + UInt64.ofNat (value (f a))) total =
      total + UInt64.ofNat (exactTotal f l) := by
  induction l generalizing total with
  | nil => exact (UInt64.add_zero total).symm
  | cons a l ih =>
    have hcons : exactTotal f (a :: l) = value (f a) + exactTotal f l := List.sum_cons
    rw [List.foldl_cons, ih, hcons, UInt64.ofNat_add, UInt64.add_assoc]

theorem total_eq (f : α → T) (l : List α) : total f l = UInt64.ofNat (exactTotal f l) := by
  rw [total, foldl_add_ofNat, UInt64.zero_add]

theorem total_congr {β : Type} {g : β → T} {m : List β} (h : exactTotal f l = exactTotal g m) :
    total f l = total g m := by
  rw [total_eq, total_eq, h]

theorem toNat_total (h : exactTotal f l < UInt64.size) : (total f l).toNat = exactTotal f l := by
  rw [total_eq]
  exact UInt64.toNat_ofNat_of_lt' h

theorem total_append_singleton (f : α → T) (l : List α) (a : α) :
    total f (l ++ [a]) = total f l + UInt64.ofNat (value (f a)) := by
  rw [total, List.foldl_append]
  rfl

theorem exactTotal_append (f : α → T) (xs ys : List α) :
    exactTotal f (xs ++ ys) = exactTotal f xs + exactTotal f ys := by
  rw [exactTotal, List.map_append, List.sum_append]
  rfl

theorem exactTotal_congr (h : ∀ a ∈ l, f a = g a) : exactTotal f l = exactTotal g l :=
  congrArg List.sum (List.map_congr_left fun a ha => congrArg value (h a ha))

theorem exactTotal_le_of_sublist {xs ys : List α} (h : xs.Sublist ys) :
    exactTotal f xs ≤ exactTotal f ys :=
  (h.map _).sum_le_sum fun _ _ => Nat.zero_le _

theorem exactTotal_eq_of_perm {β : Type} {f : α → T} {g : β → T} {xs : List α} {ys : List β}
    (h : (xs.map f).Perm (ys.map g)) : exactTotal f xs = exactTotal g ys := by
  have hvalues := (h.map value).sum_eq
  rw [List.map_map, List.map_map] at hvalues
  exact hvalues

/-- The total of a list taken from the total of the same list and one more leaves the tier of that
one, even where both overflow. -/
theorem eq_of_total_eq {a : α} (h : total f l = total g l)
    (ha : total f (l ++ [a]) = total g (l ++ [a])) : f a = g a := by
  rw [total_append_singleton, total_append_singleton, h, UInt64.add_right_inj] at ha
  exact ofNat_value_inj.1 ha

theorem exactTotal_eq_zero_iff : exactTotal f l = 0 ↔ ∀ a ∈ l, value (f a) = 0 := by
  rw [exactTotal, List.sum_eq_zero_iff, List.forall_mem_map]

theorem total_eq_zero_iff (hl : exactTotal f l < UInt64.size) :
    total f l = 0 ↔ ∀ a ∈ l, value (f a) = 0 := by
  rw [← UInt64.toNat_inj, toNat_total hl]
  exact exactTotal_eq_zero_iff

theorem exactTotal_filter {p : α → Bool} (h : ∀ a, p a = false → value (f a) = 0) (l : List α) :
    exactTotal f (l.filter p) = exactTotal f l := by
  induction l with
  | nil => rfl
  | cons a l ih =>
    have hcons : ∀ l, exactTotal f (a :: l) = value (f a) + exactTotal f l :=
      fun _ => List.sum_cons
    cases hp : p a with
    | true => rw [List.filter_cons_of_pos hp, hcons, hcons, ih]
    | false =>
      rw [List.filter_cons_of_neg (Bool.eq_false_iff.1 hp), ih, hcons, h a hp, Nat.zero_add]

theorem total_filter {p : α → Bool} (h : ∀ a, p a = false → value (f a) = 0) (l : List α) :
    total f (l.filter p) = total f l :=
  total_congr (exactTotal_filter h l)

theorem exactTotal_le {cap : Nat} (h : ∀ a, value (f a) ≤ cap) (l : List α) :
    exactTotal f l ≤ cap * l.length := by
  have hle : ∀ v ∈ l.map fun a => value (f a), v ≤ cap := List.forall_mem_map.2 fun a _ => h a
  have hsum := List.sum_le_card_nsmul _ cap hle
  rwa [List.length_map, Nat.nsmul_eq_mul, Nat.mul_comm] at hsum

theorem exactTotal_lt (f : α → T) (hl : l.length ≤ UInt32.size) :
    exactTotal f l < UInt64.size := by
  calc exactTotal f l
      ≤ cap T * l.length := exactTotal_le (fun a => value_le (f a)) l
    _ ≤ cap T * UInt32.size := Nat.mul_le_mul_left _ hl
    _ < UInt32.size * UInt32.size := Nat.mul_lt_mul_of_pos_right cap_lt (by decide)

/-- The words that the sum holds on the way through a list, from zero on. -/
def pass (f : α → T) (l : List α) : List UInt64 :=
  l.scanl (fun total a => total + UInt64.ofNat (value (f a))) 0

theorem getLast?_pass (f : α → T) (l : List α) : (pass f l).getLast? = some (total f l) :=
  List.getLast?_scanl

theorem pass_exact {cap : Nat} (h : ∀ a, value (f a) ≤ cap) (hl : l.length ≤ UInt32.size)
    {i : Nat} {w : UInt64} (hw : (pass f l)[i]? = some w) :
    w.toNat = exactTotal f (l.take i) ∧ w.toNat ≤ cap * l.length := by
  have htake : (l.take i).length ≤ l.length := (List.take_sublist i l).length_le
  have hword : w.toNat = exactTotal f (l.take i) := by
    rw [eq_foldl_take hw]
    exact toNat_total (exactTotal_lt f (htake.trans hl))
  refine ⟨hword, ?_⟩
  rw [hword]
  exact (exactTotal_le h _).trans (Nat.mul_le_mul_left _ htake)

end Tier

end NodeCost
