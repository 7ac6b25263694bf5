import NodeCost.Enumerated

namespace NodeCost

/-- Coarse estimates, each with the number that it stands for. No number stands for two of them,
and sums over as many as 32 bits can number are far from filling 64 bits. -/
class Tier (T : Type) extends Enumerated T where
  value : T → Nat
  cap : Nat
  cap_lt : cap < UInt32.size
  value_le : ∀ t, value t ≤ cap
  find?_value : ∀ t, all.find? (fun u => value u == value t) = some t

namespace Tier

variable {T : Type} [Tier T]

theorem value_inj {t u : T} : value t = value u ↔ t = u := by
  refine ⟨fun h => ?_, congrArg value⟩
  have ht := find?_value t
  rw [h, find?_value u] at ht
  exact (Option.some.inj ht).symm

theorem toNat_ofNat_value (t : T) : (UInt64.ofNat (value t)).toNat = value t := by
  have hcap : cap T < UInt64.size := Nat.lt_trans cap_lt (by decide)
  exact UInt64.toNat_ofNat_of_lt' (Nat.lt_of_le_of_lt (value_le t) hcap)

theorem ofNat_value_inj {t u : T} : UInt64.ofNat (value t) = UInt64.ofNat (value u) ↔ t = u := by
  rw [← UInt64.toNat_inj, toNat_ofNat_value, toNat_ofNat_value, value_inj]

def total {α : Type} (f : α → T) (l : List α) : UInt64 :=
  l.foldl (fun total a => total + UInt64.ofNat (value (f a))) 0

end Tier

end NodeCost
