import NodeCost.Target.FeatureSet
import NodeCost.Target.Error

namespace NodeCost

structure Target where
  arch : Arch
  features : FeatureSet := ∅
deriving DecidableEq, Repr

namespace Target

def contains (t : Target) (f : Feature) : Bool := t.features.contains f

theorem ext_contains {t u : Target} (ha : t.arch = u.arch)
    (hf : ∀ f, t.contains f = true ↔ u.contains f = true) : t = u := by
  have hs : t.features = u.features := FeatureSet.ext_contains hf
  cases t
  cases u
  cases ha
  cases hs
  rfl

def Valid (t : Target) : Prop := ∀ f, t.contains f = true → f.arch = t.arch

instance (t : Target) : Decidable t.Valid :=
  decidable_of_iff (∀ f ∈ Feature.all, t.contains f = true → f.arch = t.arch)
    ⟨fun h f => h f (Feature.mem_all f), fun h f _ => h f⟩

/-- The target with the given parts. It is refused for the first feature, in declaration order,
that belongs to another architecture. -/
def ofFeatures (arch : Arch) (features : FeatureSet) : Except TargetError Target :=
  match features.toList.find? (fun f => f.arch ≠ arch) with
  | some f => .error (.foreignFeature f arch)
  | none => .ok { arch, features }

theorem ofFeatures_eq_ok_iff {arch : Arch} {features : FeatureSet} {t : Target} :
    ofFeatures arch features = .ok t ↔
      t = { arch, features } ∧ ∀ f, features.contains f = true → f.arch = arch := by
  rw [ofFeatures]
  cases hf : features.toList.find? (fun f => f.arch ≠ arch) with
  | some f =>
    have hne : f.arch ≠ arch := by simpa using List.find?_some hf
    have hm : features.contains f = true := FeatureSet.mem_toList.1 (List.mem_of_find?_eq_some hf)
    constructor
    · intro h
      cases h
    · rintro ⟨-, h⟩
      exact absurd (h f hm) hne
  | none =>
    have hall : ∀ f, features.contains f = true → f.arch = arch := by
      intro f hm
      have hn := List.find?_eq_none.1 hf f (FeatureSet.mem_toList.2 hm)
      simpa using hn
    exact ⟨fun h => ⟨(Except.ok.inj h).symm, hall⟩, fun h => congrArg Except.ok h.1.symm⟩

def x86_64 (fs : List Feature) : Except TargetError Target := ofFeatures .x86_64 (.ofList fs)

def generic : Target := { arch := .generic }

def text (t : Target) : String :=
  if t.features.isEmpty then t.arch.name else t.arch.name ++ "+" ++ t.features.text

def dump (t : Target) : String :=
  "TargetDescription \x7b arch: " ++ label t.arch ++ ", features: " ++ t.features.dump ++ " \x7d"

end Target

end NodeCost
