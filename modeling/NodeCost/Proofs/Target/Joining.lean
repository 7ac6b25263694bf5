import NodeCost.Proofs.Target.Listing
import NodeCost.Proofs.Target.Refusal

namespace NodeCost

open Text

theorem Feature.First.of_or {p q : Feature → Prop} {f : Feature} (h : First (fun g => p g ∨ q g) f) :
    First (fun g => First p g ∨ First q g) f := by
  refine ⟨?_, fun g hg => h.index_le g (hg.imp First.holds First.holds)⟩
  obtain hp | hq := h.holds
  · exact Or.inl ⟨hp, fun g hg => h.index_le g (Or.inl hg)⟩
  · exact Or.inr ⟨hq, fun g hg => h.index_le g (Or.inr hg)⟩

namespace Target

def Reports (r : Except TargetError Target) (a : Arch) (f : Feature) : Prop :=
  r = .error (.foreignFeature f a)

def Checked (r : Except TargetError Target) (a : Arch) : Prop :=
  (∃ t, r = .ok t ∧ t.arch = a) ∨ ∃ f, Reports r a f

/-- How the answer to two lists of features in one hangs together with the answers to each: the
first two arguments are the answers to the left and to the right list, the third is the answer to
both. -/
inductive Joins : Except TargetError Target → Except TargetError Target →
    Except TargetError Target → Prop where
  | ok {t u v : Target} (hu : u.arch = t.arch) (hv : v.arch = t.arch)
      (hf : ∀ f, v.contains f = true ↔ t.contains f = true ∨ u.contains f = true) :
      Joins (.ok t) (.ok u) (.ok v)
  | unknownArch {name : String} : Joins (.error (.unknownArch name)) (.error (.unknownArch name))
      (.error (.unknownArch name))
  | unknownLeft {a : Arch} {name : String} {r : Except TargetError Target}
      (hr : Checked r a ∨ ∃ n, r = .error (.unknownFeature n)) :
      Joins (.error (.unknownFeature name)) r (.error (.unknownFeature name))
  | unknownRight {a : Arch} {name : String} {l : Except TargetError Target} (hl : Checked l a) :
      Joins l (.error (.unknownFeature name)) (.error (.unknownFeature name))
  | foreign {a : Arch} {f : Feature} {l r : Except TargetError Target} (hl : Checked l a)
      (hr : Checked r a) (hf : Feature.First (fun g => Reports l a g ∨ Reports r a g) f) :
      Joins l r (.error (.foreignFeature f a))

theorem reports_ofFeatures_iff {a : Arch} {s : FeatureSet} {f : Feature} :
    Reports (ofFeatures a s) a f ↔
      Feature.First (fun g => s.contains g = true ∧ g.arch ≠ a) f := by
  rw [Reports, ofFeatures_eq_error_iff]
  simp

theorem checked_ofFeatures (a : Arch) (s : FeatureSet) : Checked (ofFeatures a s) a := by
  cases h : ofFeatures a s with
  | ok t =>
    obtain ⟨rfl, -⟩ := ofFeatures_eq_ok_iff.1 h
    exact Or.inl ⟨_, rfl, rfl⟩
  | error e =>
    obtain ⟨f, -, rfl⟩ := ofFeatures_eq_error_iff.1 h
    exact Or.inr ⟨f, rfl⟩

theorem checked_or_unknownFeature (a : Arch) (s : List Char) :
    Checked (Feature.listOfChars s >>= fun fs => ofFeatures a (.ofList fs)) a ∨
      ∃ n, (Feature.listOfChars s >>= fun fs => ofFeatures a (.ofList fs)) =
        .error (.unknownFeature n) := by
  cases h : Feature.listOfChars s with
  | error e =>
    obtain ⟨_, _, _, -, -, -, -, rfl⟩ := Feature.listOfChars_eq_error_iff.1 h
    exact Or.inr ⟨_, rfl⟩
  | ok fs => exact Or.inl (checked_ofFeatures a _)

theorem joins_ofFeatures (a : Arch) (fs gs : List Feature) :
    Joins (ofFeatures a (.ofList fs)) (ofFeatures a (.ofList gs))
      (ofFeatures a (.ofList (fs ++ gs))) := by
  cases h : ofFeatures a (.ofList (fs ++ gs)) with
  | ok v =>
    obtain ⟨rfl, hall⟩ := ofFeatures_eq_ok_iff.1 h
    simp only [FeatureSet.contains_ofList, List.mem_append] at hall
    rw [ofFeatures_ofList_of_forall fun f hf => hall f (Or.inl hf),
      ofFeatures_ofList_of_forall fun f hf => hall f (Or.inr hf)]
    refine .ok rfl rfl fun f => ?_
    simp [contains]
  | error e =>
    obtain ⟨f, hf, rfl⟩ := ofFeatures_eq_error_iff.1 h
    refine .foreign (checked_ofFeatures a _) (checked_ofFeatures a _) ?_
    simp only [reports_ofFeatures_iff]
    apply Feature.First.of_or
    refine hf.of_iff fun g => ?_
    simp only [FeatureSet.contains_ofList, List.mem_append, or_and_right]

/-- The list of a text may be cut in two at any comma: the answers to the two texts with the parts
determine the answer to the whole. -/
theorem ofText_joins {a : String} (ha : '+' ∉ a.toList) (l r : String) :
    Joins (ofText (a ++ "+" ++ l)) (ofText (a ++ "+" ++ r))
      (ofText (a ++ "+" ++ l ++ "," ++ r)) := by
  have hjoin : a ++ "+" ++ l ++ "," ++ r = a ++ "+" ++ (l ++ "," ++ r) := by
    simp only [String.append_assoc]
  have hcomma : (l ++ "," ++ r).toList = l.toList ++ ',' :: r.toList := by
    simp [String.toList_append]
  rw [hjoin, ofText_append_plus ha, ofText_append_plus ha, ofText_append_plus ha, hcomma,
    Feature.listOfChars_append_comma]
  cases harch : Arch.ofText a with
  | error e =>
    obtain ⟨-, rfl⟩ := Arch.ofChars_eq_error_iff.1 harch
    exact .unknownArch
  | ok arch =>
    cases hl : Feature.listOfChars l.toList with
    | error e =>
      obtain ⟨_, _, _, -, -, -, -, rfl⟩ := Feature.listOfChars_eq_error_iff.1 hl
      exact .unknownLeft (checked_or_unknownFeature arch r.toList)
    | ok fs =>
      cases hr : Feature.listOfChars r.toList with
      | error e =>
        obtain ⟨_, _, _, -, -, -, -, rfl⟩ := Feature.listOfChars_eq_error_iff.1 hr
        exact .unknownRight (checked_ofFeatures arch _)
      | ok gs => exact joins_ofFeatures arch fs gs

/-- A word that is no feature counts before a feature that is foreign, wherever the two stand. -/
theorem ofText_joins_of_second_plus :
    '+' ∉ " ARM64 ".toList ∧ ofText " ARM64 +avx2, sse " = .error (.foreignFeature .sse .aarch64) ∧
      ofText " ARM64 +neon, a+b" = .error (.unknownFeature "a+b") ∧
      Joins (.error (.foreignFeature .sse .aarch64)) (.error (.unknownFeature "a+b"))
        (ofText " ARM64 +avx2, sse ,neon, a+b") := by
  have ha : '+' ∉ " ARM64 ".toList := by decide
  have hl : ofText " ARM64 +avx2, sse " = .error (.foreignFeature .sse .aarch64) := by decide
  have hr : ofText " ARM64 +neon, a+b" = .error (.unknownFeature "a+b") := by decide
  have h := ofText_joins ha "avx2, sse " "neon, a+b"
  refine ⟨ha, hl, hr, ?_⟩
  rw [← hl, ← hr]
  exact h

end Target

end NodeCost
