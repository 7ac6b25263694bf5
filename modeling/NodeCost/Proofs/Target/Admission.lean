import NodeCost.Proofs.Target.Refusal
import NodeCost.Proofs.Target.Validity

namespace NodeCost

theorem FeatureSet.exists_contains_of_ne_empty {s : FeatureSet} (h : s ≠ ∅) :
    ∃ f, s.contains f = true := by
  by_contra hn
  exact h (ext_contains fun f => by
    rw [contains_empty]
    exact ⟨fun hf => absurd ⟨f, hf⟩ hn, nofun⟩)

theorem FeatureSet.ofList_congr {fs gs : List Feature} (h : ∀ f, f ∈ fs ↔ f ∈ gs) :
    ofList fs = ofList gs :=
  ext_contains fun f => by rw [contains_ofList, contains_ofList, h]

namespace Target

variable {a b : Arch} {fs : List Feature} {s : FeatureSet} {t u : Target}

/-- What becomes of listed features on an architecture: either all of them are its own, and the
target holds them and no others, or the one declared first of those that are not is named. -/
inductive Verdict (a : Arch) (fs : List Feature) : Except TargetError Target → Prop where
  | accepted {t : Target} (hfs : ∀ f ∈ fs, f.arch = a) (ha : t.arch = a)
      (hf : ∀ f, t.contains f = true ↔ f ∈ fs) : Verdict a fs (.ok t)
  | refused {f : Feature} (hf : Feature.First (fun g => g ∈ fs ∧ g.arch ≠ a) f) :
      Verdict a fs (.error (.foreignFeature f a))

theorem verdict_ofFeatures (a : Arch) (fs : List Feature) :
    Verdict a fs (ofFeatures a (.ofList fs)) := by
  cases hr : ofFeatures a (.ofList fs) with
  | ok t =>
    obtain ⟨rfl, hfs⟩ := ofFeatures_eq_ok_iff.1 hr
    exact .accepted (fun f hf => hfs f (FeatureSet.contains_ofList.2 hf)) rfl
      fun f => FeatureSet.contains_ofList
  | error e =>
    obtain ⟨f, hf, rfl⟩ := ofFeatures_eq_error_iff.1 hr
    exact .refused (hf.of_iff fun g => and_congr_left fun _ => FeatureSet.contains_ofList)

theorem Verdict.unique {r r' : Except TargetError Target} (h : Verdict a fs r)
    (h' : Verdict a fs r') : r = r' := by
  cases h with
  | accepted hfs ha hf =>
    cases h' with
    | accepted _ ha' hf' =>
      exact congrArg _ (ext_contains (ha.trans ha'.symm) fun f => (hf f).trans (hf' f).symm)
    | refused hf' => exact absurd (hfs _ hf'.holds.1) hf'.holds.2
  | refused hf =>
    cases h' with
    | accepted hfs' => exact absurd (hfs' _ hf.holds.1) hf.holds.2
    | refused hf' => rw [hf.unique hf']

theorem Verdict.exists_ok_iff {r : Except TargetError Target} (h : Verdict a fs r) :
    (∃ t, r = .ok t) ↔ ∀ f ∈ fs, f.arch = a := by
  cases h with
  | accepted hfs => exact ⟨fun _ => hfs, fun _ => ⟨_, rfl⟩⟩
  | refused hf =>
    constructor
    · rintro ⟨t, ht⟩
      cases ht
    · exact fun hfs => absurd (hfs _ hf.holds.1) hf.holds.2

theorem arch_eq_of_ofFeatures (hs : s ≠ ∅) (ht : ofFeatures a s = .ok t)
    (hu : ofFeatures b s = .ok u) : a = b := by
  obtain ⟨f, hf⟩ := FeatureSet.exists_contains_of_ne_empty hs
  rw [← (ofFeatures_eq_ok_iff.1 ht).2 f hf, ← (ofFeatures_eq_ok_iff.1 hu).2 f hf]

theorem ne_generic_of_ofFeatures (hs : s ≠ ∅) (ht : ofFeatures a s = .ok t) : a ≠ .generic := by
  obtain ⟨f, hf⟩ := FeatureSet.exists_contains_of_ne_empty hs
  rw [← (ofFeatures_eq_ok_iff.1 ht).2 f hf]
  exact arch_ne_generic f

/-- Listed features are judged by what they are, not by how they are listed. Some features at all
are taken by one architecture at most and never by the generic one, no features by every one. -/
theorem ofFeatures_ofList_eq_iff :
    (∀ a fs r, ofFeatures a (.ofList fs) = r ↔ Verdict a fs r) ∧
    (∀ a fs, (∃ t, ofFeatures a (.ofList fs) = .ok t) ↔ ∀ f ∈ fs, f.arch = a) ∧
    (∀ a fs gs, (∀ f, f ∈ fs ↔ f ∈ gs) →
      ofFeatures a (.ofList fs) = ofFeatures a (.ofList gs)) ∧
    (∀ a s t, s ≠ ∅ → ofFeatures a s = .ok t →
      a ≠ .generic ∧ ∀ b u, ofFeatures b s = .ok u → b = a) ∧
    ∀ a, ofFeatures a ∅ = .ok { arch := a } := by
  refine ⟨fun a fs r => ⟨?_, ?_⟩, ?_, ?_, ?_, ?_⟩
  · rintro rfl
    exact verdict_ofFeatures a fs
  · exact (verdict_ofFeatures a fs).unique
  · exact fun a fs => (verdict_ofFeatures a fs).exists_ok_iff
  · intro a fs gs h
    rw [FeatureSet.ofList_congr h]
  · intro a s t hs ht
    exact ⟨ne_generic_of_ofFeatures hs ht, fun b u hu => arch_eq_of_ofFeatures hs hu ht⟩
  · exact fun a => rfl

theorem verdict_of_repeated_lse :
    ofFeatures .x86_64 (.ofList [.lse, .avx2, .crc32, .lse]) =
      .error (.foreignFeature .crc32 .x86_64) ∧
    ofFeatures .x86_64 (.ofList [.crc32, .lse, .avx2]) =
      .error (.foreignFeature .crc32 .x86_64) ∧
    ∃ t, ofFeatures .aarch64 (.ofList [.lse, .asimd]) = .ok t ∧
      ∀ b u, ofFeatures b (.ofList [.lse, .asimd]) = .ok u → b = .aarch64 := by
  obtain ⟨hverdict, hok, hmem, hone, -⟩ := ofFeatures_ofList_eq_iff
  have hfirst : Feature.First
      (fun g => g ∈ [.lse, .avx2, .crc32, .lse] ∧ g.arch ≠ .x86_64) .crc32 :=
    ⟨by decide, fun g => by cases g <;> decide⟩
  have hmembers : ∀ f : Feature, f ∈ [.crc32, .lse, .avx2] ↔ f ∈ [.lse, .avx2, .crc32, .lse] := by
    intro f
    cases f <;> decide
  have hr := (hverdict .x86_64 _ _).2 (.refused hfirst)
  obtain ⟨t, ht⟩ := (hok .aarch64 [.lse, .asimd]).2 (by decide)
  exact ⟨hr, (hmem _ _ _ hmembers).trans hr, t, ht, (hone _ _ t (by decide) ht).2⟩

end Target

end NodeCost
