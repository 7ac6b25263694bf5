import NodeCost.Document.Basic
import NodeCost.Model.Amd64
import NodeCost.Target.Environment

namespace NodeCost

namespace Target

/-- The ways to come by a target on a machine whose own target is `host`. -/
inductive Obtained (host : Target) : Target → Prop where
  | generic : Obtained host generic
  | ofFeatures {a : Arch} {s : FeatureSet} {t : Target} (h : ofFeatures a s = .ok t) :
      Obtained host t
  | x86_64 {fs : List Feature} {t : Target} (h : x86_64 fs = .ok t) : Obtained host t
  | ofText {s : String} {t : Target} (h : ofText s = .ok t) : Obtained host t
  | ofJson {text : String} {t : Target} (h : ofJson text = .ok t) : Obtained host t
  | ofVariable {value : Option (List UInt8)} {t : Target} (h : ofVariable host value = .ok t) :
      Obtained host t

theorem valid_generic : generic.Valid := by decide

theorem valid_of_ofFeatures {a : Arch} {s : FeatureSet} {t : Target}
    (h : ofFeatures a s = .ok t) : t.Valid := by
  obtain ⟨rfl, hs⟩ := ofFeatures_eq_ok_iff.1 h
  exact hs

theorem valid_of_ofChars {s : List Char} {t : Target} (h : ofChars s = .ok t) : t.Valid := by
  obtain ⟨-, a, fs, -, -, ht⟩ := ofChars_eq_ok_iff.1 h
  exact valid_of_ofFeatures ht

theorem valid_of_ofJson {text : String} {t : Target} (h : ofJson text = .ok t) : t.Valid := by
  have ht := Document.read_eq_ok_iff.1 h
  obtain ⟨parts, -, hp⟩ := Document.takeTarget_eq_ok_iff.1 ht
  obtain ⟨a, -, ha⟩ := Document.Parts.target_eq_ok_iff.1 hp
  exact valid_of_ofFeatures ha

theorem valid_of_ofVariable {host : Target} (hh : host.Valid) {value : Option (List UInt8)}
    {t : Target} (h : ofVariable host value = .ok t) : t.Valid := by
  rw [ofVariable.eq_def] at h
  split at h
  · cases h
    exact hh
  · split at h
    · exact valid_of_ofChars h
    · cases h

theorem Obtained.valid {host : Target} (hh : host.Valid) {t : Target} (h : Obtained host t) :
    t.Valid := by
  cases h with
  | generic => exact valid_generic
  | ofFeatures h => exact valid_of_ofFeatures h
  | x86_64 h => exact valid_of_ofFeatures h
  | ofText h => exact valid_of_ofChars h
  | ofJson h => exact valid_of_ofJson h
  | ofVariable h => exact valid_of_ofVariable hh h

theorem Valid.contains_eq_false {t : Target} (h : t.Valid) {f : Feature} (hf : f.arch ≠ t.arch) :
    t.contains f = false :=
  Bool.eq_false_iff.2 fun hc => hf (h f hc)

theorem arch_ne_generic (f : Feature) : f.arch ≠ .generic := by
  cases f <;> decide

/-- Outside its own architecture the model for AMD64 sees no vector compares. -/
theorem Valid.ofTarget_eq {t : Target} (h : t.Valid) (ha : t.arch ≠ .x86_64) :
    Amd64.ofTarget t = { avx2 := false, sse41 := false } := by
  have h₁ : t.contains .avx2 = false := h.contains_eq_false (Ne.symm ha)
  have h₂ : t.contains .sse41 = false := h.contains_eq_false (Ne.symm ha)
  rw [Amd64.ofTarget, h₁, h₂]

/-- No way to a target leads past the check of its features. -/
theorem obtained_valid {host : Target} (hh : host.Valid) :
    (∀ t, Obtained host t → t.Valid) ∧
    ∀ t : Target, t.Valid →
      (t.arch = .generic → ∀ f, t.contains f = false) ∧
      (t.arch = .aarch64 → ∀ f : Feature, f.arch = .x86_64 → t.contains f = false) ∧
      ((Amd64.ofTarget t).avx2 = true ∨ (Amd64.ofTarget t).sse41 = true → t.arch = .x86_64) ∧
      ∃ bare, x86_64 [] = .ok bare ∧
        (t.arch ≠ .x86_64 → Amd64.ofTarget t = Amd64.ofTarget bare) := by
  refine ⟨fun t => Obtained.valid hh, fun t ht => ⟨?_, ?_, ?_, { arch := .x86_64 }, rfl, ?_⟩⟩
  · intro ha f
    exact ht.contains_eq_false (ha ▸ arch_ne_generic f)
  · intro ha f hf
    exact ht.contains_eq_false (by rw [hf, ha]; decide)
  · intro h
    by_cases ha : t.arch = .x86_64
    · exact ha
    · rw [ht.ofTarget_eq ha] at h
      simp at h
  · intro ha
    rw [ht.ofTarget_eq ha]
    rfl

theorem valid_of_neon_text :
    ∃ t, ofText "ARM64+ NEON ," = .ok t ∧ t.Valid ∧ t.contains .asimd = true ∧
      t.contains .avx2 = false ∧ Amd64.ofTarget t = Amd64.ofTarget { arch := .x86_64 } := by
  have hh : Valid { arch := .x86_64, features := .ofList [.avx2] } := by decide
  have ht : ofText "ARM64+ NEON ," = .ok { arch := .aarch64, features := .ofList [.asimd] } := rfl
  have hv := (obtained_valid hh).1 _ (.ofText ht)
  obtain ⟨-, hx86, -, bare, hbare, hmodel⟩ := (obtained_valid hh).2 _ hv
  cases hbare
  exact ⟨_, ht, hv, by decide, hx86 rfl .avx2 rfl, hmodel (by decide)⟩

end Target

end NodeCost
