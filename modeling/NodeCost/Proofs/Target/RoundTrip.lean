import NodeCost.Proofs.Target.Listing

namespace NodeCost

open Text

theorem Feature.comma_not_mem_name (f : Feature) : ',' ∉ f.name.toList :=
  fun h => ((vocabulary.plain (.name f)).1 ',' h).2.2 rfl

def Feature.listText (fs : List Feature) : String := ",".intercalate (fs.map name)

theorem Feature.toList_listText (fs : List Feature) :
    (listText fs).toList = [','].intercalate (fs.map fun f => f.name.toList) := by
  rw [listText, String.toList_intercalate, List.map_map]
  rfl

theorem Feature.splitOn_listText {fs : List Feature} (h : fs ≠ []) :
    (listText fs).toList.splitOn ',' = fs.map fun f => f.name.toList := by
  have hname : ∀ p ∈ fs.map (fun f => f.name.toList), ',' ∉ p := by
    intro p hp
    obtain ⟨f, -, rfl⟩ := List.mem_map.1 hp
    exact f.comma_not_mem_name
  rw [toList_listText]
  exact splitOn_eq_iff.2 ⟨by simpa using h, hname, rfl⟩

/-- The empty text falls into one blank segment, every other list of names into its names. -/
theorem Feature.listOfChars_listText (fs : List Feature) :
    listOfChars (listText fs).toList = .ok fs := by
  by_cases hs : fs = []
  · rw [hs]
    rfl
  · rw [listOfChars, splitOn_listText hs, List.filter_eq_self.2]
    · exact mapM_map_eq_ok (fun f => ofChars_eq_ok_iff.2 f.spells_name) fs
    · intro p hp
      obtain ⟨f, -, rfl⟩ := List.mem_map.1 hp
      have hb := vocabulary.not_blank f.spells_name
      rw [← trim_eq_nil_iff] at hb
      simpa using hb

namespace Target

theorem ofText_name_listText (a : Arch) (fs : List Feature) :
    ofText (a.name ++ "+" ++ Feature.listText fs) = ofFeatures a (.ofList fs) := by
  have hplus : '+' ∉ a.name.toList := Arch.vocabulary.plus_not_mem a.spells_name
  rw [ofText_append_plus hplus, Arch.ofText, Arch.ofChars_eq_ok_iff.2 a.spells_name]
  exact congrArg (· >>= fun fs => ofFeatures a (.ofList fs)) (Feature.listOfChars_listText fs)

theorem ofText_name_plus (a : Arch) (s : FeatureSet) :
    ofText (a.name ++ "+" ++ s.text) = ofFeatures a s := by
  have h := ofText_name_listText a s.toList
  rw [FeatureSet.ofList_toList] at h
  exact h

theorem ofText_name (a : Arch) : ofText a.name = .ok { arch := a } := by
  cases a <;> decide

theorem text_of_empty {t : Target} (h : ∀ f, t.contains f = false) : t.text = t.arch.name := by
  have hs : t.features = ∅ := by
    apply FeatureSet.ext_contains
    intro f
    have hf : t.features.contains f = false := h f
    rw [hf, FeatureSet.contains_empty]
  rw [text, if_pos (FeatureSet.isEmpty_iff.2 hs)]

theorem ofText_text_of_valid {t : Target} (h : t.Valid) : ofText t.text = .ok t := by
  rw [text]
  split
  · rename_i hs
    rw [ofText_name]
    cases t
    cases FeatureSet.isEmpty_iff.1 hs
    rfl
  · rw [ofText_name_plus]
    exact ofFeatures_eq_ok_iff.2 ⟨rfl, h⟩

/-- Reading a printed target gives back what was printed. With a plus behind its name and a list
of names that need not be its own, an architecture reads as the check of these features answers. -/
theorem ofText_text :
    (∀ (a : Arch) (s : FeatureSet), ofText (a.name ++ "+" ++ s.text) = ofFeatures a s) ∧
    (∀ t : Target, t.Valid → ofText t.text = .ok t) ∧
    (∀ t : Target, (∀ f, t.contains f = false) → t.text = t.arch.name) ∧
    ∀ t u : Target, t.Valid → u.Valid → t.text = u.text → t = u := by
  refine ⟨ofText_name_plus, fun t => ofText_text_of_valid, fun t => text_of_empty, ?_⟩
  intro t u ht hu h
  have htu := ofText_text_of_valid hu
  rw [← h, ofText_text_of_valid ht] at htu
  exact Except.ok.inj htu

theorem ofText_text_of_lse :
    let t : Target := { arch := .aarch64, features := .ofList [.lse, .asimd] }
    t.Valid ∧ t.text = "aarch64+asimd,lse" ∧ ofText t.text = .ok t ∧
      ofText (Arch.x86_64.name ++ "+" ++ t.features.text) =
        .error (.foreignFeature .asimd .x86_64) := by
  intro t
  have ht : t.Valid := by decide
  refine ⟨ht, by decide, ofText_text.2.1 t ht, ?_⟩
  rw [ofText_text.1]
  decide

end Target

end NodeCost
