import NodeCost.Proofs.Target.Word

namespace NodeCost

open Text

namespace Target

/-- How a target text falls apart once the blanks around it are gone: what stands before its first
plus, and the segments between the commas behind that plus. -/
inductive Layout (s : List Char) : List Char → List (List Char) → Prop where
  | bare {head : List Char} (hs : Pads s head) (hp : '+' ∉ head) : Layout s head []
  | listed {head : List Char} {segments : List (List Char)}
      (hs : Pads s (head ++ '+' :: [','].intercalate segments)) (hp : '+' ∉ head)
      (hn : segments ≠ []) (hc : ∀ p ∈ segments, ',' ∉ p) : Layout s head segments

def segments : Option (List Char) → List (List Char)
  | none => []
  | some list => list.splitOn ','

theorem layout_cut (s : List Char) :
    Layout s (cut '+' (trim s)).1 (segments (cut '+' (trim s)).2) := by
  have ht := pads_trim s
  obtain ⟨hp, hc⟩ | ⟨head, list, hp, he, hc⟩ := cut_cases '+' (trim s)
  · rw [hc]
    exact .bare ht hp
  · obtain ⟨hn, hs, hj⟩ := splitOn_eq_iff.1 (rfl : list.splitOn ',' = segments (some list))
    rw [he, hj] at ht
    rw [hc]
    exact .listed ht hp hn hs

theorem Layout.eq_cut {s head : List Char} {ps : List (List Char)} (h : Layout s head ps) :
    head = (cut '+' (trim s)).1 ∧ ps = segments (cut '+' (trim s)).2 := by
  cases h with
  | bare hs hp =>
    rw [trim_of_pads hs, cut_of_not_mem hp]
    exact ⟨rfl, rfl⟩
  | listed hs hp hn hc =>
    rw [trim_of_pads hs, cut_append hp]
    exact ⟨rfl, (splitOn_eq_iff.2 ⟨hn, hc, rfl⟩).symm⟩

theorem Layout.trim_ne_nil {s head : List Char} {ps : List (List Char)} (hl : Layout s head ps)
    {a : Arch} (ha : a.Spells head) : trim s ≠ [] := by
  intro hs
  obtain ⟨rfl, -⟩ := hl.eq_cut
  rw [hs] at ha
  exact Arch.vocabulary.not_blank ha (by simp [cut, Blank])

/-- Where there is no list its reader sees one segment, which is blank and so stands for none. -/
theorem mem_splitOn_getD {list : Option (List Char)} {p : List Char} (hp : ¬ Blank p) :
    p ∈ (list.getD []).splitOn ',' ↔ p ∈ segments list := by
  cases list with
  | some l => rfl
  | none =>
    have hn : p ≠ [] := fun h => hp (by simp [h, Blank])
    simp [segments, hn]

theorem exists_listOfChars_getD_iff {list : Option (List Char)} :
    (∃ fs, Feature.listOfChars (list.getD []) = .ok fs) ↔
      ∀ p ∈ segments list, Blank p ∨ ∃ f : Feature, f.Spells p := by
  rw [Feature.exists_listOfChars_iff]
  refine forall_congr' fun p => ?_
  by_cases hp : Blank p
  · simp [hp]
  · rw [mem_splitOn_getD hp]

theorem contains_listOfChars_getD {list : Option (List Char)} {fs : List Feature}
    (h : Feature.listOfChars (list.getD []) = .ok fs) (f : Feature) :
    (FeatureSet.ofList fs).contains f = true ↔ ∃ p ∈ segments list, f.Spells p := by
  rw [FeatureSet.contains_ofList, Feature.mem_of_listOfChars h]
  exact exists_congr fun p => and_congr_left fun hp => mem_splitOn_getD (Feature.vocabulary.not_blank hp)

/-- The text names an architecture, and each of its segments is blank or names a feature of that
architecture. -/
structure Grammatical (s : List Char) (a : Arch) (head : List Char) (ps : List (List Char)) :
    Prop where
  layout : Layout s head ps
  spells_head : a.Spells head
  spells_of_mem : ∀ p ∈ ps, Blank p ∨ ∃ f : Feature, f.Spells p ∧ f.arch = a

theorem exists_grammatical {s : List Char} {t : Target} (h : ofChars s = .ok t) :
    ∃ head ps, Grammatical s t.arch head ps ∧
      ∀ f, t.contains f = true ↔ ∃ p ∈ ps, f.Spells p := by
  obtain ⟨-, a, fs, ha, hfs, ht⟩ := ofChars_eq_ok_iff.1 h
  obtain ⟨rfl, hv⟩ := ofFeatures_eq_ok_iff.1 ht
  have hmem := contains_listOfChars_getD hfs
  refine ⟨_, _, ⟨layout_cut s, Arch.ofChars_eq_ok_iff.1 ha, ?_⟩, hmem⟩
  intro p hp
  obtain hb | ⟨f, hf⟩ := exists_listOfChars_getD_iff.1 ⟨fs, hfs⟩ p hp
  · exact Or.inl hb
  · exact Or.inr ⟨f, hf, hv f ((hmem f).2 ⟨p, hp, hf⟩)⟩

theorem Grammatical.exists_target {s head : List Char} {a : Arch} {ps : List (List Char)}
    (h : Grammatical s a head ps) :
    ∃ t, ofChars s = .ok t ∧ t.arch = a ∧ ∀ f, t.contains f = true ↔ ∃ p ∈ ps, f.Spells p := by
  obtain ⟨hl, ha, hs⟩ := h
  have hne := hl.trim_ne_nil ha
  obtain ⟨rfl, rfl⟩ := hl.eq_cut
  obtain ⟨fs, hfs⟩ := exists_listOfChars_getD_iff.2 fun p hp =>
    (hs p hp).imp_right fun ⟨f, hf, _⟩ => ⟨f, hf⟩
  have hmem := contains_listOfChars_getD hfs
  have hv : ∀ f, (FeatureSet.ofList fs).contains f = true → f.arch = a := by
    intro f hf
    obtain ⟨p, hp, hfp⟩ := (hmem f).1 hf
    obtain ⟨g, hg, hga⟩ := (hs p hp).resolve_left (Feature.vocabulary.not_blank hfp)
    rw [Feature.vocabulary.spells_unique hfp hg, hga]
  refine ⟨{ arch := a, features := .ofList fs }, ?_, rfl, hmem⟩
  exact ofChars_eq_ok_iff.2 ⟨hne, a, fs, Arch.ofChars_eq_ok_iff.2 ha, hfs,
    ofFeatures_eq_ok_iff.2 ⟨rfl, hv⟩⟩

theorem Grammatical.count_plus {s head : List Char} {a : Arch} {ps : List (List Char)}
    (h : Grammatical s a head ps) : s.count '+' ≤ 1 := by
  have hplus : ∀ p ∈ ps, '+' ∉ p := by
    intro p hp
    obtain hb | ⟨f, hf, -⟩ := h.spells_of_mem p hp
    · exact fun hm => Bool.false_ne_true (hb '+' hm)
    · exact Feature.vocabulary.plus_not_mem hf
  cases h.layout with
  | bare hs hp =>
    rw [count_of_pads hs (by decide), List.count_eq_zero_of_not_mem hp]
    exact Nat.zero_le 1
  | listed hs hp hn hc =>
    have hj : '+' ∉ [','].intercalate ps := by
      intro hm
      obtain he | ⟨p, hp, hm⟩ := mem_of_mem_intercalate hm
      · exact absurd he (by decide)
      · exact hplus p hp hm
    rw [count_of_pads hs (by decide), List.count_append, List.count_cons_self,
      List.count_eq_zero_of_not_mem hp, List.count_eq_zero_of_not_mem hj]

theorem Grammatical.isBlank_of_mem {s head : List Char} {a : Arch} {ps : List (List Char)}
    (h : Grammatical s a head ps) {c : Char} (hc : c ∈ s) (hn : 0x80 ≤ c.toNat) :
    isBlank c = true := by
  cases h.layout with
  | bare hs hp =>
    exact (hs.mem hc).elim id fun hm => h.spells_head.isBlank_of_mem hm hn
  | listed hs hp hne hcomma =>
    obtain hb | hm := hs.mem hc
    · exact hb
    obtain hm | hm := List.mem_append.1 hm
    · exact h.spells_head.isBlank_of_mem hm hn
    obtain rfl | hm := List.mem_cons.1 hm
    · exact absurd hn (by decide)
    obtain hm | ⟨p, hp, hm⟩ := mem_of_mem_intercalate hm
    · rw [List.mem_singleton.1 hm] at hn
      exact absurd hn (by decide)
    · obtain hb | ⟨f, hf, -⟩ := h.spells_of_mem p hp
      · exact hb c hm
      · exact hf.isBlank_of_mem hm hn

/-- The reader takes exactly the grammatical texts, and from each of them exactly the features that
its segments name. No text with a second plus is among them. -/
theorem ofText_eq_ok_iff (s : String) :
    ((∃ t, ofText s = .ok t) ↔ ∃ a head ps, Grammatical s.toList a head ps) ∧
    (∀ t, ofText s = .ok t ↔ ∃ head ps, Grammatical s.toList t.arch head ps ∧
      ∀ f, t.contains f = true ↔ ∃ p ∈ ps, f.Spells p) ∧
    ∀ t, ofText s = .ok t → s.toList.count '+' ≤ 1 := by
  refine ⟨⟨?_, ?_⟩, fun t => ⟨exists_grammatical, ?_⟩, ?_⟩
  · rintro ⟨t, ht⟩
    obtain ⟨head, ps, hg, -⟩ := exists_grammatical ht
    exact ⟨t.arch, head, ps, hg⟩
  · rintro ⟨a, head, ps, hg⟩
    obtain ⟨t, ht, -⟩ := hg.exists_target
    exact ⟨t, ht⟩
  · rintro ⟨head, ps, hg, hf⟩
    obtain ⟨u, hu, ha, hc⟩ := hg.exists_target
    have hut : u = t := ext_contains ha fun f => (hc f).trans (hf f).symm
    exact hut ▸ hu
  · intro t ht
    obtain ⟨head, ps, hg, -⟩ := exists_grammatical ht
    exact hg.count_plus

end Target

end NodeCost
