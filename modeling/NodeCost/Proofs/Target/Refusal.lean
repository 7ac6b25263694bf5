import NodeCost.Proofs.Target.Grammar

namespace NodeCost

open Text

namespace Feature

structure First (p : Feature → Prop) (f : Feature) : Prop where
  holds : p f
  index_le : ∀ g, p g → f.index ≤ g.index

theorem First.of_iff {p q : Feature → Prop} {f : Feature} (h : ∀ g, p g ↔ q g) (hf : First p f) :
    First q f :=
  ⟨(h f).1 hf.holds, fun g hg => hf.index_le g ((h g).2 hg)⟩

theorem First.unique {p : Feature → Prop} {f g : Feature} (hf : First p f) (hg : First p g) :
    f = g :=
  eq_of_index_eq (Nat.le_antisymm (hf.index_le g hg.holds) (hg.index_le f hf.holds))

theorem find?_eq_some_iff_first {l : List Feature} (hl : l.Pairwise fun f g => f.index < g.index)
    {p : Feature → Bool} {f : Feature} :
    l.find? p = some f ↔ First (fun g => g ∈ l ∧ p g = true) f := by
  induction l with
  | nil => exact ⟨fun h => (by cases h), fun h => absurd h.holds.1 List.not_mem_nil⟩
  | cons g l ih =>
    obtain ⟨hg, hl⟩ := List.pairwise_cons.1 hl
    by_cases hp : p g = true
    · rw [List.find?_cons_of_pos hp, Option.some.injEq]
      constructor
      · rintro rfl
        refine ⟨⟨List.mem_cons_self, hp⟩, ?_⟩
        rintro h ⟨hm, -⟩
        obtain rfl | hm := List.mem_cons.1 hm
        · exact Nat.le_refl _
        · exact Nat.le_of_lt (hg h hm)
      · rintro ⟨⟨hm, -⟩, hle⟩
        obtain rfl | hm := List.mem_cons.1 hm
        · rfl
        · exact absurd (hle g ⟨List.mem_cons_self, hp⟩) (Nat.not_le.2 (hg f hm))
    · have hcons : ∀ h, h ∈ l ∧ p h = true ↔ h ∈ g :: l ∧ p h = true := by
        intro h
        rw [List.mem_cons]
        constructor
        · exact fun ⟨hm, hh⟩ => ⟨Or.inr hm, hh⟩
        · rintro ⟨rfl | hm, hh⟩
          · exact absurd hh hp
          · exact ⟨hm, hh⟩
      rw [List.find?_cons_of_neg hp, ih hl]
      exact ⟨.of_iff hcons, .of_iff fun h => (hcons h).symm⟩

end Feature

namespace Target

theorem ofFeatures_eq_error_iff {a : Arch} {s : FeatureSet} {e : TargetError} :
    ofFeatures a s = .error e ↔
      ∃ f, Feature.First (fun g => s.contains g = true ∧ g.arch ≠ a) f ∧
        e = .foreignFeature f a := by
  have hfind : ∀ f, s.toList.find? (fun g => g.arch ≠ a) = some f ↔
      Feature.First (fun g => s.contains g = true ∧ g.arch ≠ a) f := by
    intro f
    simp only [Feature.find?_eq_some_iff_first s.pairwise_toList, FeatureSet.mem_toList,
      decide_eq_true_eq]
  simp only [← hfind, ofFeatures]
  cases s.toList.find? (fun g => g.arch ≠ a) <;> simp [eq_comm]

theorem ofFeatures_ofList_of_forall {a : Arch} {fs : List Feature} (h : ∀ f ∈ fs, f.arch = a) :
    ofFeatures a (.ofList fs) = .ok { arch := a, features := .ofList fs } :=
  ofFeatures_eq_ok_iff.2 ⟨rfl, fun f hf => h f (FeatureSet.contains_ofList.1 hf)⟩

/-- Why a text is no target. Of several reasons the first one counts: segments are looked at in
the order of the text, but foreign features in the order of their declaration. -/
inductive Refused (s : List Char) : TargetError → Prop where
  | empty (hs : Blank s) : Refused s .empty
  | unknownArch {head name : List Char} {ps : List (List Char)} (hs : ¬ Blank s)
      (hl : Layout s head ps) (ha : ∀ a : Arch, ¬ a.Spells head) (hn : Pads head name) :
      Refused s (.unknownArch (String.ofList (foldCase name)))
  | unknownFeature {a : Arch} {head p name : List Char} {before after : List (List Char)}
      (hl : Layout s head (before ++ p :: after)) (ha : a.Spells head)
      (hb : ∀ q ∈ before, Blank q ∨ ∃ f : Feature, f.Spells q) (hp : ¬ Blank p)
      (hf : ∀ f : Feature, ¬ f.Spells p) (hn : Pads p name) :
      Refused s (.unknownFeature (String.ofList name))
  | foreignFeature {a : Arch} {head : List Char} {ps : List (List Char)} {f : Feature}
      (hl : Layout s head ps) (ha : a.Spells head)
      (hs : ∀ p ∈ ps, Blank p ∨ ∃ g : Feature, g.Spells p)
      (hf : Feature.First (fun g => (∃ p ∈ ps, g.Spells p) ∧ g.arch ≠ a) f) :
      Refused s (.foreignFeature f a)

theorem listOfChars_getD_eq_error_iff {list : Option (List Char)} {e : TargetError} :
    Feature.listOfChars (list.getD []) = .error e ↔ ∃ before p after,
      segments list = before ++ p :: after ∧ (∀ q ∈ before, Blank q ∨ ∃ f : Feature, f.Spells q) ∧
      ¬ Blank p ∧ (∀ f : Feature, ¬ f.Spells p) ∧ e = .unknownFeature (String.ofList (trim p)) := by
  cases list with
  | some l => exact Feature.listOfChars_eq_error_iff
  | none =>
    have hok : Feature.listOfChars [] = .ok [] := rfl
    simp [hok, segments]

theorem refused_of_ofChars {s : List Char} {e : TargetError} (h : ofChars s = .error e) :
    Refused s e := by
  have hl := layout_cut s
  obtain ⟨hs, rfl⟩ | ⟨hs, ha | ⟨a, ha, hf | ⟨fs, hfs, ht⟩⟩⟩ := ofChars_eq_error_iff.1 h
  · exact .empty (trim_eq_nil_iff.1 hs)
  · obtain ⟨hnone, rfl⟩ := Arch.ofChars_eq_error_iff.1 ha
    exact .unknownArch (mt trim_eq_nil_iff.2 hs) hl hnone (pads_trim _)
  · obtain ⟨before, p, after, hps, hb, hp, hnone, rfl⟩ := listOfChars_getD_eq_error_iff.1 hf
    rw [hps] at hl
    exact .unknownFeature hl (Arch.ofChars_eq_ok_iff.1 ha) hb hp hnone (pads_trim p)
  · obtain ⟨f, hfirst, rfl⟩ := ofFeatures_eq_error_iff.1 ht
    have hmem := contains_listOfChars_getD hfs
    exact .foreignFeature hl (Arch.ofChars_eq_ok_iff.1 ha)
      (exists_listOfChars_getD_iff.1 ⟨fs, hfs⟩)
      (hfirst.of_iff fun g => and_congr_left fun _ => hmem g)

theorem Refused.ofChars_eq {s : List Char} {e : TargetError} (h : Refused s e) :
    ofChars s = .error e := by
  rw [ofChars_eq_error_iff]
  cases h with
  | empty hs => exact Or.inl ⟨trim_eq_nil_iff.2 hs, rfl⟩
  | unknownArch hs hl ha hn =>
    obtain ⟨rfl, -⟩ := hl.eq_cut
    rw [← trim_of_pads hn]
    exact Or.inr ⟨mt trim_eq_nil_iff.1 hs, Or.inl (Arch.ofChars_eq_error_iff.2 ⟨ha, rfl⟩)⟩
  | unknownFeature hl ha hb hp hf hn =>
    have hs := hl.trim_ne_nil ha
    obtain ⟨rfl, hps⟩ := hl.eq_cut
    have he := listOfChars_getD_eq_error_iff.2 ⟨_, _, _, hps.symm, hb, hp, hf, rfl⟩
    rw [← trim_of_pads hn]
    exact Or.inr ⟨hs, Or.inr ⟨_, Arch.ofChars_eq_ok_iff.2 ha, Or.inl he⟩⟩
  | foreignFeature hl ha hps hf =>
    have hs := hl.trim_ne_nil ha
    obtain ⟨rfl, rfl⟩ := hl.eq_cut
    obtain ⟨fs, hfs⟩ := exists_listOfChars_getD_iff.2 hps
    have hmem := contains_listOfChars_getD hfs
    have he := ofFeatures_eq_error_iff.2
      ⟨_, hf.of_iff fun g => and_congr_left fun _ => (hmem g).symm, rfl⟩
    exact Or.inr ⟨hs, Or.inr ⟨_, Arch.ofChars_eq_ok_iff.2 ha, Or.inr ⟨fs, hfs, he⟩⟩⟩

/-- A text that is no target is refused for the first reason there is, and for no other. -/
theorem ofText_eq_error_iff (s : String) :
    (∀ e, ofText s = .error e ↔ Refused s.toList e) ∧
    (ofText s = .error .empty ↔ Blank s.toList) ∧
    ((∃ t, ofText s = .ok t) ∨ ∃ e, Refused s.toList e) ∧
    (∀ e e', Refused s.toList e → Refused s.toList e' → e = e') ∧
    ∀ shown, ofText s ≠ .error (.notUtf8 shown) := by
  have hiff : ∀ e, ofText s = .error e ↔ Refused s.toList e :=
    fun e => ⟨refused_of_ofChars, Refused.ofChars_eq⟩
  refine ⟨hiff, ?_, ?_, ?_, ?_⟩
  · rw [hiff]
    exact ⟨fun h => by cases h; assumption, .empty⟩
  · cases ht : ofText s with
    | ok t => exact Or.inl ⟨t, rfl⟩
    | error e => exact Or.inr ⟨e, (hiff e).1 ht⟩
  · intro e e' h h'
    exact Except.error.inj (h.ofChars_eq.symm.trans h'.ofChars_eq)
  · intro shown h
    cases (hiff _).1 h

example : ofText "arm64+avx2,neon,AVX7 ,bogus" = .error (.unknownFeature "AVX7") := by decide

example : ofText "x86-64+lse,avx2,neon" = .error (.foreignFeature .asimd .x86_64) := by decide

end Target

end NodeCost
