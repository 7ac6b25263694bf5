import NodeCost.Proofs.Document.Description
import NodeCost.Proofs.Target.Validity

namespace NodeCost

open Json

namespace Document

theorem nameList_map_toJson (fs : List Feature) : NameList (fs.map Feature.toJson) fs := by
  induction fs with
  | nil => exact .nil
  | cons f fs ih =>
    have hname : f.toJson.Names f.name := f.tag_eq_name ▸ .plain f.tag
    exact .cons hname ih

theorem lists_toJson (s : FeatureSet) : s.toJson.Lists s.toList :=
  .array (nameList_map_toJson s.toList)

theorem describes_toJson (t : Target) : t.toJson.Describes t.arch t.features.toList :=
  .object rfl (t.arch.tag_eq_name ▸ .plain t.arch.tag) rfl (lists_toJson t.features)

theorem number_not_mem_items (n : Numeral) (fs : List Feature) :
    Token.number n ∉ itemTokens (fs.map Feature.toJson) := by
  induction fs with
  | nil => simp [itemTokens]
  | cons f fs ih => simp [itemTokens_cons, Feature.toJson, tokens, ih]

theorem number_not_mem_featureSet (n : Numeral) (s : FeatureSet) :
    Token.number n ∉ s.toJson.tokens := by
  have h := number_not_mem_items n s.toList
  rw [FeatureSet.toJson, tokens]
  intro hn
  simp only [List.cons_append, List.mem_cons, List.mem_append, List.not_mem_nil, or_false,
    reduceCtorEq, false_or] at hn
  exact h (List.mem_of_mem_tail hn)

theorem number_not_mem_target (n : Numeral) (t : Target) : Token.number n ∉ t.toJson.tokens := by
  have h := number_not_mem_featureSet n t.features
  simp [Target.toJson, tokens_object_cons, memberTokens, Arch.toJson, tokens, h]

theorem written_featureSet (s : FeatureSet) : s.toJson.Written s.toJson.text :=
  written_text fun n hn => absurd hn (number_not_mem_featureSet n s)

theorem written_target (t : Target) : t.toJson.Written t.toJson.text :=
  written_text fun n hn => absurd hn (number_not_mem_target n t)

end Document

theorem FeatureSet.ofJson_of_written {s : FeatureSet} {d : String} (hd : s.toJson.Written d) :
    ofJson d = .ok s := by
  rw [ofJson, Document.read_eq_ok_iff, hd.scan_eq, Document.takeFeatureSet_all]
  exact ⟨s.toList, Document.lists_toJson s, ofList_toList s⟩

namespace Target

theorem ofJson_of_written {t : Target} (ht : t.Valid) {d : String} (hd : t.toJson.Written d) :
    ofJson d = .ok t := by
  rw [ofJson_of_describes hd (Document.describes_toJson t), FeatureSet.ofList_toList,
    ofFeatures_eq_ok_iff.2 ⟨rfl, ht⟩]
  rfl

/-- What is written for a target or for a set of features reads back as what was written, with any
blanks and escapes. So the texts of accepted documents tell their targets apart. -/
theorem ofJson_toJson :
    (∀ t : Target, t.Valid → ofJson t.toJson.text = .ok t ∧
      ∀ d, t.toJson.Written d → ofJson d = .ok t) ∧
    (∀ s : FeatureSet, FeatureSet.ofJson s.toJson.text = .ok s ∧
      ∀ d, s.toJson.Written d → FeatureSet.ofJson d = .ok s) ∧
    (∀ (d : String) (t : Target), ofJson d = .ok t →
      (ofJson t.toJson.text).map (fun u => u.toJson.text) = .ok t.toJson.text) ∧
    ∀ (d e : String) (t u : Target), ofJson d = .ok t → ofJson e = .ok u →
      (t = u ↔ t.toJson.text = u.toJson.text) := by
  have hread : ∀ t : Target, t.Valid → ofJson t.toJson.text = .ok t := fun t ht =>
    ofJson_of_written ht (Document.written_target t)
  refine ⟨fun t ht => ⟨hread t ht, fun d => ofJson_of_written ht⟩, fun s => ⟨?_, ?_⟩, ?_, ?_⟩
  · exact FeatureSet.ofJson_of_written (Document.written_featureSet s)
  · exact fun d => FeatureSet.ofJson_of_written
  · intro d t ht
    rw [hread t (valid_of_ofJson ht)]
    rfl
  · intro d e t u ht hu
    constructor
    · exact fun h => congrArg (fun t : Target => t.toJson.text) h
    · intro h
      have htu := hread t (valid_of_ofJson ht)
      rw [h, hread u (valid_of_ofJson hu)] at htu
      exact (Except.ok.inj htu).symm

theorem ofJson_toJson_of_repeated_feature :
    let t : Target := { arch := .aarch64, features := .ofList [.lse, .asimd] }
    let d := "[\"aarch64\",[\"lse\",\"asimd\",\"lse\"]]"
    let e := "\x7b\"arch\":\"aarch64\",\"features\":[\"asimd\",\"lse\"]\x7d"
    t.Valid ∧ t.toJson.text = e ∧ ofJson d = .ok t ∧ ofJson e = .ok t ∧
      FeatureSet.ofJson t.features.toJson.text = .ok t.features ∧
      (ofJson e).map (fun u => u.toJson.text) = .ok e := by
  intro t d e
  have hv : t.Valid := by decide
  have ht : t.toJson.text = e := by decide
  obtain ⟨hread, hset, hfixed, -⟩ := ofJson_toJson
  have hd : (Json.array [.string "aarch64",
      .array [.string "lse", .string "asimd", .string "lse"]]).Written d :=
    written_text fun n hn => by simp [tokens, itemTokens] at hn
  have hdescribes : (Json.array [.string "aarch64",
      .array [.string "lse", .string "asimd", .string "lse"]]).Describes .aarch64
        [.lse, .asimd, .lse] :=
    .array (.plain "aarch64")
      (.array (.cons (.plain "lse") (.cons (.plain "asimd") (.cons (.plain "lse") .nil))))
  have hj : ofJson d = .ok t := ofJson_of_describes hd hdescribes
  exact ⟨hv, ht, hj, ht ▸ (hread t hv).1, (hset t.features).1, ht ▸ hfixed d t hj⟩

end Target

end NodeCost
