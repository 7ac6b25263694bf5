import Mathlib.Data.List.Forall2
import NodeCost.Document.Read
import NodeCost.Proofs.Json.Value
import NodeCost.Proofs.Target.Word

namespace NodeCost

open Json

namespace Json

/-- The value is a name: it stands alone or is the only key of an object that holds null. -/
inductive Names : Json → String → Prop where
  | plain (s : String) : Names (.string s) s
  | keyed (s : String) : Names (.object [(s, .null)]) s

def NameList (items : List Json) (fs : List Feature) : Prop :=
  List.Forall₂ (fun v (f : Feature) => Names v f.name) items fs

inductive Lists : Json → List Feature → Prop where
  | array {items : List Json} {fs : List Feature} (h : NameList items fs) : Lists (.array items) fs

end Json

namespace Document

theorem lookupArch_eq_ok_iff {s : String} {a : Arch} : lookupArch s = .ok a ↔ a.name = s := by
  simp only [lookupArch, Arch.tag_eq_name]
  rw [← Text.find?_eq_some_iff_of_injective Arch.name_injective Arch.mem_all]
  cases Arch.all.find? (·.name == s) <;> simp

theorem lookupFeature_eq_ok_iff {s : String} {f : Feature} :
    lookupFeature s = .ok f ↔ f.name = s := by
  simp only [lookupFeature, Feature.tag_eq_name]
  rw [← Text.find?_eq_some_iff_of_injective Feature.name_injective Feature.mem_all]
  cases Feature.all.find? (·.name == s) <;> simp

theorem takeNothing_tokens {v : Json} {members : List (String × Json)} {r r' : List Token} :
    takeNothing (.colon :: (v.tokens ++ (memberTokens members ++ .closeObject :: r))) = .ok r' ↔
      v = .null ∧ members = [] ∧ r' = r := by
  cases v with
  | null =>
    cases members with
    | nil => simp [tokens, memberTokens, takeNothing, eq_comm]
    | cons m members => simp [tokens, memberTokens_cons m.1, takeNothing]
  | _ => simp [tokens, takeNothing]

theorem takeName_tokens {α : Type} {lookup : String → Except DocumentError α} {v : Json}
    {a : α} {r r' : List Token} :
    takeName lookup (v.tokens ++ r) = .ok (a, r') ↔
      (∃ s, v.Names s ∧ lookup s = .ok a) ∧ r' = r := by
  cases v with
  | string s =>
    have htake : takeName lookup (tokens (.string s) ++ r) = (lookup s).map fun a => (a, r) := by
      rw [tokens]
      rfl
    rw [htake, map_eq_ok]
    constructor
    · rintro ⟨b, hb, he⟩
      cases he
      exact ⟨⟨s, .plain s, hb⟩, rfl⟩
    · rintro ⟨⟨t, ht, ha⟩, rfl⟩
      cases ht
      exact ⟨a, ha, rfl⟩
  | object members =>
    cases members with
    | nil =>
      rw [tokens_object_nil]
      constructor
      · intro h
        cases h
      · rintro ⟨⟨s, hs, -⟩, -⟩
        cases hs
    | cons m members =>
      obtain ⟨k, v⟩ := m
      have htake : takeName lookup (tokens (.object ((k, v) :: members)) ++ r) =
          (lookup k).bind fun a => (takeNothing (.colon ::
            (v.tokens ++ (memberTokens members ++ .closeObject :: r)))).map fun r => (a, r) := by
        rw [tokens_object_cons]
        simp only [List.cons_append, List.append_assoc, List.nil_append]
        rfl
      rw [htake, bind_eq_ok]
      constructor
      · rintro ⟨b, hb, h⟩
        obtain ⟨r'', hr, he⟩ := map_eq_ok.1 h
        obtain ⟨rfl, rfl, rfl⟩ := takeNothing_tokens.1 hr
        cases he
        exact ⟨⟨k, .keyed k, hb⟩, rfl⟩
      · rintro ⟨⟨s, hs, ha⟩, rfl⟩
        cases hs
        exact ⟨a, ha, map_eq_ok.2 ⟨r', takeNothing_tokens.2 ⟨rfl, rfl, rfl⟩, rfl⟩⟩
  | null | bool | number | array =>
    rw [tokens]
    constructor
    · intro h
      cases h
    · rintro ⟨⟨s, hs, -⟩, -⟩
      cases hs

theorem takeArch_tokens {v : Json} {a : Arch} {r r' : List Token} :
    takeArch (v.tokens ++ r) = .ok (a, r') ↔ v.Names a.name ∧ r' = r := by
  rw [takeArch, takeName_tokens]
  simp only [lookupArch_eq_ok_iff, exists_eq_right']

theorem takeFeature_tokens {v : Json} {f : Feature} {r r' : List Token} :
    takeFeature (v.tokens ++ r) = .ok (f, r') ↔ v.Names f.name ∧ r' = r := by
  rw [takeFeature, takeName_tokens]
  simp only [lookupFeature_eq_ok_iff, exists_eq_right']

theorem takeFeatures_tokens {v : Json} {items : List Json} {fs : List Feature}
    {r r' : List Token} :
    takeFeatures (v.tokens ++ (itemTokens items ++ .closeArray :: r)) = .ok (fs, r') ↔
      NameList (v :: items) fs ∧ r' = r := by
  induction items generalizing v fs r' with
  | nil =>
    rw [itemTokens, List.nil_append]
    constructor
    · intro h
      rw [takeFeatures] at h
      cases hf : takeFeature (v.tokens ++ .closeArray :: r) with
      | error e =>
        rw [hf] at h
        cases h
      | ok p =>
        obtain ⟨f, r''⟩ := p
        obtain ⟨hv, rfl⟩ := takeFeature_tokens.1 hf
        rw [hf] at h
        cases h
        exact ⟨.cons hv .nil, rfl⟩
    · rintro ⟨h, rfl⟩
      cases h with
      | cons hv hnil =>
        cases hnil
        rw [takeFeatures, takeFeature_tokens.2 ⟨hv, rfl⟩]
  | cons w items ih =>
    rw [itemTokens_cons, List.cons_append, List.append_assoc]
    constructor
    · intro h
      rw [takeFeatures] at h
      cases hf : takeFeature
          (v.tokens ++ .comma :: (w.tokens ++ (itemTokens items ++ .closeArray :: r))) with
      | error e =>
        rw [hf] at h
        cases h
      | ok p =>
        obtain ⟨f, r''⟩ := p
        obtain ⟨hv, rfl⟩ := takeFeature_tokens.1 hf
        rw [hf] at h
        obtain ⟨⟨gs, r''⟩, hgs, he⟩ := map_eq_ok.1 h
        obtain ⟨hw, rfl⟩ := ih.1 hgs
        cases he
        exact ⟨.cons hv hw, rfl⟩
    · rintro ⟨h, rfl⟩
      cases h with
      | cons hv hw =>
        rw [takeFeatures, takeFeature_tokens.2 ⟨hv, rfl⟩]
        exact map_eq_ok.2 ⟨_, ih.2 ⟨hw, rfl⟩, rfl⟩

theorem takeFeatureSet_tokens {v : Json} {s : FeatureSet} {r r' : List Token} :
    takeFeatureSet (v.tokens ++ r) = .ok (s, r') ↔
      (∃ fs, v.Lists fs ∧ .ofList fs = s) ∧ r' = r := by
  cases v with
  | array items =>
    cases items with
    | nil =>
      rw [tokens_array_nil]
      constructor
      · intro h
        cases h
        exact ⟨⟨[], .array .nil, rfl⟩, rfl⟩
      · rintro ⟨⟨fs, hfs, rfl⟩, rfl⟩
        cases hfs with
        | array h =>
          cases h
          rfl
    | cons v items =>
      -- No item starts with the closing bracket that would make the list empty.
      obtain ⟨t, ts, hv, ht, -⟩ := exists_tokens_eq_cons v
      have htake : takeFeatureSet (tokens (.array (v :: items)) ++ r) =
          (takeFeatures (v.tokens ++ (itemTokens items ++ .closeArray :: r))).map
            fun p => (.ofList p.1, p.2) := by
        rw [tokens_array_cons, hv]
        simp only [List.cons_append, List.append_assoc, List.nil_append]
        exact takeFeatureSet_openArray ht _
      rw [htake, map_eq_ok]
      constructor
      · rintro ⟨⟨fs, r''⟩, hfs, he⟩
        obtain ⟨hnames, rfl⟩ := takeFeatures_tokens.1 hfs
        cases he
        exact ⟨⟨fs, .array hnames, rfl⟩, rfl⟩
      · rintro ⟨⟨fs, hfs, rfl⟩, rfl⟩
        cases hfs with
        | array hnames => exact ⟨(fs, r'), takeFeatures_tokens.2 ⟨hnames, rfl⟩, rfl⟩
  | null | bool | number | string | object =>
    rw [tokens]
    constructor
    · intro h
      cases h
    · rintro ⟨⟨fs, hfs, -⟩, -⟩
      cases hfs

theorem takeFeatureSet_all {v : Json} {s : FeatureSet} :
    takeFeatureSet v.tokens = .ok (s, []) ↔ ∃ fs, v.Lists fs ∧ .ofList fs = s := by
  have h : takeFeatureSet (v.tokens ++ []) = .ok (s, []) ↔
      (∃ fs, v.Lists fs ∧ .ofList fs = s) ∧ ([] : List Token) = [] := takeFeatureSet_tokens
  rwa [List.append_nil, and_iff_left rfl] at h

end Document

end NodeCost
