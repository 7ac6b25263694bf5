import NodeCost.Document.Basic
import NodeCost.Proofs.Document.Members
import NodeCost.Proofs.Json.Writer
import NodeCost.Proofs.Target.Admission
import NodeCost.Proofs.Target.RoundTrip

namespace NodeCost

open Json

namespace Json

def known (members : List (String × Json)) : List (String × Json) :=
  members.filter fun m => m.1 = "arch" ∨ m.1 = "features"

/-- The value describes a target. An object does so by one member for the architecture and at most
one for the features, wherever they stand among others, and an array by the same one or two
values. -/
inductive Describes : Json → Arch → List Feature → Prop where
  | object {members : List (String × Json)} {v w : Json} {a : Arch} {fs : List Feature}
      (harch : valuesOf "arch" members = [v]) (hv : v.Names a.name)
      (hfeatures : valuesOf "features" members = [w]) (hw : w.Lists fs) :
      Describes (.object members) a fs
  | bareObject {members : List (String × Json)} {v : Json} {a : Arch}
      (harch : valuesOf "arch" members = [v]) (hv : v.Names a.name)
      (hfeatures : valuesOf "features" members = []) : Describes (.object members) a []
  | array {v w : Json} {a : Arch} {fs : List Feature} (hv : v.Names a.name) (hw : w.Lists fs) :
      Describes (.array [v, w]) a fs
  | bareArray {v : Json} {a : Arch} (hv : v.Names a.name) : Describes (.array [v]) a []

theorem valuesOf_known {key : String} (hkey : key = "arch" ∨ key = "features")
    (members : List (String × Json)) : valuesOf key (known members) = valuesOf key members := by
  rw [valuesOf, valuesOf, known, List.filter_filter]
  apply congrArg (List.map Prod.snd)
  apply List.filter_congr
  intro m _
  by_cases hm : m.1 = key
  · simp [hm, hkey]
  · simp [hm]

theorem perm_valuesOf {key : String} (hkey : key = "arch" ∨ key = "features")
    {members members' : List (String × Json)} (h : (known members).Perm (known members')) :
    (valuesOf key members).Perm (valuesOf key members') := by
  rw [← valuesOf_known hkey members, ← valuesOf_known hkey members']
  exact (h.filter _).map _

theorem Describes.of_perm {members members' : List (String × Json)} {a : Arch}
    {fs : List Feature} (hd : Describes (.object members) a fs)
    (h : (known members).Perm (known members')) : Describes (.object members') a fs := by
  have ha := perm_valuesOf (Or.inl rfl) h.symm
  have hf := perm_valuesOf (Or.inr rfl) h.symm
  cases hd with
  | object harch hv hfeatures hw =>
    rw [harch, List.perm_singleton] at ha
    rw [hfeatures, List.perm_singleton] at hf
    exact .object ha hv hf hw
  | bareObject harch hv hfeatures =>
    rw [harch, List.perm_singleton] at ha
    rw [hfeatures, List.perm_nil] at hf
    exact .bareObject ha hv hf

end Json

namespace Document

theorem Gathers.exists_describes {v : Json} {parts : Parts} {a : Arch} (h : Gathers v parts)
    (ha : parts.arch? = some a) :
    ∃ fs, v.Describes a fs ∧ parts.features?.getD ∅ = .ofList fs := by
  cases h with
  | object hc =>
    obtain ⟨-, hn⟩ | ⟨v, b, hv, -, hb, hname⟩ := hc.arch
    · cases hn.symm.trans ha
    · cases hb.symm.trans ha
      obtain ⟨hw, hf⟩ | ⟨w, _, hw, -, hf, fs, hlists, rfl⟩ := hc.features
      · exact ⟨[], .bareObject hv hname hw, by rw [hf]; rfl⟩
      · exact ⟨fs, .object hv hname hw hlists, by rw [hf]; rfl⟩
  | single hv =>
    cases ha
    exact ⟨[], .bareArray hv, rfl⟩
  | pair hv hw =>
    cases ha
    exact ⟨_, .array hv hw, rfl⟩

theorem exists_gathers {v : Json} {a : Arch} {fs : List Feature} (h : v.Describes a fs) :
    ∃ parts, Gathers v parts ∧
      parts.target = (Target.ofFeatures a (.ofList fs)).mapError .refused := by
  cases h with
  | @object members v w a fs harch hv hfeatures hw =>
    refine ⟨⟨some a, some (.ofList fs)⟩, .object ⟨?_, ?_⟩, rfl⟩
    · rw [harch]
      exact fills_singleton.2 ⟨rfl, a, hv, rfl⟩
    · rw [hfeatures]
      exact fills_singleton.2 ⟨rfl, _, ⟨fs, hw, rfl⟩, rfl⟩
  | @bareObject members v a harch hv hfeatures =>
    refine ⟨⟨some a, none⟩, .object ⟨?_, ?_⟩, rfl⟩
    · rw [harch]
      exact fills_singleton.2 ⟨rfl, a, hv, rfl⟩
    · rw [hfeatures]
      exact fills_nil.2 rfl
  | array hv hw => exact ⟨_, .pair hv hw, rfl⟩
  | bareArray hv => exact ⟨_, .single hv, rfl⟩

end Document

namespace Target

theorem ofJson_eq_ok_iff_gathers {v : Json} {d : String} (hd : v.Written d) {t : Target} :
    ofJson d = .ok t ↔ ∃ parts, Document.Gathers v parts ∧ parts.target = .ok t := by
  rw [ofJson, Document.read_eq_ok_iff, hd.scan_eq, Document.takeTarget_eq_ok_iff]
  apply exists_congr
  intro parts
  rw [Document.takeParts_all]

theorem ofJson_of_describes {v : Json} {d : String} (hd : v.Written d) {a : Arch}
    {fs : List Feature} (h : v.Describes a fs) :
    ofJson d = (ofFeatures a (.ofList fs)).mapError .refused := by
  obtain ⟨parts, hg, hp⟩ := Document.exists_gathers h
  rw [ofJson, Document.read, hd.scan_eq, Document.takeTarget, Document.takeParts_all.2 hg, ← hp]
  change ((parts.target.map fun t => (t, [])).bind fun p => _) = _
  cases parts.target <;> rfl

theorem exists_describes_of_ofJson {v : Json} {d : String} (hd : v.Written d) {t : Target}
    (h : ofJson d = .ok t) : ∃ fs, v.Describes t.arch fs ∧ ∀ f ∈ fs, f.arch = t.arch := by
  obtain ⟨parts, hg, hp⟩ := (ofJson_eq_ok_iff_gathers hd).1 h
  obtain ⟨a, ha, ht⟩ := Document.Parts.target_eq_ok_iff.1 hp
  obtain ⟨fs, hfs, hs⟩ := hg.exists_describes ha
  rw [hs] at ht
  obtain ⟨rfl, hv⟩ := ofFeatures_eq_ok_iff.1 ht
  exact ⟨fs, hfs, fun f hf => hv f (FeatureSet.contains_ofList.2 hf)⟩

theorem exists_foreign_of_mem {a : Arch} {fs : List Feature} {g : Feature} (hg : g ∈ fs)
    (ha : g.arch ≠ a) :
    ∃ f ∈ fs, f.arch ≠ a ∧ ofFeatures a (.ofList fs) = .error (.foreignFeature f a) := by
  have hverdict := verdict_ofFeatures a fs
  generalize ofFeatures a (.ofList fs) = r at hverdict ⊢
  cases hverdict with
  | accepted hfs => exact absurd (hfs g hg) ha
  | refused hf => exact ⟨_, hf.holds.1, hf.holds.2, rfl⟩

theorem ofJson_eq_ok_of_perm {members members' : List (String × Json)} {d d' : String}
    (hd : (Json.object members).Written d) (hd' : (Json.object members').Written d')
    (h : (known members).Perm (known members')) {t : Target} (ht : ofJson d = .ok t) :
    ofJson d' = .ok t := by
  obtain ⟨fs, hfs, -⟩ := exists_describes_of_ofJson hd ht
  rw [ofJson_of_describes hd' (hfs.of_perm h), ← ofJson_of_describes hd hfs, ht]

/-- Documents are targets by their descriptions alone, and a described target reads as the check of
its parts answers, which is also how the text with these parts reads. -/
theorem ofJson_described :
    (∀ (v : Json) (d : String), v.Written d →
      ((∃ t, ofJson d = .ok t) ↔ ∃ a fs, v.Describes a fs ∧ ∀ f ∈ fs, f.arch = a)) ∧
    (∀ (a : Arch) (fs : List Feature),
      ofText (a.name ++ "+" ++ Feature.listText fs) = ofFeatures a (.ofList fs) ∧
      ∀ (v : Json) (d : String), v.Written d → v.Describes a fs →
        ofJson d = (ofFeatures a (.ofList fs)).mapError .refused ∧
        ((∀ f ∈ fs, f.arch = a) → ofJson d = .ok { arch := a, features := .ofList fs })) ∧
    (∀ (a : Arch) (fs : List Feature), (∃ g ∈ fs, g.arch ≠ a) → ∃ f ∈ fs, f.arch ≠ a ∧
      ofFeatures a (.ofList fs) = .error (.foreignFeature f a) ∧
      ofText (a.name ++ "+" ++ Feature.listText fs) = .error (.foreignFeature f a) ∧
      (∀ (v : Json) (d : String), v.Written d → v.Describes a fs →
        ofJson d = .error (.refused (.foreignFeature f a))) ∧
      DocumentError.message (.refused (.foreignFeature f a)) =
        TargetError.message (.foreignFeature f a)) ∧
    ∀ (members members' : List (String × Json)) (d d' : String),
      (Json.object members).Written d → (Json.object members').Written d' →
      (known members).Perm (known members') →
      (∀ t, ofJson d = .ok t ↔ ofJson d' = .ok t) ∧
      ∀ a fs, (Json.object members).Describes a fs →
        (Json.object members').Describes a fs ∧ ofJson d = ofJson d' := by
  refine ⟨?_, ?_, ?_, ?_⟩
  · intro v d hd
    constructor
    · rintro ⟨t, ht⟩
      exact ⟨t.arch, exists_describes_of_ofJson hd ht⟩
    · rintro ⟨a, fs, h, hfs⟩
      rw [ofJson_of_describes hd h, ofFeatures_ofList_of_forall hfs]
      exact ⟨_, rfl⟩
  · intro a fs
    refine ⟨ofText_name_listText a fs, fun v d hd h => ⟨ofJson_of_describes hd h, ?_⟩⟩
    intro hfs
    rw [ofJson_of_describes hd h, ofFeatures_ofList_of_forall hfs]
    rfl
  · rintro a fs ⟨g, hg, ha⟩
    obtain ⟨f, hf, hfa, he⟩ := exists_foreign_of_mem hg ha
    refine ⟨f, hf, hfa, he, ?_, ?_, rfl⟩
    · rw [ofText_name_listText, he]
    · intro v d hd h
      rw [ofJson_of_describes hd h, he]
      rfl
  · intro members members' d d' hd hd' h
    refine ⟨fun t => ⟨ofJson_eq_ok_of_perm hd hd' h, ofJson_eq_ok_of_perm hd' hd h.symm⟩, ?_⟩
    intro a fs hfs
    have hfs' := hfs.of_perm h
    exact ⟨hfs', by rw [ofJson_of_describes hd hfs, ofJson_of_describes hd' hfs']⟩

theorem written_escaped_key :
    (Json.object [("note", .number ⟨true, [1], [5], some 3⟩),
      ("arch", .object [("x86_64", .null)])]).Written
      "\x7b \"note\":-1.5e3,\"\\u0061rch\" :\x7b\"x86_64\":null\x7d\x7d" := by
  have hnote := spelled_flatMap_escapeChar ['n', 'o', 't', 'e']
  have ha : hexQuad? '0' '0' '6' '1' = some 97 := by decide
  have harch := Spelled.code ha (by decide) (spelled_flatMap_escapeChar ['r', 'c', 'h'])
  have hname := spelled_flatMap_escapeChar ['x', '8', '6', '_', '6', '4']
  have hnumber : Numeral.Written ⟨true, [1], [5], some 3⟩ ['-', '1', '.', '5', 'e', '3'] :=
    .negative (.positive (by decide)) (.digits (by decide))
      (.power (Or.inl rfl) (.unsigned (List.cons_ne_nil 3 [])))
  refine .cons blanks_nil .openObject ?_
  refine .cons (b := [' ']) (by decide) (.string hnote) (.cons blanks_nil .colon ?_)
  refine .cons blanks_nil (.number hnumber) (.cons blanks_nil .comma ?_)
  refine .cons blanks_nil (.string harch) (.cons (b := [' ']) (by decide) .colon ?_)
  refine .cons blanks_nil .openObject (.cons blanks_nil (.string hname) ?_)
  refine .cons blanks_nil .colon (.cons blanks_nil .null ?_)
  exact .cons blanks_nil .closeObject (.cons blanks_nil .closeObject (.nil blanks_nil))

theorem ofJson_described_of_escaped_key :
    let d := "\x7b \"note\":-1.5e3,\"\\u0061rch\" :\x7b\"x86_64\":null\x7d\x7d"
    let d' := "[\"x86_64\",[\"lse\",\"sse\"]]"
    (∃ v : Json, v.Written d ∧ v.Describes .x86_64 []) ∧ ofJson d = .ok { arch := .x86_64 } ∧
    (∃ w : Json, w.Written d' ∧ w.Describes .x86_64 [.lse, .sse]) ∧
      ofJson d' = .error (.refused (.foreignFeature .lse .x86_64)) ∧
      ofText "x86_64+lse,sse" = .error (.foreignFeature .lse .x86_64) := by
  intro d d'
  have hd := written_escaped_key
  have hv : (Json.object [("note", .number ⟨true, [1], [5], some 3⟩),
      ("arch", .object [("x86_64", .null)])]).Describes .x86_64 [] :=
    .bareObject rfl (.keyed "x86_64") rfl
  have hd' : (Json.array [.string "x86_64", .array [.string "lse", .string "sse"]]).Written d' :=
    written_text fun n hn => by simp [tokens, itemTokens] at hn
  have hw : (Json.array [.string "x86_64", .array [.string "lse", .string "sse"]]).Describes
      .x86_64 [.lse, .sse] :=
    .array (.plain "x86_64") (.array (.cons (.plain "lse") (.cons (.plain "sse") .nil)))
  obtain ⟨-, hread, hforeign, -⟩ := ofJson_described
  obtain ⟨f, hf, hne, -, ht, hj, -⟩ := hforeign .x86_64 [.lse, .sse] ⟨.lse, by decide, by decide⟩
  have honly : ∀ f ∈ [Feature.lse, .sse], f.arch ≠ .x86_64 → f = .lse := by decide
  cases honly f hf hne
  refine ⟨⟨_, hd, hv⟩, ?_, ⟨_, hd', hw⟩, hj _ d' hd' hw, ht⟩
  exact ((hread .x86_64 []).2 _ d hd hv).2 fun f hf => absurd hf List.not_mem_nil

end Target

end NodeCost
