import NodeCost.Proofs.Document.Names

namespace NodeCost

open Json

namespace Json

def valuesOf (key : String) (members : List (String × Json)) : List Json :=
  (members.filter fun m => m.1 = key).map Prod.snd

theorem valuesOf_cons (key : String) (m : String × Json) (members : List (String × Json)) :
    valuesOf key (m :: members) = valuesOf key [m] ++ valuesOf key members := by
  rw [valuesOf, valuesOf, valuesOf, ← List.map_append, ← List.filter_append,
    List.singleton_append]

theorem valuesOf_singleton (key k : String) (v : Json) :
    valuesOf key [(k, v)] = if k = key then [v] else [] := by
  by_cases h : k = key <;> simp [valuesOf, h]

end Json

namespace Document

/-- How the values of a key fill a slot: no value leaves it as it is, one value fills an empty
slot, and more values do not fit. -/
def Fills {α : Type} (R : Json → α → Prop) (before : Option α) (values : List Json)
    (after : Option α) : Prop :=
  (values = [] ∧ after = before) ∨
    ∃ v a, values = [v] ∧ before = none ∧ after = some a ∧ R v a

section

variable {α : Type} {R : Json → α → Prop} {x y : Option α} {v : Json} {vs ws : List Json}

theorem fills_nil : Fills R x [] y ↔ y = x := by
  simp [Fills]

theorem fills_singleton : Fills R x [v] y ↔ x = none ∧ ∃ a, R v a ∧ y = some a := by
  constructor
  · rintro (⟨h, -⟩ | ⟨w, a, hw, hx, hy, hr⟩)
    · cases h
    · cases hw
      exact ⟨hx, a, hr, hy⟩
  · rintro ⟨hx, a, hr, hy⟩
    exact Or.inr ⟨v, a, rfl, hx, hy, hr⟩

theorem fills_append : Fills R x (vs ++ ws) y ↔ ∃ z, Fills R x vs z ∧ Fills R z ws y := by
  constructor
  · rintro (⟨h, hy⟩ | ⟨v, a, h, hx, hy, hr⟩)
    · obtain ⟨rfl, rfl⟩ := List.append_eq_nil_iff.1 h
      exact ⟨x, fills_nil.2 rfl, fills_nil.2 hy⟩
    · obtain ⟨rfl, rfl⟩ | ⟨rfl, rfl⟩ := List.append_eq_singleton_iff.1 h
      · exact ⟨x, fills_nil.2 rfl, fills_singleton.2 ⟨hx, a, hr, hy⟩⟩
      · exact ⟨y, fills_singleton.2 ⟨hx, a, hr, hy⟩, fills_nil.2 rfl⟩
  · rintro ⟨z, ⟨rfl, rfl⟩ | ⟨v, a, rfl, rfl, rfl, hr⟩, h⟩
    · exact h
    · obtain ⟨rfl, rfl⟩ | ⟨_, _, -, hz, -⟩ := h
      · exact Or.inr ⟨v, a, rfl, rfl, rfl, hr⟩
      · cases hz

end

/-- The parts after some more members, of which those with a known key fill their slots. -/
structure Collects (parts : Parts) (members : List (String × Json)) (parts' : Parts) : Prop where
  arch : Fills (fun v (a : Arch) => v.Names a.name) parts.arch? (valuesOf "arch" members)
    parts'.arch?
  features : Fills (fun v s => ∃ fs, v.Lists fs ∧ FeatureSet.ofList fs = s) parts.features?
    (valuesOf "features" members) parts'.features?

theorem collects_nil {parts parts' : Parts} : Collects parts [] parts' ↔ parts = parts' := by
  obtain ⟨x, y⟩ := parts
  obtain ⟨x', y'⟩ := parts'
  constructor
  · rintro ⟨hx, hy⟩
    cases fills_nil.1 hx
    cases fills_nil.1 hy
    rfl
  · intro he
    cases he
    exact ⟨fills_nil.2 rfl, fills_nil.2 rfl⟩

theorem collects_cons {parts parts' : Parts} {m : String × Json}
    {members : List (String × Json)} :
    Collects parts (m :: members) parts' ↔
      ∃ between, Collects parts [m] between ∧ Collects between members parts' := by
  constructor
  · rintro ⟨ha, hf⟩
    rw [valuesOf_cons, fills_append] at ha hf
    obtain ⟨a, ha, ha'⟩ := ha
    obtain ⟨s, hf, hf'⟩ := hf
    exact ⟨⟨a, s⟩, ⟨ha, hf⟩, ⟨ha', hf'⟩⟩
  · rintro ⟨between, ⟨ha, hf⟩, ⟨ha', hf'⟩⟩
    constructor
    · rw [valuesOf_cons, fills_append]
      exact ⟨_, ha, ha'⟩
    · rw [valuesOf_cons, fills_append]
      exact ⟨_, hf, hf'⟩

theorem collects_arch {parts parts' : Parts} {v : Json} :
    Collects parts [("arch", v)] parts' ↔
      parts.arch? = none ∧ ∃ a : Arch, v.Names a.name ∧ { parts with arch? := some a } = parts' := by
  obtain ⟨x, y⟩ := parts
  obtain ⟨x', y'⟩ := parts'
  constructor
  · rintro ⟨ha, hf⟩
    obtain ⟨hx, a, hv, rfl⟩ := fills_singleton.1 ha
    cases fills_nil.1 hf
    exact ⟨hx, a, hv, rfl⟩
  · rintro ⟨hx, a, hv, he⟩
    cases he
    exact ⟨fills_singleton.2 ⟨hx, a, hv, rfl⟩, fills_nil.2 rfl⟩

theorem collects_features {parts parts' : Parts} {v : Json} :
    Collects parts [("features", v)] parts' ↔ parts.features? = none ∧
      ∃ fs, v.Lists fs ∧ { parts with features? := some (.ofList fs) } = parts' := by
  obtain ⟨x, y⟩ := parts
  obtain ⟨x', y'⟩ := parts'
  constructor
  · rintro ⟨ha, hf⟩
    obtain ⟨hy, s, ⟨fs, hv, rfl⟩, rfl⟩ := fills_singleton.1 hf
    cases fills_nil.1 ha
    exact ⟨hy, fs, hv, rfl⟩
  · rintro ⟨hy, fs, hv, he⟩
    cases he
    exact ⟨fills_nil.2 rfl, fills_singleton.2 ⟨hy, _, ⟨fs, hv, rfl⟩, rfl⟩⟩

theorem collects_other {parts parts' : Parts} {key : String} {v : Json} (ha : key ≠ "arch")
    (hf : key ≠ "features") : Collects parts [(key, v)] parts' ↔ parts = parts' := by
  obtain ⟨x, y⟩ := parts
  obtain ⟨x', y'⟩ := parts'
  have harch : valuesOf "arch" [(key, v)] = [] := by rw [valuesOf_singleton, if_neg ha]
  have hfeatures : valuesOf "features" [(key, v)] = [] := by rw [valuesOf_singleton, if_neg hf]
  constructor
  · rintro ⟨hx, hy⟩
    rw [harch] at hx
    rw [hfeatures] at hy
    cases fills_nil.1 hx
    cases fills_nil.1 hy
    rfl
  · intro he
    cases he
    exact ⟨by rw [harch, fills_nil], by rw [hfeatures, fills_nil]⟩

theorem takeMember_tokens {parts parts' : Parts} {key : String} {v : Json}
    {r r' : List Token} :
    takeMember parts key (.colon :: (v.tokens ++ r)) = .ok (parts', r') ↔
      Collects parts [(key, v)] parts' ∧ r' = r := by
  rw [takeMember]
  by_cases ha : key = "arch"
  · subst ha
    rw [if_pos rfl, collects_arch]
    cases hx : parts.arch? with
    | some a => simp
    | none =>
      rw [if_neg (by simp), map_eq_ok]
      constructor
      · rintro ⟨⟨a, r''⟩, ht, he⟩
        obtain ⟨hv, rfl⟩ := takeArch_tokens.1 ht
        cases he
        exact ⟨⟨rfl, a, hv, rfl⟩, rfl⟩
      · rintro ⟨⟨-, a, hv, rfl⟩, rfl⟩
        exact ⟨(a, r'), takeArch_tokens.2 ⟨hv, rfl⟩, rfl⟩
  rw [if_neg ha]
  by_cases hf : key = "features"
  · subst hf
    rw [if_pos rfl, collects_features]
    cases hy : parts.features? with
    | some s => simp
    | none =>
      rw [if_neg (by simp), map_eq_ok]
      constructor
      · rintro ⟨⟨s, r''⟩, ht, he⟩
        obtain ⟨⟨fs, hv, rfl⟩, rfl⟩ := takeFeatureSet_tokens.1 ht
        cases he
        exact ⟨⟨rfl, fs, hv, rfl⟩, rfl⟩
      · rintro ⟨⟨-, fs, hv, rfl⟩, rfl⟩
        exact ⟨(_, r'), takeFeatureSet_tokens.2 ⟨⟨fs, hv, rfl⟩, rfl⟩, rfl⟩
  rw [if_neg hf, collects_other ha hf]
  have hskip : takeSkipped (v.tokens ++ r) = .ok r := by rw [takeSkipped, skip_tokens]
  have htake : (takeColon (.colon :: (v.tokens ++ r))).bind takeSkipped = .ok r := hskip
  rw [htake]
  constructor
  · intro h
    cases h
    exact ⟨rfl, rfl⟩
  · rintro ⟨rfl, rfl⟩
    rfl

theorem takeMembers_tokens {parts parts' : Parts} {key : String} {v : Json}
    {members : List (String × Json)} {r r' : List Token} :
    takeMembers parts (.string (some key) :: .colon ::
      (v.tokens ++ (memberTokens members ++ .closeObject :: r))) = .ok (parts', r') ↔
      Collects parts ((key, v) :: members) parts' ∧ r' = r := by
  -- Every member is read with the parts of those before it.
  induction members generalizing parts key v r' with
  | nil =>
    rw [memberTokens, List.nil_append]
    constructor
    · intro h
      rw [takeMembers] at h
      cases hm : takeMember parts key (.colon :: (v.tokens ++ .closeObject :: r)) with
      | error e =>
        rw [hm] at h
        cases h
      | ok p =>
        obtain ⟨between, r''⟩ := p
        obtain ⟨hc, rfl⟩ := takeMember_tokens.1 hm
        rw [hm] at h
        cases h
        exact ⟨hc, rfl⟩
    · rintro ⟨hc, rfl⟩
      rw [takeMembers, takeMember_tokens.2 ⟨hc, rfl⟩]
  | cons m members ih =>
    obtain ⟨key', w⟩ := m
    rw [memberTokens_cons]
    simp only [List.cons_append, List.append_assoc]
    constructor
    · intro h
      rw [takeMembers] at h
      cases hm : takeMember parts key (.colon :: (v.tokens ++ .comma :: .string (some key') ::
          .colon :: (w.tokens ++ (memberTokens members ++ .closeObject :: r)))) with
      | error e =>
        rw [hm] at h
        cases h
      | ok p =>
        obtain ⟨between, r''⟩ := p
        obtain ⟨hc, rfl⟩ := takeMember_tokens.1 hm
        rw [hm] at h
        obtain ⟨hrest, rfl⟩ := ih.1 h
        exact ⟨collects_cons.2 ⟨between, hc, hrest⟩, rfl⟩
    · rintro ⟨hc, rfl⟩
      obtain ⟨between, hc, hrest⟩ := collects_cons.1 hc
      rw [takeMembers, takeMember_tokens.2 ⟨hc, rfl⟩]
      exact ih.2 ⟨hrest, rfl⟩

/-- What the reader of targets gathers from a value: the members of an object, or the one or two
items of an array. -/
inductive Gathers : Json → Parts → Prop where
  | object {members : List (String × Json)} {parts : Parts} (h : Collects {} members parts) :
      Gathers (.object members) parts
  | single {v : Json} {a : Arch} (hv : v.Names a.name) :
      Gathers (.array [v]) ⟨some a, some ∅⟩
  | pair {v w : Json} {a : Arch} {fs : List Feature} (hv : v.Names a.name) (hw : w.Lists fs) :
      Gathers (.array [v, w]) ⟨some a, some (.ofList fs)⟩

theorem takeSecond_tokens {items : List Json} {s : FeatureSet} {r r' : List Token} :
    takeSecond (itemTokens items ++ .closeArray :: r) = .ok (s, r') ↔
      ((items = [] ∧ ∅ = s) ∨ ∃ w fs, items = [w] ∧ w.Lists fs ∧ .ofList fs = s) ∧ r' = r := by
  cases items with
  | nil => simp [itemTokens, takeSecond, eq_comm]
  | cons w items =>
    rw [itemTokens_cons, List.cons_append, List.append_assoc, takeSecond]
    constructor
    · intro h
      cases hs : takeFeatureSet (w.tokens ++ (itemTokens items ++ .closeArray :: r)) with
      | error e =>
        rw [hs] at h
        cases h
      | ok p =>
        obtain ⟨s', r''⟩ := p
        obtain ⟨⟨fs, hw, rfl⟩, rfl⟩ := takeFeatureSet_tokens.1 hs
        rw [hs] at h
        cases items with
        | nil =>
          rw [itemTokens] at h
          cases h
          exact ⟨Or.inr ⟨w, fs, rfl, hw, rfl⟩, rfl⟩
        | cons x items =>
          rw [itemTokens_cons] at h
          cases h
    · rintro ⟨⟨h, -⟩ | ⟨w', fs, h, hw, rfl⟩, rfl⟩
      · cases h
      · cases h
        rw [takeFeatureSet_tokens.2 ⟨⟨fs, hw, rfl⟩, rfl⟩, itemTokens]
        rfl

theorem takeParts_array_cons (v : Json) (items : List Json) (r : List Token) :
    takeParts (tokens (.array (v :: items)) ++ r) =
      (takeArch (v.tokens ++ (itemTokens items ++ .closeArray :: r))).bind fun p =>
        (takeSecond p.2).map fun q => ({ arch? := some p.1, features? := some q.1 }, q.2) := by
  obtain ⟨t, ts, hv, ht, -⟩ := exists_tokens_eq_cons v
  rw [tokens_array_cons, hv]
  simp only [List.cons_append, List.append_assoc, List.nil_append]
  exact takeParts_openArray ht _

theorem takeParts_tokens {v : Json} {parts : Parts} {r r' : List Token} :
    takeParts (v.tokens ++ r) = .ok (parts, r') ↔ Gathers v parts ∧ r' = r := by
  cases v with
  | object members =>
    have hgathers : Gathers (.object members) parts ↔ Collects {} members parts :=
      ⟨fun h => by cases h; assumption, .object⟩
    rw [hgathers]
    cases members with
    | nil =>
      rw [tokens_object_nil, collects_nil]
      constructor
      · intro h
        cases h
        exact ⟨rfl, rfl⟩
      · rintro ⟨rfl, rfl⟩
        rfl
    | cons m members =>
      obtain ⟨k, v⟩ := m
      rw [tokens_object_cons, ← takeMembers_tokens]
      simp only [List.cons_append, List.append_assoc, List.nil_append]
      rfl
  | array items =>
    cases items with
    | nil =>
      rw [tokens_array_nil]
      constructor
      · intro h
        cases h
      · rintro ⟨h, -⟩
        cases h
    | cons v items =>
      rw [takeParts_array_cons, bind_eq_ok]
      constructor
      · rintro ⟨⟨a, r''⟩, ha, h⟩
        obtain ⟨hv, rfl⟩ := takeArch_tokens.1 ha
        obtain ⟨⟨s, r''⟩, hs, he⟩ := map_eq_ok.1 h
        obtain ⟨⟨rfl, rfl⟩ | ⟨w, fs, rfl, hw, rfl⟩, rfl⟩ := takeSecond_tokens.1 hs
        · cases he
          exact ⟨.single hv, rfl⟩
        · cases he
          exact ⟨.pair hv hw, rfl⟩
      · rintro ⟨h, rfl⟩
        cases h with
        | single hv =>
          have hs := takeSecond_tokens (r := r').2 ⟨Or.inl ⟨rfl, rfl⟩, rfl⟩
          exact ⟨_, takeArch_tokens.2 ⟨hv, rfl⟩, map_eq_ok.2 ⟨_, hs, rfl⟩⟩
        | pair hv hw =>
          have hs := takeSecond_tokens (r := r').2 ⟨Or.inr ⟨_, _, rfl, hw, rfl⟩, rfl⟩
          exact ⟨_, takeArch_tokens.2 ⟨hv, rfl⟩, map_eq_ok.2 ⟨_, hs, rfl⟩⟩
  | null | bool | number | string =>
    rw [tokens]
    constructor
    · intro h
      cases h
    · rintro ⟨h, -⟩
      cases h

theorem takeParts_all {v : Json} {parts : Parts} :
    takeParts v.tokens = .ok (parts, []) ↔ Gathers v parts := by
  have h : takeParts (v.tokens ++ []) = .ok (parts, []) ↔
      Gathers v parts ∧ ([] : List Token) = [] := takeParts_tokens
  rwa [List.append_nil, and_iff_left rfl] at h

end Document

end NodeCost
