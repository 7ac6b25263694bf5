import NodeCost.Document.Error
import NodeCost.Document.Tag
import NodeCost.Json.Skip
import NodeCost.Target.Basic

namespace NodeCost.Document

open Json

theorem bind_eq_ok {ε α β : Type} {x : Except ε α} {f : α → Except ε β} {b : β} :
    x.bind f = .ok b ↔ ∃ a, x = .ok a ∧ f a = .ok b := by
  cases x <;> simp [Except.bind]

theorem map_eq_ok {ε α β : Type} {x : Except ε α} {f : α → β} {b : β} :
    x.map f = .ok b ↔ ∃ a, x = .ok a ∧ f a = b := by
  cases x <;> simp [Except.map]

theorem mapError_eq_ok {ε ε' α : Type} {x : Except ε α} {f : ε → ε'} {a : α} :
    x.mapError f = .ok a ↔ x = .ok a := by
  unfold Except.mapError
  cases x <;> simp

abbrev Result (α : Type) := Except DocumentError (α × List Token)

def mismatch (t : Token) (demand : Demand) : DocumentError :=
  match t.shape? with
  | some s => .mismatch s demand
  | none => .malformed

def takeNothing : List Token → Except DocumentError (List Token)
  | .colon :: .null :: .closeObject :: r => .ok r
  | .colon :: .null :: _ => .error .malformed
  | .colon :: t :: _ => .error (mismatch t .nothing)
  | _ => .error .malformed

/-- Takes a name, which stands alone or as the only key of an object that holds null. It is
looked up as soon as it has been read. -/
def takeName {α : Type} (lookup : String → Except DocumentError α) : List Token → Result α
  | .string (some s) :: r => (lookup s).map fun a => (a, r)
  | .openObject :: .string (some s) :: r =>
    (lookup s).bind fun a => (takeNothing r).map fun r => (a, r)
  | _ => .error .malformed

def lookupArch (s : String) : Except DocumentError Arch :=
  match Arch.all.find? (·.tag == s) with
  | some a => .ok a
  | none => .error (.unknownName s (Arch.all.map Arch.tag))

def lookupFeature (s : String) : Except DocumentError Feature :=
  match Feature.all.find? (·.tag == s) with
  | some f => .ok f
  | none => .error (.unknownName s (Feature.all.map Feature.tag))

def takeArch : List Token → Result Arch := takeName lookupArch

def takeFeature : List Token → Result Feature := takeName lookupFeature

theorem length_lt_of_takeNothing {ts r : List Token} (h : takeNothing ts = .ok r) :
    r.length < ts.length := by
  rw [takeNothing.eq_def] at h
  split at h <;> cases h
  simp only [List.length_cons]
  omega

theorem length_lt_of_takeName {α : Type} {lookup : String → Except DocumentError α}
    {ts r : List Token} {a : α} (h : takeName lookup ts = .ok (a, r)) : r.length < ts.length := by
  rw [takeName.eq_def] at h
  split at h
  · obtain ⟨b, -, h⟩ := map_eq_ok.1 h
    cases h
    simp
  · obtain ⟨b, -, h⟩ := bind_eq_ok.1 h
    obtain ⟨r', hr, h⟩ := map_eq_ok.1 h
    have := length_lt_of_takeNothing hr
    cases h
    simp only [List.length_cons]
    omega
  · cases h

def takeFeatures (ts : List Token) : Result (List Feature) :=
  match _h : takeFeature ts with
  | .error e => .error e
  | .ok (f, .closeArray :: r) => .ok ([f], r)
  | .ok (f, .comma :: r) => (takeFeatures r).map fun (fs, r) => (f :: fs, r)
  | .ok _ => .error .malformed
termination_by ts.length
decreasing_by
  have := length_lt_of_takeName _h
  simp only [List.length_cons] at this
  omega

def takeFeatureSet : List Token → Result FeatureSet
  | .openArray :: .closeArray :: r => .ok (∅, r)
  | .openArray :: r => (takeFeatures r).map fun (fs, r) => (.ofList fs, r)
  | t :: _ => .error (mismatch t .list)
  | [] => .error .malformed

theorem takeFeatureSet_openArray {t : Token} (ht : t ≠ .closeArray) (r : List Token) :
    takeFeatureSet (.openArray :: t :: r) =
      (takeFeatures (t :: r)).map fun p => (.ofList p.1, p.2) := by
  cases t with
  | closeArray => exact absurd rfl ht
  | _ => rfl

structure Parts where
  arch? : Option Arch := none
  features? : Option FeatureSet := none

def takeColon : List Token → Except DocumentError (List Token)
  | .colon :: r => .ok r
  | _ => .error .malformed

def takeSkipped (ts : List Token) : Except DocumentError (List Token) :=
  match skip ts with
  | some r => .ok r
  | none => .error .malformed

/-- Takes what follows a key. A key that is known may come once; the value of any other key is
skipped. -/
def takeMember (parts : Parts) (key : String) (ts : List Token) : Result Parts :=
  if key = "arch" then
    if parts.arch?.isSome then .error (.repeatedMember key)
    else ((takeColon ts).bind takeArch).map fun (a, r) => ({ parts with arch? := some a }, r)
  else if key = "features" then
    if parts.features?.isSome then .error (.repeatedMember key)
    else ((takeColon ts).bind takeFeatureSet).map fun (s, r) =>
      ({ parts with features? := some s }, r)
  else ((takeColon ts).bind takeSkipped).map fun r => (parts, r)

theorem length_lt_of_takeFeatures {ts r : List Token} {fs : List Feature}
    (h : takeFeatures ts = .ok (fs, r)) : r.length < ts.length := by
  induction ts using takeFeatures.induct generalizing fs r with
  | case1 ts e he => rw [takeFeatures, he] at h; cases h
  | case2 ts f r' he =>
    have := length_lt_of_takeName he
    rw [takeFeatures, he] at h
    cases h
    simp only [List.length_cons] at this
    omega
  | case3 ts f r' he ih =>
    have := length_lt_of_takeName he
    rw [takeFeatures, he] at h
    obtain ⟨⟨gs, r''⟩, hg, h⟩ := map_eq_ok.1 h
    have := ih hg
    cases h
    simp_all only [List.length_cons]
    omega
  | case4 ts p h₁ h₂ he =>
    rw [takeFeatures, he] at h
    split at h
    · cases h
    · rename_i heq
      cases heq
      exact absurd rfl (h₁ _ _)
    · rename_i heq
      cases heq
      exact absurd rfl (h₂ _ _)
    · cases h

theorem length_lt_of_takeFeatureSet {ts r : List Token} {s : FeatureSet}
    (h : takeFeatureSet ts = .ok (s, r)) : r.length < ts.length := by
  rw [takeFeatureSet.eq_def] at h
  split at h
  · cases h
    simp only [List.length_cons]
    omega
  · obtain ⟨⟨fs, r'⟩, hf, h⟩ := map_eq_ok.1 h
    have := length_lt_of_takeFeatures hf
    cases h
    simp only [List.length_cons]
    omega
  · cases h
  · cases h

theorem length_lt_of_takeColon {ts r : List Token} (h : takeColon ts = .ok r) :
    r.length < ts.length := by
  rw [takeColon.eq_def] at h
  split at h <;> cases h
  simp

theorem length_lt_of_takeSkipped {ts r : List Token} (h : takeSkipped ts = .ok r) :
    r.length < ts.length := by
  rw [takeSkipped] at h
  split at h
  · rename_i hs
    cases h
    exact length_lt_of_skip hs
  · cases h

theorem length_lt_of_takeMember {parts parts' : Parts} {key : String} {ts r : List Token}
    (h : takeMember parts key ts = .ok (parts', r)) : r.length < ts.length := by
  rw [takeMember] at h
  split at h
  · split at h
    · cases h
    · obtain ⟨⟨a, r'⟩, hb, h⟩ := map_eq_ok.1 h
      obtain ⟨ts', hc, ha⟩ := bind_eq_ok.1 hb
      cases h
      exact Nat.lt_trans (length_lt_of_takeName ha) (length_lt_of_takeColon hc)
  · split at h
    · split at h
      · cases h
      · obtain ⟨⟨s, r'⟩, hb, h⟩ := map_eq_ok.1 h
        obtain ⟨ts', hc, hs⟩ := bind_eq_ok.1 hb
        cases h
        exact Nat.lt_trans (length_lt_of_takeFeatureSet hs) (length_lt_of_takeColon hc)
    · obtain ⟨r', hb, h⟩ := map_eq_ok.1 h
      obtain ⟨ts', hc, hs⟩ := bind_eq_ok.1 hb
      cases h
      exact Nat.lt_trans (length_lt_of_takeSkipped hs) (length_lt_of_takeColon hc)

def takeMembers (parts : Parts) : List Token → Result Parts
  | .string (some key) :: ts =>
    match _h : takeMember parts key ts with
    | .error e => .error e
    | .ok (parts, .closeObject :: r) => .ok (parts, r)
    | .ok (parts, .comma :: r) => takeMembers parts r
    | .ok _ => .error .malformed
  | _ => .error .malformed
termination_by ts => ts.length
decreasing_by
  have := length_lt_of_takeMember _h
  simp only [List.length_cons] at *
  omega

def Parts.target (parts : Parts) : Except DocumentError Target :=
  match parts.arch? with
  | none => .error (.missingMember "arch")
  | some a => (Target.ofFeatures a (parts.features?.getD ∅)).mapError .refused

def takeSecond : List Token → Result FeatureSet
  | .closeArray :: r => .ok (∅, r)
  | .comma :: r =>
    match takeFeatureSet r with
    | .error e => .error e
    | .ok (s, .closeArray :: r) => .ok (s, r)
    | .ok _ => .error .malformed
  | _ => .error .malformed

def takeParts : List Token → Result Parts
  | .openObject :: .closeObject :: r => .ok ({}, r)
  | .openObject :: r => takeMembers {} r
  | .openArray :: .closeArray :: _ => .error .noElements
  | .openArray :: r =>
    (takeArch r).bind fun (a, r) =>
      (takeSecond r).map fun (s, r) => ({ arch? := some a, features? := some s }, r)
  | t :: _ => .error (mismatch t .target)
  | [] => .error .malformed

theorem takeParts_openArray {t : Token} (ht : t ≠ .closeArray) (r : List Token) :
    takeParts (.openArray :: t :: r) = (takeArch (t :: r)).bind fun p =>
      (takeSecond p.2).map fun q => ({ arch? := some p.1, features? := some q.1 }, q.2) := by
  cases t with
  | closeArray => exact absurd rfl ht
  | _ => rfl

def takeTarget (ts : List Token) : Result Target :=
  (takeParts ts).bind fun (parts, r) => parts.target.map fun t => (t, r)

def read {α : Type} (take : List Token → Result α) (text : String) : Except DocumentError α :=
  (take (Token.scan text.toList)).bind fun (a, r) =>
    if r.isEmpty then .ok a else .error .malformed

theorem read_eq_ok_iff {α : Type} {take : List Token → Result α} {text : String} {a : α} :
    read take text = .ok a ↔ take (Token.scan text.toList) = .ok (a, []) := by
  rw [read, bind_eq_ok]
  constructor
  · rintro ⟨⟨b, r⟩, ht, hr⟩
    cases r with
    | nil =>
      cases hr
      exact ht
    | cons t r => cases hr
  · intro h
    exact ⟨(a, []), h, rfl⟩

theorem takeTarget_eq_ok_iff {ts r : List Token} {t : Target} :
    takeTarget ts = .ok (t, r) ↔ ∃ parts, takeParts ts = .ok (parts, r) ∧ parts.target = .ok t := by
  rw [takeTarget, bind_eq_ok]
  constructor
  · rintro ⟨⟨parts, r'⟩, hp, ht⟩
    obtain ⟨u, hu, he⟩ := map_eq_ok.1 ht
    cases he
    exact ⟨parts, hp, hu⟩
  · rintro ⟨parts, hp, ht⟩
    exact ⟨(parts, r), hp, map_eq_ok.2 ⟨t, ht, rfl⟩⟩

theorem Parts.target_eq_ok_iff {parts : Parts} {t : Target} :
    parts.target = .ok t ↔
      ∃ a, parts.arch? = some a ∧ Target.ofFeatures a (parts.features?.getD ∅) = .ok t := by
  rw [Parts.target]
  cases parts.arch? with
  | none => simp
  | some a => simp [mapError_eq_ok]

end NodeCost.Document
