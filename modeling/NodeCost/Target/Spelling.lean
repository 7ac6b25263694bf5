import NodeCost.Target.Basic
import NodeCost.Text.Fields

namespace NodeCost

open Text

/-- Reads an architecture: blanks around it and the case of ASCII letters do not matter. -/
def Arch.ofChars (s : List Char) : Except TargetError Arch :=
  let name := foldCase (trim s)
  match Arch.all.find? (fun a => a.spellings.any (·.toList == name)) with
  | some a => .ok a
  | none => .error (.unknownArch (String.ofList name))

def Arch.ofText (s : String) : Except TargetError Arch := ofChars s.toList

def Feature.ofChars (s : List Char) : Except TargetError Feature :=
  let name := foldCase (trim s)
  match Feature.all.find? (fun f => f.spellings.any (·.toList == name)) with
  | some f => .ok f
  | none => .error (.unknownFeature (String.ofList (trim s)))

def Feature.ofText (s : String) : Except TargetError Feature := ofChars s.toList

/-- Reads features between commas, from left to right; a blank piece stands for none. -/
def Feature.listOfChars (s : List Char) : Except TargetError (List Feature) :=
  ((s.splitOn ',').filter (fun p => !(trim p).isEmpty)).mapM Feature.ofChars

/-- Reads an architecture, then, after the first plus, features between commas. -/
def Target.ofChars (s : List Char) : Except TargetError Target :=
  if (trim s).isEmpty then .error .empty
  else do
    let (head, list) := cut '+' (trim s)
    let arch ← Arch.ofChars head
    let features ← Feature.listOfChars (list.getD [])
    Target.ofFeatures arch (.ofList features)

theorem Target.ofChars_eq_ofFeatures {s : List Char} {a : Arch} {fs : List Feature}
    (hs : trim s ≠ []) (ha : Arch.ofChars (cut '+' (trim s)).1 = .ok a)
    (hf : Feature.listOfChars ((cut '+' (trim s)).2.getD []) = .ok fs) :
    Target.ofChars s = Target.ofFeatures a (.ofList fs) := by
  rw [Target.ofChars, if_neg (by simpa using hs)]
  simp [ha, hf, bind, Except.bind]

theorem Target.ofChars_eq_ok_iff {s : List Char} {t : Target} :
    Target.ofChars s = .ok t ↔ trim s ≠ [] ∧ ∃ a fs, Arch.ofChars (cut '+' (trim s)).1 = .ok a ∧
      Feature.listOfChars ((cut '+' (trim s)).2.getD []) = .ok fs ∧
      Target.ofFeatures a (.ofList fs) = .ok t := by
  by_cases hs : trim s = []
  · simp [Target.ofChars, hs]
  · cases ha : Arch.ofChars (cut '+' (trim s)).1 with
    | error e => simp [Target.ofChars, ha, hs, bind, Except.bind]
    | ok a =>
      cases hf : Feature.listOfChars ((cut '+' (trim s)).2.getD []) with
      | error e => simp [Target.ofChars, ha, hf, hs, bind, Except.bind]
      | ok fs => simp [Target.ofChars_eq_ofFeatures hs ha hf, hs]

theorem Target.ofChars_eq_error_iff {s : List Char} {e : TargetError} :
    Target.ofChars s = .error e ↔ trim s = [] ∧ e = .empty ∨
      trim s ≠ [] ∧ (Arch.ofChars (cut '+' (trim s)).1 = .error e ∨
        ∃ a, Arch.ofChars (cut '+' (trim s)).1 = .ok a ∧
          (Feature.listOfChars ((cut '+' (trim s)).2.getD []) = .error e ∨
            ∃ fs, Feature.listOfChars ((cut '+' (trim s)).2.getD []) = .ok fs ∧
              Target.ofFeatures a (.ofList fs) = .error e)) := by
  by_cases hs : trim s = []
  · simp [Target.ofChars, hs, eq_comm]
  · cases ha : Arch.ofChars (cut '+' (trim s)).1 with
    | error d => simp [Target.ofChars, ha, hs, bind, Except.bind]
    | ok a =>
      cases hf : Feature.listOfChars ((cut '+' (trim s)).2.getD []) with
      | error d => simp [Target.ofChars, ha, hf, hs, bind, Except.bind]
      | ok fs => simp [Target.ofChars_eq_ofFeatures hs ha hf, hs]

def Target.ofText (s : String) : Except TargetError Target := ofChars s.toList

end NodeCost
