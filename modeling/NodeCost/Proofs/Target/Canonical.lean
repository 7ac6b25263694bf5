import Mathlib.Data.List.Sort
import NodeCost.Proofs.Document.RoundTrip
import NodeCost.Proofs.Target.Admission
import NodeCost.Proofs.Text.Label

namespace NodeCost

open Text

instance : LawfulEnumerated Feature where
  ofLabel?_label f := by cases f <;> rfl
  isWord_label f := by cases f <;> rfl

namespace Feature

def Before (f g : Feature) : Prop := f.index < g.index

instance : Std.Irrefl Before where
  irrefl _ h := Nat.lt_irrefl _ h

instance : Std.Antisymm Before where
  antisymm _ _ h h' := absurd h (Nat.lt_asymm h')

/-- The features stand in the order of their declaration, each only once. -/
def Ascending (fs : List Feature) : Prop := fs.Pairwise Before

theorem Ascending.eq_of_mem_iff {fs gs : List Feature} (hf : Ascending fs) (hg : Ascending gs)
    (h : ∀ f, f ∈ fs ↔ f ∈ gs) : fs = gs :=
  List.Pairwise.eq_of_mem_iff hf hg h

theorem label_ne_empty (f : Feature) : label f ≠ "" := by
  cases f <;> decide

end Feature

namespace FeatureSet

open Feature

theorem ascending_toList (s : FeatureSet) : Ascending s.toList := s.pairwise_toList

theorem mem_toList_ofList {v : List Feature} {f : Feature} : f ∈ (ofList v).toList ↔ f ∈ v := by
  rw [mem_toList, contains_ofList]

theorem toList_ofList_eq_iff {v l : List Feature} :
    (ofList v).toList = l ↔ Ascending l ∧ ∀ f, f ∈ l ↔ f ∈ v := by
  constructor
  · rintro rfl
    exact ⟨ascending_toList _, fun f => mem_toList_ofList⟩
  · rintro ⟨hl, hm⟩
    exact (ascending_toList _).eq_of_mem_iff hl fun f => mem_toList_ofList.trans (hm f).symm

theorem toList_ofList_eq_toList_ofList_iff {v w : List Feature} :
    (ofList v).toList = (ofList w).toList ↔ ∀ f, f ∈ v ↔ f ∈ w := by
  simp only [toList_ofList_eq_iff, ascending_toList, true_and, mem_toList_ofList, iff_comm]

theorem toList_injective : Function.Injective toList := by
  intro s t h
  rw [← ofList_toList s, h, ofList_toList]

theorem toList_eq_nil_iff {s : FeatureSet} : s.toList = [] ↔ s.isEmpty = true := by
  rw [isEmpty_iff]
  exact toList_injective.eq_iff' rfl

theorem mapM_splitOn_text {s : FeatureSet} (hs : s.toList ≠ []) :
    (s.text.toList.splitOn ',').mapM Feature.ofChars = .ok s.toList := by
  rw [text, ← listText, splitOn_listText hs]
  exact mapM_map_eq_ok (fun f => ofChars_eq_ok_iff.2 f.spells_name) s.toList

theorem text_injective : Function.Injective text := by
  intro s t h
  have hl := listOfChars_listText s.toList
  rw [listText, ← text, h, text, ← listText, listOfChars_listText] at hl
  exact toList_injective (Except.ok.inj hl).symm

theorem dump_injective : Function.Injective dump := by
  intro s t h
  have hl := congrArg String.toList h
  simp only [dump, String.toList_append, List.append_left_inj, List.append_right_inj] at hl
  exact toList_injective
    (intercalate_injective isWord_label label_ne_empty (fun _ _ => eq_of_label_eq)
      (String.toList_injective hl))

def lineChars (f : Feature) : List Char := [' ', ' ', ' ', ' '] ++ (label f).toList ++ [',']

theorem lineChars_injective : Function.Injective lineChars := by
  intro f g h
  simp only [lineChars, List.append_left_inj, List.append_right_inj] at h
  exact eq_of_label_eq (String.toList_injective h)

theorem newline_not_mem_lineChars (f : Feature) : '\n' ∉ lineChars f := by
  have hf : '\n' ∉ (label f).toList := not_mem_of_isWord (isWord_label f) rfl
  simp [lineChars, hf]

theorem splitOn_dumpLines {s : FeatureSet} (hs : s.isEmpty = false) :
    s.dumpLines.toList.splitOn '\n' = ['\x7b'] :: s.toList.map lineChars ++ [['\x7d']] := by
  have hline : ∀ f : Feature, ("    " ++ label f ++ ",\n").toList = lineChars f ++ ['\n'] := by
    intro f
    simp [lineChars, String.toList_append]
  have hchars : s.dumpLines.toList = ['\x7b'] ++
      '\n' :: ((String.join (s.toList.map fun f => "    " ++ label f ++ ",\n")).toList ++
        ['\x7d']) := by
    rw [dumpLines, if_neg (by simp [hs])]
    simp [String.toList_append]
  rw [hchars, List.splitOn_append_cons_self, splitOn_join hline newline_not_mem_lineChars]
  rfl

theorem dumpLines_ne {s t : FeatureSet} (hs : s.isEmpty = true) (ht : t.isEmpty = false) :
    s.dumpLines ≠ t.dumpLines := by
  intro h
  have hp := congrArg (fun d : String => d.toList.splitOn '\n') h
  have hbraces : s.dumpLines.toList.splitOn '\n' = [['\x7b', '\x7d']] := by
    rw [dumpLines, if_pos hs]
    rfl
  simp [hbraces, splitOn_dumpLines ht] at hp

theorem dumpLines_injective : Function.Injective dumpLines := by
  intro s t h
  cases hs : s.isEmpty with
  | true =>
    cases ht : t.isEmpty with
    | true => rw [isEmpty_iff.1 hs, isEmpty_iff.1 ht]
    | false => exact absurd h (dumpLines_ne hs ht)
  | false =>
    cases ht : t.isEmpty with
    | true => exact absurd h.symm (dumpLines_ne ht hs)
    | false =>
      have hp := congrArg (fun d : String => d.toList.splitOn '\n') h
      simp only [splitOn_dumpLines hs, splitOn_dumpLines ht, List.append_left_inj,
        List.cons.injEq, true_and] at hp
      exact toList_injective (lineChars_injective.list_map hp)

theorem quoted_name (f : Feature) :
    Json.quoted f.name.toList = ("\"" ++ f.name ++ "\"").toList := by
  cases f <;> rfl

theorem flatMap_chars_items (f : Feature) (fs : List Feature) :
    Json.quoted f.name.toList ++ (Json.itemTokens (fs.map Feature.toJson)).flatMap Json.Token.chars =
      [','].intercalate ((f :: fs).map fun f => Json.quoted f.name.toList) := by
  induction fs generalizing f with
  | nil => simp [Json.itemTokens]
  | cons g fs ih =>
    have hg := ih g
    rw [List.map_cons] at hg
    rw [List.map_cons, List.map_cons, List.map_cons, List.intercalate_cons_cons, ← hg]
    simp [Json.itemTokens, Json.tokens, Feature.toJson, Json.Token.chars]

theorem text_toJson (s : FeatureSet) : s.toJson.text =
    "[" ++ ",".intercalate (s.toList.map fun f => "\"" ++ f.name ++ "\"") ++ "]" := by
  have hquoted : (s.toList.map fun f => "\"" ++ f.name ++ "\"").map String.toList =
      s.toList.map fun f => Json.quoted f.name.toList := by
    rw [List.map_map]
    exact List.map_congr_left fun f _ => (quoted_name f).symm
  have hitems : (Json.itemTokens (s.toList.map Feature.toJson)).tail.flatMap Json.Token.chars =
      [','].intercalate (s.toList.map fun f => Json.quoted f.name.toList) := by
    cases s.toList with
    | nil => simp [Json.itemTokens]
    | cons f fs =>
      rw [← flatMap_chars_items]
      simp [Json.itemTokens, Json.tokens, Feature.toJson, Json.Token.chars]
  apply String.toList_injective
  rw [Json.text, String.toList_ofList, toJson, Json.tokens, String.toList_append,
    String.toList_append, String.toList_intercalate, hquoted]
  simp [hitems, Json.Token.chars]

theorem text_toJson_injective : Function.Injective fun s : FeatureSet => s.toJson.text := by
  intro s t (h : s.toJson.text = t.toJson.text)
  have hs := ofJson_of_written (Document.written_featureSet s)
  have ht := ofJson_of_written (Document.written_featureSet t)
  rw [h, ht] at hs
  exact (Except.ok.inj hs).symm

/-- In every form in which the set is given away stand these features in this order. -/
structure Shows (s : FeatureSet) (l : List Feature) : Prop where
  toList_eq : s.toList = l
  text_eq : s.text = ",".intercalate (l.map name)
  text_eq_empty_iff : s.text = "" ↔ l = []
  mapM_splitOn_eq : l ≠ [] → (s.text.toList.splitOn ',').mapM Feature.ofChars = .ok l
  dump_eq : s.dump = "\x7b" ++ ", ".intercalate (l.map label) ++ "\x7d"
  dumpLines_eq : s.dumpLines = if l = [] then "\x7b\x7d"
    else "\x7b\n" ++ String.join (l.map fun f => "    " ++ label f ++ ",\n") ++ "\x7d"
  json_eq : s.toJson.text =
    "[" ++ ",".intercalate (l.map fun f => "\"" ++ f.name ++ "\"") ++ "]"

theorem shows_toList (s : FeatureSet) : s.Shows s.toList where
  toList_eq := rfl
  text_eq := rfl
  text_eq_empty_iff := (text_injective.eq_iff' (b := ∅) rfl).trans (toList_injective.eq_iff' rfl).symm
  mapM_splitOn_eq := mapM_splitOn_text
  dump_eq := rfl
  dumpLines_eq := by simp only [dumpLines, toList_eq_nil_iff]
  json_eq := text_toJson s

/-- A set is given away as the one list of its members that ascends, whatever list it was made of,
and in none of its forms can it be mistaken for another set. -/
theorem toList_ofList_canonical :
    (∀ v l, (ofList v).toList = l ↔ Ascending l ∧ ∀ f, f ∈ l ↔ f ∈ v) ∧
    (∀ v w, (ofList v).toList = (ofList w).toList ↔ ∀ f, f ∈ v ↔ f ∈ w) ∧
    (∀ v, ofList (ofList v).toList = ofList v) ∧
    (∀ l, (ofList l).toList = l ↔ Ascending l) ∧
    (∀ s : FeatureSet, s.Shows s.toList) ∧
    ∀ s t : FeatureSet, (s.text = t.text ↔ s = t) ∧ (s.dump = t.dump ↔ s = t) ∧
      (s.dumpLines = t.dumpLines ↔ s = t) ∧ (s.toJson.text = t.toJson.text ↔ s = t) := by
  refine ⟨fun v l => toList_ofList_eq_iff, fun v w => toList_ofList_eq_toList_ofList_iff,
    fun v => ofList_toList _, fun l => ?_, shows_toList, fun s t => ⟨?_, ?_, ?_, ?_⟩⟩
  · rw [toList_ofList_eq_iff]
    exact and_iff_left fun f => Iff.rfl
  · exact text_injective.eq_iff
  · exact dump_injective.eq_iff
  · exact dumpLines_injective.eq_iff
  · exact text_toJson_injective.eq_iff

example : (ofList [.lse, .sse42, .asimd, .sse42]).text = "sse4.2,asimd,lse" := by decide

end FeatureSet

end NodeCost
