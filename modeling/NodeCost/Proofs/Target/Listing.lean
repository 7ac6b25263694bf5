import NodeCost.Proofs.Target.Word

namespace NodeCost

namespace Text

theorem trim_trim (s : List Char) : trim (trim s) = trim s := trim_of_pads (pads_self (pads_trim s).1)

theorem trim_append_of_blank {s r : List Char} (hr : Blank r) : trim (s ++ r) = trim s :=
  trim_append_append (List.forall_mem_nil _) hr s

theorem trim_trimStart (s : List Char) : trim (trimStart s) = trim s := by
  rw [trim, trimStart, trimStart, List.dropWhile_idempotent]
  rfl

theorem trimStart_append_cons {c : Char} (hc : isBlank c = false) (s r : List Char) :
    trimStart (s ++ c :: r) = trimStart s ++ c :: r := by
  induction s with
  | nil => exact List.dropWhile_cons_of_neg (by simp [hc])
  | cons d s ih =>
    by_cases hd : isBlank d = true
    · rw [List.cons_append, trimStart, List.dropWhile_cons_of_pos hd, trimStart,
        List.dropWhile_cons_of_pos hd]
      exact ih
    · rw [List.cons_append, trimStart, List.dropWhile_cons_of_neg hd, trimStart,
        List.dropWhile_cons_of_neg hd, List.cons_append]

theorem trim_append_cons {c : Char} (hc : isBlank c = false) (s r : List Char) :
    trim (s ++ c :: r) = trimStart s ++ c :: trimEnd r := by
  have hrev : (trimStart s ++ c :: r).reverse = r.reverse ++ c :: (trimStart s).reverse := by
    simp
  rw [trim, trimStart_append_cons hc, trimEnd, hrev]
  have hend := trimStart_append_cons hc r.reverse (trimStart s).reverse
  rw [trimStart] at hend
  rw [hend, List.reverse_append, List.reverse_cons, List.reverse_reverse, List.append_assoc]
  rfl

theorem exists_trimEnd_append (s : List Char) : ∃ r, Blank r ∧ s = trimEnd s ++ r :=
  ⟨s.rtakeWhile isBlank, fun _ hc => List.mem_rtakeWhile_imp hc,
    List.rdropWhile_append_rtakeWhile.symm⟩

theorem map_trim_splitOn_append {sep : Char} (hsep : isBlank sep = false) {r : List Char}
    (hr : Blank r) (s : List Char) :
    ((s ++ r).splitOn sep).map trim = (s.splitOn sep).map trim := by
  have hnot : sep ∉ r := fun hm => Bool.false_ne_true (hsep.symm.trans (hr sep hm))
  obtain ⟨hs, -⟩ | ⟨a, b, -, he, -⟩ := cut_cases sep s
  · rw [List.splitOn_eq_singleton hs, List.splitOn_eq_singleton (by simp [hs, hnot]),
      List.map_singleton, trim_append_of_blank hr, List.map_singleton]
  · rw [he, List.append_assoc, List.cons_append, List.splitOn_append_cons_self,
      List.splitOn_append_cons_self, List.map_append, List.map_append,
      map_trim_splitOn_append hsep hr b]
termination_by s.length
decreasing_by simp [he]; omega

end Text

open Text

theorem Arch.ofChars_trimStart (s : List Char) : Arch.ofChars (trimStart s) = Arch.ofChars s := by
  rw [ofChars, ofChars, trim_trimStart]

namespace Feature

theorem ofChars_trim (s : List Char) : ofChars (trim s) = ofChars s := by
  rw [ofChars, ofChars, trim_trim]

theorem listOfChars_eq_mapM_trim (s : List Char) :
    listOfChars s = (((s.splitOn ',').map trim).filter fun p => !p.isEmpty).mapM ofChars := by
  have htrim : ofChars ∘ trim = ofChars := funext ofChars_trim
  rw [List.filter_map, List.mapM_map, htrim]
  rfl

theorem listOfChars_trimEnd (s : List Char) : listOfChars (trimEnd s) = listOfChars s := by
  obtain ⟨r, hr, hs⟩ := exists_trimEnd_append s
  have hcomma : isBlank ',' = false := by decide
  have hsegments := map_trim_splitOn_append hcomma hr (trimEnd s)
  conv_rhs => rw [hs, listOfChars_eq_mapM_trim, hsegments, ← listOfChars_eq_mapM_trim]

theorem listOfChars_append_comma (s t : List Char) : listOfChars (s ++ ',' :: t) = (do
    let fs ← listOfChars s
    let gs ← listOfChars t
    pure (fs ++ gs)) := by
  rw [listOfChars, List.splitOn_append_cons_self, List.filter_append, List.mapM_append]
  rfl

end Feature

namespace Target

/-- What stands before the first plus and what stands behind it are read apart, and neither of
them sees the blanks around the text. -/
theorem ofChars_append_plus {s : List Char} (hs : '+' ∉ s) (t : List Char) :
    ofChars (s ++ '+' :: t) = (do
      let arch ← Arch.ofChars s
      let features ← Feature.listOfChars t
      ofFeatures arch (.ofList features)) := by
  have hstart : '+' ∉ trimStart s := fun hm => hs ((List.dropWhile_suffix _).subset hm)
  rw [ofChars, trim_append_cons (by decide), cut_append hstart, if_neg (by simp)]
  simp only [Option.getD_some, Arch.ofChars_trimStart, Feature.listOfChars_trimEnd]

theorem ofText_append_plus {s : String} (hs : '+' ∉ s.toList) (t : String) :
    ofText (s ++ "+" ++ t) = (do
      let arch ← Arch.ofText s
      let features ← Feature.listOfChars t.toList
      ofFeatures arch (.ofList features)) := by
  have hchars : (s ++ "+" ++ t).toList = s.toList ++ '+' :: t.toList := by
    simp [String.toList_append]
  rw [ofText, hchars, ofChars_append_plus hs]
  rfl

end Target

end NodeCost
