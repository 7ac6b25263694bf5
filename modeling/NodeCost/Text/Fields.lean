namespace NodeCost.Text

/-- The text before the first separator and, if there is one, the text after it. -/
def cut (sep : Char) : List Char → List Char × Option (List Char)
  | [] => ([], none)
  | c :: r => if c = sep then ([], some r) else ((c :: (cut sep r).1), (cut sep r).2)

theorem cut_of_not_mem {sep : Char} {s : List Char} (h : sep ∉ s) : cut sep s = (s, none) := by
  induction s with
  | nil => rfl
  | cons c r ih =>
    have hc : c ≠ sep := fun e => h (e ▸ List.mem_cons_self)
    simp [cut, hc, ih fun m => h (List.mem_cons_of_mem c m)]

theorem cut_append {sep : Char} {s : List Char} (h : sep ∉ s) (r : List Char) :
    cut sep (s ++ sep :: r) = (s, some r) := by
  induction s with
  | nil => simp [cut]
  | cons c s ih =>
    have hc : c ≠ sep := fun e => h (e ▸ List.mem_cons_self)
    simp [cut, hc, ih fun m => h (List.mem_cons_of_mem c m)]

theorem cut_cases (sep : Char) (s : List Char) :
    sep ∉ s ∧ cut sep s = (s, none) ∨ ∃ a b, sep ∉ a ∧ s = a ++ sep :: b ∧ cut sep s = (a, some b) := by
  by_cases h : sep ∈ s
  · obtain ⟨a, b, rfl, ha⟩ := List.eq_append_cons_of_mem h
    exact Or.inr ⟨a, b, ha, rfl, cut_append ha b⟩
  · exact Or.inl ⟨h, cut_of_not_mem h⟩

theorem not_mem_of_mem_splitOn {sep : Char} {s p : List Char} (h : p ∈ s.splitOn sep) : sep ∉ p := by
  induction s generalizing p with
  | nil =>
    rw [List.splitOn_nil, List.mem_singleton] at h
    simp [h]
  | cons c r ih =>
    rw [List.splitOn_cons_eq_if_modifyHead] at h
    by_cases hc : c = sep
    · rw [if_pos (beq_iff_eq.2 hc), List.mem_cons] at h
      rcases h with rfl | h
      · exact List.not_mem_nil
      · exact ih h
    · rw [if_neg (by simpa using hc)] at h
      cases hr : r.splitOn sep with
      | nil => exact absurd hr (List.splitOn_ne_nil sep r)
      | cons q qs =>
        rw [hr] at h ih
        rcases List.mem_cons.1 h with rfl | h
        · exact fun m => (List.mem_cons.1 m).elim (fun e => hc e.symm) (ih List.mem_cons_self)
        · exact ih (List.mem_cons_of_mem q h)

theorem splitOn_eq_iff {sep : Char} {s : List Char} {ps : List (List Char)} :
    s.splitOn sep = ps ↔ ps ≠ [] ∧ (∀ p ∈ ps, sep ∉ p) ∧ s = [sep].intercalate ps := by
  constructor
  · rintro rfl
    exact ⟨List.splitOn_ne_nil sep s, fun p => not_mem_of_mem_splitOn,
      (List.intercalate_splitOn sep).symm⟩
  · rintro ⟨hne, h, rfl⟩
    exact List.splitOn_intercalate sep h hne

theorem splitOn_flatMap_append {sep : Char} {ps : List (List Char)} (h : ∀ p ∈ ps, sep ∉ p)
    (s : List Char) :
    ((ps.flatMap fun p => p ++ [sep]) ++ s).splitOn sep = ps ++ s.splitOn sep := by
  induction ps with
  | nil => rfl
  | cons p ps ih =>
    have hp : sep ∉ p := h p List.mem_cons_self
    have hps := ih fun q hq => h q (List.mem_cons_of_mem p hq)
    rw [List.flatMap_cons, List.append_assoc, List.append_assoc, List.singleton_append,
      List.splitOn_append_cons_self_of_not_mem hp, hps]
    rfl

theorem intercalate_pair {sep c : Char} (p : List Char) (ps : List (List Char)) :
    [sep, c].intercalate (p :: ps) = [sep].intercalate (p :: ps.map (c :: ·)) := by
  induction ps generalizing p with
  | nil => rfl
  | cons q qs ih =>
    have hps : [sep].intercalate (p :: (c :: q) :: qs.map (c :: ·)) =
        p ++ sep :: c :: [sep].intercalate (q :: qs.map (c :: ·)) := by
      cases qs <;> simp
    rw [List.intercalate_cons_cons, ih, List.map_cons, hps, List.append_assoc]
    rfl

theorem mem_of_mem_intercalate {sep : List Char} {c : Char} {ps : List (List Char)}
    (h : c ∈ sep.intercalate ps) : c ∈ sep ∨ ∃ p ∈ ps, c ∈ p := by
  induction ps with
  | nil => exact absurd h List.not_mem_nil
  | cons p ps ih =>
    cases ps with
    | nil =>
      rw [List.intercalate_singleton] at h
      exact Or.inr ⟨p, List.mem_cons_self, h⟩
    | cons q qs =>
      rw [List.intercalate_cons_cons, List.mem_append, List.mem_append] at h
      rcases h with (h | h) | h
      · exact Or.inr ⟨p, List.mem_cons_self, h⟩
      · exact Or.inl h
      · exact (ih h).imp_right fun ⟨r, hr, hc⟩ => ⟨r, List.mem_cons_of_mem p hr, hc⟩

end NodeCost.Text
