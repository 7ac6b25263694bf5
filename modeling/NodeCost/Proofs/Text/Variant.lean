import NodeCost.Proofs.Text.Word

namespace NodeCost.Text

inductive Recased : Char → Char → Prop where
  | same (c : Char) : Recased c c
  | raised {c : Char} (h : c.isLower = true) : Recased c c.toUpper
  | lowered {c : Char} (h : c.isUpper = true) : Recased c c.toLower

/-- The text `t` is `s` with letters in another case and blanks put around it. -/
def Varies (s t : List Char) : Prop :=
  ∃ l m r, Blank l ∧ Blank r ∧ List.Forall₂ Recased s m ∧ t = l ++ m ++ r

theorem forall_of_ascii {p : Char → Prop} (h : ∀ n < 0x80, p (Char.ofNat n))
    (hle : ∀ c : Char, 0x80 ≤ c.toNat → p c) (c : Char) : p c := by
  by_cases hc : c.toNat < 0x80
  · exact Char.ofNat_toNat c ▸ h c.toNat hc
  · exact hle c (Nat.not_lt.1 hc)

theorem toLower_toUpper (c : Char) : c.toUpper.toLower = c.toLower := by
  apply forall_of_ascii (p := fun c => c.toUpper.toLower = c.toLower) (by decide)
  intro c hc
  rw [toUpper_eq_of_le hc]

theorem toLower_toLower (c : Char) : c.toLower.toLower = c.toLower := by
  apply forall_of_ascii (p := fun c => c.toLower.toLower = c.toLower) (by decide)
  intro c hc
  rw [toLower_eq_of_le hc, toLower_eq_of_le hc]

theorem isBlank_toLower (c : Char) : isBlank c.toLower = isBlank c := by
  apply forall_of_ascii (p := fun c => isBlank c.toLower = isBlank c) (by decide)
  intro c hc
  rw [toLower_eq_of_le hc]

theorem Recased.toLower_eq {c d : Char} (h : Recased c d) : c.toLower = d.toLower := by
  cases h with
  | same => rfl
  | raised => exact (toLower_toUpper c).symm
  | lowered => exact (toLower_toLower c).symm

theorem foldCase_eq_of_recased {s t : List Char} (h : List.Forall₂ Recased s t) :
    foldCase s = foldCase t := by
  induction h with
  | nil => rfl
  | cons hc _ ih => exact congrArg₂ List.cons hc.toLower_eq ih

theorem trim_foldCase (s : List Char) : trim (foldCase s) = foldCase (trim s) := by
  have hblank : isBlank ∘ Char.toLower = isBlank := funext isBlank_toLower
  simp only [trim, trimEnd, trimStart, foldCase, List.dropWhile_map, hblank, ← List.map_reverse]

theorem Varies.foldCase_trim_eq {s t : List Char} (h : Varies s t) :
    foldCase (trim s) = foldCase (trim t) := by
  obtain ⟨l, m, r, hl, hr, hm, rfl⟩ := h
  rw [trim_append_append hl hr, ← trim_foldCase, ← trim_foldCase, foldCase_eq_of_recased hm]

theorem Varies.spells_iff {α : Type} {word : α → String → Prop} {s t : List Char}
    (h : Varies s t) (a : α) : Spells word a s ↔ Spells word a t := by
  apply exists_congr
  intro w
  rw [writes_iff, writes_iff, h.foldCase_trim_eq]

end NodeCost.Text
