import NodeCost.Proofs.Text.Trim

namespace NodeCost.Text

/-- The text is the word, in any case and with blanks around it. -/
def Writes (s : List Char) (w : String) : Prop := ∃ t, Pads s t ∧ foldCase t = w.toList

theorem writes_iff {s : List Char} {w : String} : Writes s w ↔ foldCase (trim s) = w.toList := by
  constructor
  · rintro ⟨t, ht, hw⟩
    rw [trim_of_pads ht, hw]
  · intro h
    exact ⟨trim s, pads_trim s, h⟩

theorem Writes.unique {s : List Char} {v w : String} (hv : Writes s v) (hw : Writes s w) :
    v = w :=
  String.toList_inj.1 ((writes_iff.1 hv).symm.trans (writes_iff.1 hw))

theorem Writes.not_blank {s : List Char} {w : String} (h : Writes s w) (hw : w ≠ "") :
    ¬ Blank s := by
  intro hb
  have ht := writes_iff.1 h
  rw [trim_eq_nil_iff.2 hb] at ht
  exact hw (String.toList_eq_nil_iff.1 ht.symm)

theorem Writes.mem {s : List Char} {w : String} (h : Writes s w) {c : Char} (hc : c ∈ s) :
    isBlank c = true ∨ c.toLower ∈ w.toList := by
  obtain ⟨t, ht, hf⟩ := h
  refine (ht.mem hc).imp_right fun hm => ?_
  rw [← hf]
  exact List.mem_map_of_mem hm

/-- A text without blanks and separators, which has no case left to fold. -/
def Plain (s : List Char) : Prop :=
  (∀ c ∈ s, isBlank c = false ∧ c ≠ '+' ∧ c ≠ ',') ∧ foldCase s = s

-- The search goes through the text; all characters together are too many to go through.
instance (s : List Char) : Decidable (Plain s) :=
  @instDecidableAnd _ _ (List.decidableBAll _ s) inferInstance

theorem Plain.pads {s : List Char} (h : Plain s) : Pads s s :=
  pads_self (tight_of_forall fun c hc => (h.1 c hc).1)

theorem Plain.writes {w : String} (h : Plain w.toList) : Writes w.toList w :=
  ⟨w.toList, h.pads, h.2⟩

theorem Writes.not_mem {s : List Char} {w : String} (h : Writes s w) (hw : Plain w.toList) :
    '+' ∉ s := by
  intro hs
  obtain hb | hm := h.mem hs
  · exact Bool.false_ne_true hb
  · exact (hw.1 '+' hm).2.1 rfl

theorem toLower_eq_of_le {c : Char} (h : 0x80 ≤ c.toNat) : c.toLower = c := by
  apply dif_neg
  rintro ⟨-, hle⟩
  have hz : c.toNat ≤ 90 := UInt32.le_iff_toNat_le.1 hle
  omega

theorem toUpper_eq_of_le {c : Char} (h : 0x80 ≤ c.toNat) : c.toUpper = c := by
  apply dif_neg
  rintro ⟨-, hle⟩
  have hz : c.toNat ≤ 122 := UInt32.le_iff_toNat_le.1 hle
  omega

theorem Writes.isBlank_of_mem {s : List Char} {w : String} (h : Writes s w)
    (hw : w.toList.all (·.toNat < 0x80) = true) {c : Char} (hc : c ∈ s) (hn : 0x80 ≤ c.toNat) :
    isBlank c = true := by
  obtain hb | hm := h.mem hc
  · exact hb
  · have hlt := of_decide_eq_true (List.all_eq_true.1 hw _ hm)
    rw [toLower_eq_of_le hn] at hlt
    exact absurd hlt (Nat.not_lt.2 hn)

variable {α : Type} {word : α → String → Prop}

def Spells (word : α → String → Prop) (a : α) (s : List Char) : Prop := ∃ w, word a w ∧ Writes s w

/-- Words to look up: each is plain, and none stands for two things. -/
structure Vocabulary (word : α → String → Prop) : Prop where
  unique {a b : α} {w : String} : word a w → word b w → a = b
  plain {a : α} {w : String} : word a w → Plain w.toList
  ne_empty {a : α} {w : String} : word a w → w ≠ ""

theorem find?_eq_some_iff_of_unique {p : α → Bool} {l : List α}
    (hu : ∀ a ∈ l, ∀ b ∈ l, p a = true → p b = true → a = b) {a : α} :
    l.find? p = some a ↔ a ∈ l ∧ p a = true := by
  constructor
  · intro h
    exact ⟨List.mem_of_find?_eq_some h, List.find?_some h⟩
  · rintro ⟨ha, hp⟩
    cases hf : l.find? p with
    | none => exact absurd hp (List.find?_eq_none.1 hf a ha)
    | some b =>
      have hb : b = a := hu b (List.mem_of_find?_eq_some hf) a ha (List.find?_some hf) hp
      rw [hb]

theorem find?_eq_some_iff_of_injective {name : α → String} (hn : Function.Injective name)
    {l : List α} (hl : ∀ a, a ∈ l) {s : String} {a : α} :
    l.find? (name · == s) = some a ↔ name a = s := by
  rw [find?_eq_some_iff_of_unique, beq_iff_eq]
  · exact and_iff_right (hl a)
  · intro b _ c _ hb hc
    exact hn ((beq_iff_eq.1 hb).trans (beq_iff_eq.1 hc).symm)

namespace Vocabulary

theorem spells_word (hv : Vocabulary word) {a : α} {w : String} (h : word a w) :
    Spells word a w.toList :=
  ⟨w, h, (hv.plain h).writes⟩

theorem spells_unique (hv : Vocabulary word) {a b : α} {s : List Char} (ha : Spells word a s)
    (hb : Spells word b s) : a = b := by
  obtain ⟨v, hva, hs⟩ := ha
  obtain ⟨w, hwb, hs'⟩ := hb
  exact hv.unique hva (hs.unique hs' ▸ hwb)

theorem not_blank (hv : Vocabulary word) {a : α} {s : List Char} (h : Spells word a s) :
    ¬ Blank s := by
  obtain ⟨w, hw, hs⟩ := h
  exact hs.not_blank (hv.ne_empty hw)

theorem plus_not_mem (hv : Vocabulary word) {a : α} {s : List Char} (h : Spells word a s) :
    '+' ∉ s := by
  obtain ⟨w, hw, hs⟩ := h
  exact hs.not_mem (hv.plain hw)

theorem find?_eq_some_iff (hv : Vocabulary word) {all : List α} {spellings : α → List String}
    (hall : ∀ a, a ∈ all) (hs : ∀ a w, w ∈ spellings a ↔ word a w) {s : List Char} {a : α} :
    all.find? (fun a => (spellings a).any (·.toList == foldCase (trim s))) = some a ↔
      Spells word a s := by
  have hany : ∀ a, (spellings a).any (·.toList == foldCase (trim s)) = true ↔
      Spells word a s := by
    intro a
    simp only [List.any_eq_true, beq_iff_eq, hs, Spells, writes_iff,
      eq_comm (a := foldCase (trim s))]
  rw [find?_eq_some_iff_of_unique, hany]
  · exact and_iff_right (hall a)
  · intro a _ b _ ha hb
    exact hv.spells_unique ((hany a).1 ha) ((hany b).1 hb)

end Vocabulary

end NodeCost.Text
