import NodeCost.Text.Blank
import Mathlib.Data.List.DropRight

namespace NodeCost.Text

def Blank (s : List Char) : Prop := ∀ c ∈ s, isBlank c = true

def Tight (t : List Char) : Prop :=
  (∀ c ∈ t.head?, isBlank c = false) ∧ ∀ c ∈ t.getLast?, isBlank c = false

/-- The text `s` is `t` with blanks around it. -/
def Pads (s t : List Char) : Prop := Tight t ∧ ∃ l r, Blank l ∧ Blank r ∧ s = l ++ t ++ r

theorem trimEnd_eq (s : List Char) : trimEnd s = s.rdropWhile isBlank := rfl

theorem pads_trim (s : List Char) : Pads s (trim s) := by
  have hs : s = s.takeWhile isBlank ++ trimStart s := List.takeWhile_append_dropWhile.symm
  have hu : trim s ++ (trimStart s).rtakeWhile isBlank = trimStart s := by
    exact List.rdropWhile_append_rtakeWhile
  refine ⟨⟨?_, ?_⟩, s.takeWhile isBlank, (trimStart s).rtakeWhile isBlank, ?_, ?_, ?_⟩
  · intro c hc
    have hh : (trimStart s).head? = some c := by
      rw [← hu, List.head?_append, Option.mem_def.1 hc]
      rfl
    have hn := List.head?_dropWhile_not isBlank s
    rw [show s.dropWhile isBlank = trimStart s from rfl, hh] at hn
    simpa using hn
  · intro c hc
    obtain ⟨hne, rfl⟩ := List.mem_getLast?_eq_getLast hc
    exact Bool.eq_false_iff.2 (List.rdropWhile_last_not isBlank (trimStart s) hne)
  · exact fun c hc => List.mem_takeWhile_imp hc
  · exact fun c hc => List.mem_rtakeWhile_imp hc
  · rw [List.append_assoc, hu]
    exact hs

theorem trim_of_pads {s t : List Char} (h : Pads s t) : trim s = t := by
  obtain ⟨⟨hhead, hlast⟩, l, r, hl, hr, rfl⟩ := h
  have hstart : trimStart (l ++ t ++ r) = trimStart (t ++ r) := by
    rw [trimStart, List.append_assoc, List.dropWhile_append_of_pos hl]
    rfl
  rw [trim, hstart]
  cases t with
  | nil =>
    have hnil : trimStart r = [] := List.dropWhile_eq_nil_iff.2 hr
    rw [List.nil_append, hnil]
    rfl
  | cons c t =>
    have hc : ¬ isBlank c = true := by simpa using hhead c rfl
    have hsame : trimStart (c :: t ++ r) = c :: t ++ r := List.dropWhile_cons_of_neg hc
    have hrev : ∀ d ∈ r.reverse, isBlank d = true := fun d hd => hr d (List.mem_reverse.1 hd)
    have hend : trimEnd (c :: t ++ r) = trimEnd (c :: t) := by
      rw [trimEnd, List.reverse_append, List.dropWhile_append_of_pos hrev]
      rfl
    rw [hsame, hend, trimEnd_eq, List.rdropWhile_eq_self_iff]
    intro hne
    simpa using hlast _ (List.getLast?_eq_getLast_of_ne_nil hne)

theorem trim_append_append {l r : List Char} (hl : Blank l) (hr : Blank r) (s : List Char) :
    trim (l ++ s ++ r) = trim s := by
  obtain ⟨ht, l', r', hl', hr', hs⟩ := pads_trim s
  have hleft : Blank (l ++ l') := fun c hc => (List.mem_append.1 hc).elim (hl c) (hl' c)
  have hright : Blank (r' ++ r) := fun c hc => (List.mem_append.1 hc).elim (hr' c) (hr c)
  refine trim_of_pads ⟨ht, l ++ l', r' ++ r, hleft, hright, ?_⟩
  conv_lhs => rw [hs]
  simp only [List.append_assoc]

theorem trim_eq_iff {s t : List Char} : trim s = t ↔ Pads s t :=
  ⟨fun h => h ▸ pads_trim s, trim_of_pads⟩

theorem pads_self {s : List Char} (h : Tight s) : Pads s s :=
  ⟨h, [], [], by simp [Blank], by simp [Blank], by simp⟩

theorem tight_of_forall {s : List Char} (h : ∀ c ∈ s, isBlank c = false) : Tight s :=
  ⟨fun c hc => h c (List.mem_of_head? hc), fun c hc => h c (List.mem_of_getLast? hc)⟩

theorem trim_eq_nil_iff {s : List Char} : trim s = [] ↔ Blank s := by
  rw [trim_eq_iff]
  constructor
  · rintro ⟨-, l, r, hl, hr, rfl⟩ c hc
    rw [List.append_nil] at hc
    exact (List.mem_append.1 hc).elim (hl c) (hr c)
  · intro h
    exact ⟨⟨by simp, by simp⟩, s, [], h, by simp [Blank], by simp⟩

theorem Pads.mem {s t : List Char} (h : Pads s t) {c : Char} (hc : c ∈ s) :
    isBlank c = true ∨ c ∈ t := by
  obtain ⟨-, l, r, hl, hr, rfl⟩ := h
  obtain hc | hc := List.mem_append.1 hc
  · exact (List.mem_append.1 hc).imp_left (hl c)
  · exact Or.inl (hr c hc)

theorem count_of_pads {s t : List Char} (h : Pads s t) {c : Char} (hc : isBlank c = false) :
    s.count c = t.count c := by
  obtain ⟨-, l, r, hl, hr, rfl⟩ := h
  have hn : ∀ b, Blank b → b.count c = 0 := by
    intro b hb
    apply List.count_eq_zero_of_not_mem
    intro hm
    exact Bool.false_ne_true (hc.symm.trans (hb c hm))
  rw [List.count_append, List.count_append, hn l hl, hn r hr, Nat.zero_add, Nat.add_zero]

end NodeCost.Text
