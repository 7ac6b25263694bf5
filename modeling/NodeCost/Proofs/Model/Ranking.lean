import Mathlib.Data.List.Nodup
import NodeCost.Proofs.Model.Totals

namespace NodeCost

namespace Summary

def Keyed (entries : List (Category × Figures)) : Prop := (entries.map Prod.fst).Nodup

theorem mem_keys_recordEntry {b c : Category} {cycles size : Nat}
    {entries : List (Category × Figures)} :
    b ∈ (recordEntry c cycles size entries).map Prod.fst ↔
      b = c ∨ b ∈ entries.map Prod.fst := by
  induction entries with
  | nil => simp [recordEntry]
  | cons e r ih =>
    obtain ⟨d, f⟩ := e
    rw [recordEntry]
    by_cases hd : d = c
    · simp [hd]
    · rw [if_neg hd, List.map_cons, List.mem_cons, ih, List.map_cons, List.mem_cons]
      exact or_left_comm

theorem Keyed.recordEntry {entries : List (Category × Figures)} (h : Keyed entries)
    (c : Category) (cycles size : Nat) : Keyed (recordEntry c cycles size entries) := by
  induction entries with
  | nil => exact List.nodup_singleton c
  | cons e r ih =>
    obtain ⟨d, f⟩ := e
    obtain ⟨hnot, hr⟩ := List.nodup_cons.1 h
    rw [Summary.recordEntry]
    by_cases hd : d = c
    · rw [if_pos hd]
      exact h
    · rw [if_neg hd]
      refine List.nodup_cons.2 ⟨fun hm => ?_, ih hr⟩
      exact (mem_keys_recordEntry.1 hm).elim hd hnot

theorem Keyed.lookup_eq_some_iff {entries : List (Category × Figures)} (h : Keyed entries)
    {c : Category} {f : Figures} : entries.lookup c = some f ↔ (c, f) ∈ entries := by
  induction entries with
  | nil => simp
  | cons e r ih =>
    obtain ⟨d, g⟩ := e
    obtain ⟨hnot, hr⟩ := List.nodup_cons.1 h
    rw [List.lookup_cons, List.mem_cons]
    by_cases hc : c = d
    · subst c
      have hmem : (d, f) ∉ r := fun hm => hnot (List.mem_map.2 ⟨(d, f), hm, rfl⟩)
      simp [hmem, eq_comm]
    · simp [hc, beq_false_of_ne hc, ih hr]

theorem Keyed.category_eq {s : Summary} (h : Keyed s.entries) {e : Category × Figures}
    (he : e ∈ s.entries) : s.category e.1 = e.2 := by
  rw [category, h.lookup_eq_some_iff.2 he]
  rfl

theorem Keyed.eq_of_mem {entries : List (Category × Figures)} (h : Keyed entries)
    {a b : Category × Figures} (ha : a ∈ entries) (hb : b ∈ entries) (hab : a.1 = b.1) : a = b :=
  List.inj_on_of_nodup_map h ha hb hab

/-- Entries are known, up to their order, by what is found in them for each category. -/
theorem Keyed.perm {xs ys : List (Category × Figures)} (hx : Keyed xs) (hy : Keyed ys)
    (h : ∀ c, xs.lookup c = ys.lookup c) : xs.Perm ys := by
  rw [List.perm_ext_iff_of_nodup (List.Nodup.of_map _ hx) (List.Nodup.of_map _ hy)]
  rintro ⟨c, f⟩
  rw [← hx.lookup_eq_some_iff, ← hy.lookup_eq_some_iff, h]

theorem hotter_iff {a b : Category × Figures} :
    hotter a b = true ↔ b.2.cycles.toNat < a.2.cycles.toNat ∨
      a.2.cycles.toNat = b.2.cycles.toNat ∧ a.1.index ≤ b.1.index := by
  simp [hotter, UInt64.lt_iff_toNat_lt, UInt64.toNat_inj]

theorem hotter_trans (a b c : Category × Figures) (hab : hotter a b = true)
    (hbc : hotter b c = true) : hotter a c = true := by
  rw [hotter_iff] at *
  omega

theorem hotter_total (a b : Category × Figures) : (hotter a b || hotter b a) = true := by
  rw [Bool.or_eq_true, hotter_iff, hotter_iff]
  omega

theorem fst_eq_of_hotter {a b : Category × Figures} (hab : hotter a b = true)
    (hba : hotter b a = true) : a.1 = b.1 := by
  rw [hotter_iff] at *
  exact Category.eq_of_index_eq (by omega)

theorem perm_ranked (entries : List (Category × Figures)) : (ranked entries).Perm entries :=
  List.mergeSort_perm entries hotter

theorem pairwise_ranked (entries : List (Category × Figures)) :
    (ranked entries).Pairwise fun a b => hotter a b = true :=
  List.pairwise_mergeSort hotter_trans hotter_total entries

/-- Nothing of the order in which the entries come is left after they are ranked. -/
theorem Keyed.ranked_eq {xs ys : List (Category × Figures)} (hx : Keyed xs) (h : xs.Perm ys) :
    ranked xs = ranked ys := by
  have hperm : (ranked xs).Perm (ranked ys) :=
    (perm_ranked xs).trans (h.trans (perm_ranked ys).symm)
  -- Entries that may stand in either order are of one category, and so one and the same.
  refine hperm.eq_of_pairwise ?_ (pairwise_ranked xs) (pairwise_ranked ys)
  intro a b ha hb hab hba
  have ha' : a ∈ xs := (perm_ranked xs).mem_iff.1 ha
  have hb' : b ∈ xs := (h.trans (perm_ranked ys).symm).mem_iff.2 hb
  exact hx.eq_of_mem ha' hb' (fst_eq_of_hotter hab hba)

end Summary

namespace Pricing

theorem keyed_summary (p : Pricing) (nodes : List Node) : Summary.Keyed (p.summary nodes).entries := by
  induction nodes using List.reverseRecOn with
  | nil => exact List.nodup_nil
  | append_singleton nodes n ih =>
    rw [summary_append_singleton]
    exact ih.recordEntry _ _ _

theorem lookup_summary (p : Pricing) (nodes : List Node) (c : Category) :
    (p.summary nodes).entries.lookup c =
      if c.members nodes = [] then none else some (p.figures (c.members nodes)) := by
  induction nodes using List.reverseRecOn with
  | nil => rfl
  | append_singleton nodes n ih =>
    rw [summary_append_singleton, recordNode, Summary.record, Summary.lookup_recordEntry,
      Category.members_append, Category.members_singleton]
    -- Only the entry of the last node's category is touched: it has one already or gets its first.
    by_cases hc : n.op.category = c
    · subst hc
      have hfigures := p.category_summary nodes n.op.category
      rw [Summary.category] at hfigures
      rw [if_pos rfl, if_pos rfl, hfigures, ← figures_append_singleton, if_neg]
      simp
    · rw [if_neg (Ne.symm hc), if_neg hc, List.append_nil, ih]

end Pricing

end NodeCost
