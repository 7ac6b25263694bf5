import Mathlib.Data.List.Chain
import Mathlib.Data.List.Sort
import NodeCost.Model.Generic
import NodeCost.Proofs.Model.Ranking
import NodeCost.Proofs.Model.Tally

namespace NodeCost

namespace Summary

def Outranks (a b : Category × Figures) : Prop :=
  b.2.cycles < a.2.cycles ∨ a.2.cycles = b.2.cycles ∧ a.1.index < b.1.index

instance (a b : Category × Figures) : Decidable (Outranks a b) :=
  inferInstanceAs (Decidable (_ ∨ _))

theorem outranks_iff {a b : Category × Figures} :
    Outranks a b ↔ b.2.cycles.toNat < a.2.cycles.toNat ∨
      a.2.cycles.toNat = b.2.cycles.toNat ∧ a.1.index < b.1.index := by
  rw [Outranks, UInt64.lt_iff_toNat_lt, UInt64.toNat_inj]

instance : IsTrans (Category × Figures) Outranks where
  trans a b c hab hbc := by
    rw [outranks_iff] at *
    omega

instance : Std.Irrefl Outranks where
  irrefl a h := by
    rw [outranks_iff] at h
    omega

instance : Std.Antisymm Outranks where
  antisymm a b hab hba := by
    rw [outranks_iff] at *
    omega

theorem outranks_of_hotter {a b : Category × Figures} (h : hotter a b = true) (hne : a.1 ≠ b.1) :
    Outranks a b := by
  have hindex : a.1.index ≠ b.1.index := fun hi => hne (Category.eq_of_index_eq hi)
  rw [hotter_iff] at h
  rw [outranks_iff]
  omega

/-- The entries are those of the categories that occur among the nodes, each once and with its
figures, and of two neighbours the first outranks the second. -/
structure Ranks (s : Summary) (nodes : List Node) (es : List (Category × Figures)) : Prop where
  keyed : Keyed es
  mem_keys_iff : ∀ c, c ∈ es.map Prod.fst ↔ ∃ n ∈ nodes, n.op.category = c
  figures : ∀ e ∈ es, e.2 = s.category e.1
  ordered : es.IsChain Outranks

theorem Ranks.mem_iff {s : Summary} {nodes : List Node} {es : List (Category × Figures)}
    (h : s.Ranks nodes es) (e : Category × Figures) :
    e ∈ es ↔ (∃ n ∈ nodes, n.op.category = e.1) ∧ e.2 = s.category e.1 := by
  rw [← h.mem_keys_iff]
  constructor
  · intro he
    exact ⟨List.mem_map_of_mem he, h.figures e he⟩
  · rintro ⟨hkey, hfigures⟩
    obtain ⟨d, hd, hde⟩ := List.mem_map.1 hkey
    have hed : d = e := Prod.ext hde (by rw [h.figures d hd, hde, hfigures])
    exact hed ▸ hd

theorem Ranks.unique {s : Summary} {nodes : List Node} {es fs : List (Category × Figures)}
    (he : s.Ranks nodes es) (hf : s.Ranks nodes fs) : es = fs := by
  apply he.ordered.pairwise.eq_of_mem_iff hf.ordered.pairwise
  intro e
  rw [he.mem_iff, hf.mem_iff]

theorem Ranks.sum_eq {M : Type} [AddCommMonoid M] {f : List Node → M} (hnil : f [] = 0)
    (happend : ∀ xs ys, f (xs ++ ys) = f xs + f ys) {s : Summary} {nodes : List Node}
    {es : List (Category × Figures)} (h : s.Ranks nodes es) {g : Figures → M}
    (hg : ∀ c, g (s.category c) = f (c.members nodes)) :
    (es.map fun e => g e.2).sum = f nodes := by
  have hmem : ∀ n ∈ nodes, n.op.category ∈ es.map Prod.fst :=
    fun n hn => (h.mem_keys_iff _).2 ⟨n, hn, rfl⟩
  have hmap : es.map (fun e => g e.2) = (es.map Prod.fst).map fun c => f (c.members nodes) := by
    rw [List.map_map]
    apply List.map_congr_left
    intro e he
    rw [h.figures e he, hg]
    rfl
  rw [hmap]
  exact Category.sum_members hnil happend h.keyed hmem

end Summary

namespace Pricing

open Summary

theorem mem_keys_summary_iff {p : Pricing} {nodes : List Node} {c : Category} :
    c ∈ (p.summary nodes).entries.map Prod.fst ↔ ∃ n ∈ nodes, n.op.category = c := by
  have hkeyed := p.keyed_summary nodes
  have hmem : c.members nodes ≠ [] ↔ ∃ n ∈ nodes, n.op.category = c := by
    simp [Category.members, List.filter_eq_nil_iff]
  rw [← hmem]
  constructor
  · intro hc hnil
    obtain ⟨⟨d, f⟩, he, rfl⟩ := List.mem_map.1 hc
    have hlookup := hkeyed.lookup_eq_some_iff.2 he
    rw [lookup_summary, if_pos hnil] at hlookup
    cases hlookup
  · intro hne
    have hlookup := p.lookup_summary nodes c
    rw [if_neg hne] at hlookup
    exact List.mem_map.2 ⟨_, hkeyed.lookup_eq_some_iff.1 hlookup, rfl⟩

theorem ranks_hottest (p : Pricing) (nodes : List Node) :
    (p.summary nodes).Ranks nodes (p.summary nodes).hottest := by
  have hperm : (p.summary nodes).hottest.Perm (p.summary nodes).entries := perm_ranked _
  have hkeys := hperm.map Prod.fst
  have hkeyed : Keyed (p.summary nodes).hottest := hkeys.nodup_iff.2 (p.keyed_summary nodes)
  refine ⟨hkeyed, fun c => hkeys.mem_iff.trans mem_keys_summary_iff, ?_, ?_⟩
  · intro e he
    exact ((p.keyed_summary nodes).category_eq (hperm.mem_iff.1 he)).symm
  · have hne := List.pairwise_map.1 hkeyed
    have hordered := (pairwise_ranked (p.summary nodes).entries).and hne
    exact (hordered.imp fun h => outranks_of_hotter h.1 h.2).isChain

end Pricing

namespace CostModel

/-- The categories that occur in a graph can be ranked in one way only, and this is how a model
that sums up the nodes lists them, whatever order their entries come in. No figures get lost: those
listed add up to the totals, as words and, where these are large enough, as numbers. -/
theorem hottest_ranking {m : CostModel}
    (hm : ∀ g, m.summarize g = m.toPricing.summary g.toList) (g : Graph) :
    let s := m.summarize g
    (∀ es, s.Ranks g.toList es ↔ es = s.hottest) ∧
    (s.hottest.map Prod.snd).sum = s.total ∧
    (m.Fits g.toList → (s.hottest.map fun e => e.2.tally).sum = s.total.tally) ∧
    ∀ es, es.Perm s.entries → Summary.ranked es = s.hottest := by
  intro s
  have hs : s = m.summary g.toList := hm g
  have hranks : s.Ranks g.toList s.hottest := hs ▸ m.ranks_hottest g.toList
  refine ⟨fun es => ⟨fun h => h.unique hranks, fun h => h ▸ hranks⟩, ?_, fun hfits => ?_, ?_⟩
  · have hcategory : ∀ c, id (s.category c) = m.figures (c.members g.toList) :=
      hs ▸ m.category_summary g.toList
    have htotal : s.total = m.figures g.toList := hs ▸ m.total_summary g.toList
    rw [htotal]
    exact hranks.sum_eq rfl m.figures_append hcategory
  · have htotal : s.total.tally = m.tally g.toList := hs ▸ hfits.tally_total
    rw [htotal]
    exact hranks.sum_eq rfl m.tally_append (hs ▸ hfits.tally_category)
  · intro es h
    have hkeyed : Summary.Keyed s.entries := hs ▸ m.keyed_summary g.toList
    exact (hkeyed.ranked_eq h.symm).symm

theorem hottest_of_tied_categories :
    let g := (Graph.skeleton.run [.add .phi [], .parameter 0, .math .log ⟨3⟩, .constInt 5]).2
    let s := Generic.model.summarize g
    Generic.model.Fits g.toList ∧
      s.hottest = [(.intrinsic, ⟨1, 8, 2⟩), (.constant, ⟨2, 0, 0⟩), (.control, ⟨2, 0, 0⟩),
        (.phi, ⟨1, 0, 0⟩)] ∧
      (s.hottest.map fun e => e.2.tally).sum = ⟨6, 8, 2⟩ ∧
      Summary.ranked s.entries.reverse = s.hottest := by
  intro g s
  have hfits : Generic.model.Fits g.toList := ⟨by decide, by decide⟩
  have hranks : s.Ranks g.toList [(.intrinsic, ⟨1, 8, 2⟩), (.constant, ⟨2, 0, 0⟩),
      (.control, ⟨2, 0, 0⟩), (.phi, ⟨1, 0, 0⟩)] :=
    ⟨by rw [Summary.Keyed]; decide, fun c => by cases c <;> decide, by decide, by decide⟩
  obtain ⟨hunique, -, htally, hany⟩ := hottest_ranking (m := Generic.model) (fun _ => rfl) g
  have htotal : s.total.tally = ⟨6, 8, 2⟩ := by decide
  exact ⟨hfits, ((hunique _).1 hranks).symm, (htally hfits).trans htotal,
    hany _ (List.reverse_perm _)⟩

end CostModel

end NodeCost
