import Mathlib.Algebra.BigOperators.Group.List.Basic
import Mathlib.Data.List.Nodup
import NodeCost.Graph.Call
import NodeCost.Proofs.Model.Totals

namespace NodeCost

@[ext]
structure Tally where
  nodes : Nat
  cycles : Nat
  size : Nat
deriving DecidableEq, Repr

namespace Tally

instance : Zero Tally := ⟨⟨0, 0, 0⟩⟩

instance : Add Tally := ⟨fun a b => ⟨a.nodes + b.nodes, a.cycles + b.cycles, a.size + b.size⟩⟩

instance : AddCommMonoid Tally where
  add_assoc _ _ _ := Tally.ext (Nat.add_assoc ..) (Nat.add_assoc ..) (Nat.add_assoc ..)
  zero_add _ := Tally.ext (Nat.zero_add _) (Nat.zero_add _) (Nat.zero_add _)
  add_zero _ := rfl
  add_comm _ _ := Tally.ext (Nat.add_comm ..) (Nat.add_comm ..) (Nat.add_comm ..)
  nsmul := nsmulRec

end Tally

attribute [ext] Figures

namespace Figures

instance : Zero Figures := ⟨{}⟩

instance : Add Figures := ⟨fun f g => ⟨f.nodes + g.nodes, f.cycles + g.cycles, f.size + g.size⟩⟩

instance : AddCommMonoid Figures where
  add_assoc _ _ _ := Figures.ext (Nat.add_assoc ..) (UInt64.add_assoc ..) (UInt64.add_assoc ..)
  zero_add _ := Figures.ext (Nat.zero_add _) (UInt64.zero_add _) (UInt64.zero_add _)
  add_zero _ := Figures.ext (Nat.add_zero _) (UInt64.add_zero _) (UInt64.add_zero _)
  add_comm _ _ := Figures.ext (Nat.add_comm ..) (UInt64.add_comm ..) (UInt64.add_comm ..)
  nsmul := nsmulRec

def tally (f : Figures) : Tally := ⟨f.nodes, f.cycles.toNat, f.size.toNat⟩

end Figures

def Tally.figures (t : Tally) : Figures := ⟨t.nodes, .ofNat t.cycles, .ofNat t.size⟩

theorem Tally.figures_add (s t : Tally) : (s + t).figures = s.figures + t.figures :=
  Figures.ext rfl (UInt64.ofNat_add ..) (UInt64.ofNat_add ..)

namespace Category

/-- The categories split the nodes: what is additive in the nodes adds up over any list that has
each of their categories once. -/
theorem sum_members {M : Type} [AddCommMonoid M] {f : List Node → M} (hnil : f [] = 0)
    (happend : ∀ xs ys, f (xs ++ ys) = f xs + f ys) {cs : List Category} (hcs : cs.Nodup)
    {nodes : List Node} (h : ∀ n ∈ nodes, n.op.category ∈ cs) :
    (cs.map fun c => f (c.members nodes)).sum = f nodes := by
  induction nodes with
  | nil => simp [members, hnil]
  | cons n nodes ih =>
    obtain ⟨hn, hnodes⟩ := List.forall_mem_cons.1 h
    -- One more node adds itself to the part of its own category and nothing to any other.
    have hcons : ∀ c : Category, f (c.members (n :: nodes)) =
        f (c.members [n]) + f (c.members nodes) := fun c => by
      rw [← happend, ← members_append, List.singleton_append]
    have hother : ∀ c, c ≠ n.op.category → c ∈ cs → f (c.members [n]) = 0 := by
      intro c hc _
      rw [members_singleton, if_neg (Ne.symm hc), hnil]
    have hone : cs.count n.op.category = 1 := List.count_eq_one_of_mem hcs hn
    rw [List.map_congr_left fun c _ => hcons c, List.sum_map_add, ih hnodes,
      List.sum_map_eq_nsmul_single _ _ hother, hone, one_nsmul, members_singleton, if_pos rfl,
      ← happend, List.singleton_append]

end Category

namespace Pricing

def tally (p : Pricing) (nodes : List Node) : Tally :=
  ⟨nodes.length, p.exactCycles nodes, p.exactSize nodes⟩

theorem tally_singleton (p : Pricing) (n : Node) :
    p.tally [n] = ⟨1, (p.cycles n).value, (p.size n).value⟩ := rfl

theorem tally_append (p : Pricing) (xs ys : List Node) :
    p.tally (xs ++ ys) = p.tally xs + p.tally ys := by
  apply Tally.ext
  · exact List.length_append
  · exact Tier.exactTotal_append p.cycles xs ys
  · exact Tier.exactTotal_append p.size xs ys

theorem figures_eq_figures_tally (p : Pricing) (nodes : List Node) :
    p.figures nodes = (p.tally nodes).figures :=
  Figures.ext rfl (Tier.total_eq p.cycles nodes) (Tier.total_eq p.size nodes)

theorem figures_append (p : Pricing) (xs ys : List Node) :
    p.figures (xs ++ ys) = p.figures xs + p.figures ys := by
  simp only [figures_eq_figures_tally, tally_append, Tally.figures_add]

theorem Fits.tally_figures {p : Pricing} {nodes : List Node} (h : p.Fits nodes) :
    (p.figures nodes).tally = p.tally nodes :=
  Tally.ext rfl (Tier.toNat_total h.cycles) (Tier.toNat_total h.size)

theorem Fits.tally_total {p : Pricing} {nodes : List Node} (h : p.Fits nodes) :
    (p.summary nodes).total.tally = p.tally nodes := by
  rw [total_summary, h.tally_figures]

theorem Fits.tally_category {p : Pricing} {nodes : List Node} (h : p.Fits nodes) (c : Category) :
    ((p.summary nodes).category c).tally = p.tally (c.members nodes) := by
  rw [category_summary, (h.members c).tally_figures]

section
variable {p : Pricing} {xs ys : List Node} (h : p.Fits (xs ++ ys))
include h

theorem Fits.left : p.Fits xs := h.of_sublist (List.sublist_append_left xs ys)

theorem Fits.right : p.Fits ys := h.of_sublist (List.sublist_append_right xs ys)

theorem Fits.tally_total_append : (p.summary (xs ++ ys)).total.tally =
    (p.summary xs).total.tally + (p.summary ys).total.tally := by
  rw [h.tally_total, h.left.tally_total, h.right.tally_total, tally_append]

theorem Fits.tally_category_append (c : Category) : ((p.summary (xs ++ ys)).category c).tally =
    ((p.summary xs).category c).tally + ((p.summary ys).category c).tally := by
  rw [h.tally_category, h.left.tally_category, h.right.tally_category, Category.members_append,
    tally_append]

end

theorem sum_tally_members (p : Pricing) (nodes : List Node) :
    (Category.all.map fun c => p.tally (c.members nodes)).sum = p.tally nodes := by
  have hall : Category.all.Nodup := by decide
  exact Category.sum_members rfl p.tally_append hall fun n _ => n.op.category.mem_all

theorem category_summary_of_absent (p : Pricing) {nodes : List Node} {c : Category}
    (h : ∀ n ∈ nodes, n.op.category ≠ c) : (p.summary nodes).category c = {} := by
  have hmembers : c.members nodes = [] := by
    rw [Category.members, List.filter_eq_nil_iff]
    intro n hn hc
    exact h n hn (of_decide_eq_true hc)
  rw [category_summary, hmembers]
  rfl

end Pricing

namespace CostModel

/-- A summary loses no node and counts none twice: what it says of each category is what is true of
the nodes of this category, and over the categories this adds up to the totals, which are the
answers for the whole graph. -/
theorem summarize_breakdown {p : Pricing} {g : Graph} (h : p.Fits g.toList) (name : String) :
    let m := p.named name
    let s := m.summarize g
    s.total.nodes = g.size ∧ s.total.cycles = m.graphCycles g ∧ s.total.size = m.graphSize g ∧
    s.total.tally = p.tally g.toList ∧
    (∀ c : Category, (s.category c).tally = p.tally (c.members g.toList)) ∧
    (∀ c : Category, (∀ n ∈ g.toList, n.op.category ≠ c) → s.category c = {}) ∧
    (Category.all.map fun c => (s.category c).tally).sum = s.total.tally := by
  intro m s
  have htotal : s.total = p.figures g.toList := p.total_summary g.toList
  have hcategory : ∀ c, (s.category c).tally = p.tally (c.members g.toList) := h.tally_category
  refine ⟨?_, congrArg Figures.cycles htotal, congrArg Figures.size htotal, h.tally_total,
    hcategory, fun c => p.category_summary_of_absent, ?_⟩
  · rw [htotal]
    exact g.length_toList
  · rw [List.map_congr_left fun c _ => hcategory c, p.sum_tally_members]
    exact h.tally_total.symm

theorem breakdown_of_two_categories :
    let p : Pricing :=
      { cycles := fun n => if n.op.category = .constant then .fiveHundred else .one
        size := fun n => if n.inputs.isEmpty then .zero else .forty }
    let g := (Graph.skeleton.run [.parameter 0, .constInt 5, .ret ⟨1⟩ ⟨2⟩]).2
    let s := (p.named "custom").summarize g
    p.Fits g.toList ∧ (s.category .constant).tally = ⟨2, 1000, 0⟩ ∧
      (s.category .control).tally = ⟨3, 3, 80⟩ ∧ s.category .phi = {} ∧
      s.total.tally = ⟨5, 1003, 80⟩ := by
  intro p g s
  have hfits : p.Fits g.toList := ⟨by decide, by decide⟩
  obtain ⟨-, -, -, htotal, hcategory, habsent, -⟩ := summarize_breakdown hfits "custom"
  refine ⟨hfits, (hcategory .constant).trans ?_, (hcategory .control).trans ?_, habsent .phi ?_,
    htotal.trans ?_⟩
  · decide
  · decide
  · decide
  · decide

end CostModel

end NodeCost
