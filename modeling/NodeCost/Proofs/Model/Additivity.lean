import NodeCost.Model.Amd64
import NodeCost.Proofs.Model.Ranking
import NodeCost.Proofs.Model.Tally

namespace NodeCost

namespace Pricing

def bill (p : Pricing) (n : Node) : Category × Cycles × Size :=
  (n.op.category, p.cycles n, p.size n)

section
variable {p : Pricing} {xs ys : List Node} (h : (xs.map p.bill).Perm (ys.map p.bill))
include h

theorem figures_eq_of_perm : p.figures xs = p.figures ys := by
  have hnodes : xs.length = ys.length := by simpa using h.length_eq
  have hcycles : (xs.map p.cycles).Perm (ys.map p.cycles) := by
    simpa [Function.comp_def, bill] using h.map fun b => b.2.1
  have hsize : (xs.map p.size).Perm (ys.map p.size) := by
    simpa [Function.comp_def, bill] using h.map fun b => b.2.2
  exact Figures.ext hnodes (Tier.total_congr (Tier.exactTotal_eq_of_perm hcycles))
    (Tier.total_congr (Tier.exactTotal_eq_of_perm hsize))

theorem members_perm (c : Category) :
    ((c.members xs).map p.bill).Perm ((c.members ys).map p.bill) := by
  have hmap : ∀ nodes : List Node,
      (nodes.map p.bill).filter (fun b => b.1 = c) = (c.members nodes).map p.bill :=
    fun _ => List.filter_map
  rw [← hmap, ← hmap]
  exact h.filter _

theorem perm_entries_summary : (p.summary xs).entries.Perm (p.summary ys).entries := by
  refine (p.keyed_summary xs).perm (p.keyed_summary ys) fun c => ?_
  have hmembers := members_perm h c
  have hlength : (c.members xs).length = (c.members ys).length := by
    simpa using hmembers.length_eq
  have hnil : c.members xs = [] ↔ c.members ys = [] := by
    rw [← List.length_eq_zero_iff, hlength, List.length_eq_zero_iff]
  rw [lookup_summary, lookup_summary, figures_eq_of_perm hmembers]
  simp only [hnil]

end

theorem category_summary_append_singleton (p : Pricing) (nodes : List Node) {n : Node}
    {c : Category} (hc : c ≠ n.op.category) :
    (p.summary (nodes ++ [n])).category c = (p.summary nodes).category c := by
  rw [summary_append_singleton, recordNode, Summary.category_record, if_neg hc]

end Pricing

namespace CostModel

/-- Nothing that a model says of graphs tells the two apart, whatever order the entries of their
summaries come in. -/
structure Alike (m : CostModel) (g h : Graph) : Prop where
  graphCycles : m.graphCycles g = m.graphCycles h
  graphSize : m.graphSize g = m.graphSize h
  total : (m.summarize g).total = (m.summarize h).total
  category : ∀ c, (m.summarize g).category c = (m.summarize h).category c
  hottest : (m.summarize g).hottest = (m.summarize h).hottest
  ranked : ∀ es fs, es.Perm (m.summarize g).entries → fs.Perm (m.summarize h).entries →
    Summary.ranked es = Summary.ranked fs

/-- What a model says of a graph is the sum of what it says of two lists of nodes. -/
structure Splits (m : CostModel) (g : Graph) (xs ys : List Node) : Prop where
  graphCycles : (m.graphCycles g).toNat = (m.totalCycles xs).toNat + (m.totalCycles ys).toNat
  graphSize : (m.graphSize g).toNat = (m.totalSize xs).toNat + (m.totalSize ys).toNat
  total : (m.summarize g).total.tally = (m.summary xs).total.tally + (m.summary ys).total.tally
  category : ∀ c, ((m.summarize g).category c).tally =
    ((m.summary xs).category c).tally + ((m.summary ys).category c).tally

/-- From `g` to `h` the totals and one category rise by the tiers of a node, and nothing else. -/
structure Raises (m : CostModel) (g h : Graph) (n : Node) : Prop where
  graphCycles : (m.graphCycles h).toNat = (m.graphCycles g).toNat + (m.cycles n).value
  graphSize : (m.graphSize h).toNat = (m.graphSize g).toNat + (m.size n).value
  total : (m.summarize h).total.tally =
    (m.summarize g).total.tally + ⟨1, (m.cycles n).value, (m.size n).value⟩
  category : ((m.summarize h).category n.op.category).tally =
    ((m.summarize g).category n.op.category).tally + ⟨1, (m.cycles n).value, (m.size n).value⟩
  other : ∀ c, c ≠ n.op.category → (m.summarize h).category c = (m.summarize g).category c

theorem alike_of_perm {p : Pricing} {g h : Graph}
    (hb : (g.toList.map p.bill).Perm (h.toList.map p.bill)) (name : String) :
    (p.named name).Alike g h := by
  have hfigures := Pricing.figures_eq_of_perm hb
  have hentries := Pricing.perm_entries_summary hb
  have hranked : ∀ es fs, es.Perm (p.summary g.toList).entries →
      fs.Perm (p.summary h.toList).entries → Summary.ranked es = Summary.ranked fs := by
    intro es fs he hf
    have hkeyed : Summary.Keyed es := (he.map Prod.fst).nodup_iff.2 (p.keyed_summary g.toList)
    exact hkeyed.ranked_eq (he.trans (hentries.trans hf.symm))
  exact {
    graphCycles := congrArg Figures.cycles hfigures
    graphSize := congrArg Figures.size hfigures
    total := (p.total_summary _).trans (hfigures.trans (p.total_summary _).symm)
    category := fun c => by
      have hc := Pricing.figures_eq_of_perm (Pricing.members_perm hb c)
      exact (p.category_summary _ c).trans (hc.trans (p.category_summary _ c).symm)
    hottest := hranked _ _ (.refl _) (.refl _)
    ranked := hranked }

theorem alike_of_perm_op {p : Pricing} (hp : ∀ n, p.bill n = p.bill { op := n.op })
    {g h : Graph} (ho : (g.toList.map Node.op).Perm (h.toList.map Node.op)) (name : String) :
    (p.named name).Alike g h := by
  apply alike_of_perm
  have hmap : ∀ nodes : List Node,
      (nodes.map Node.op).map (fun op => p.bill { op }) = nodes.map p.bill := by
    intro nodes
    rw [List.map_map]
    exact List.map_congr_left fun n _ => (hp n).symm
  rw [← hmap, ← hmap]
  exact ho.map _

theorem splits_of_append {p : Pricing} {g : Graph} {xs ys : List Node}
    (hg : g.toList = xs ++ ys) (hfits : p.Fits g.toList) (name : String) :
    (p.named name).Splits g xs ys := by
  rw [hg] at hfits
  have htotal := hfits.tally_total_append
  have hcategory := hfits.tally_category_append
  rw [← hg] at htotal hcategory
  have hfigures : (p.figures g.toList).tally = (p.figures xs).tally + (p.figures ys).tally := by
    simpa only [p.total_summary] using htotal
  exact ⟨congrArg Tally.cycles hfigures, congrArg Tally.size hfigures, htotal, hcategory⟩

theorem raises_of_add {p : Pricing} {g : Graph} {op : Operator} {inputs : List NodeId}
    (hfits : p.Fits (g.add op inputs).2.toList) (name : String) :
    (p.named name).Raises g (g.add op inputs).2 ⟨op, inputs⟩ := by
  have hlist := g.toList_add op inputs
  have hsplit := splits_of_append hlist hfits name
  rw [hlist] at hfits
  have hone := hfits.right.tally_figures.trans (p.tally_singleton ⟨op, inputs⟩)
  have hown : (p.summary [⟨op, inputs⟩]).category op.category = p.figures [⟨op, inputs⟩] := by
    rw [p.category_summary, Category.members_singleton, if_pos rfl]
  refine ⟨?_, ?_, ?_, ?_, fun c hc => ?_⟩
  · rw [hsplit.graphCycles]
    exact congrArg _ (congrArg Tally.cycles hone)
  · rw [hsplit.graphSize]
    exact congrArg _ (congrArg Tally.size hone)
  · rw [hsplit.total]
    exact congrArg _ ((congrArg Figures.tally (p.total_summary _)).trans hone)
  · rw [hsplit.category]
    exact congrArg _ ((congrArg Figures.tally hown).trans hone)
  · have hother := p.category_summary_append_singleton g.toList (n := ⟨op, inputs⟩) hc
    rw [← hlist] at hother
    exact hother

/-- Sums and summaries do not depend on the order of the nodes, nor on their inputs where the
model does not, and they are additive in the nodes. -/
theorem estimates_additive :
    (∀ (p : Pricing) (name : String),
      let m := p.named name
      (∀ g h : Graph, g.toList.Perm h.toList → m.Alike g h) ∧
      (∀ (g : Graph) (xs ys : List Node), g.toList = xs ++ ys → m.Fits g.toList →
        m.Splits g xs ys) ∧
      ∀ (g : Graph) (op : Operator) (inputs : List NodeId), m.Fits (g.add op inputs).2.toList →
        m.Raises g (g.add op inputs).2 ⟨op, inputs⟩) ∧
    ∀ g h : Graph, (g.toList.map Node.op).Perm (h.toList.map Node.op) →
      Generic.model.Alike g h ∧ ∀ a : Amd64, a.model.Alike g h := by
  refine ⟨fun p name => ⟨?_, ?_, ?_⟩, fun g h ho => ⟨?_, fun a => ?_⟩⟩
  · intro g h hp
    exact alike_of_perm (hp.map p.bill) name
  · intro g xs ys hg hfits
    exact splits_of_append hg hfits name
  · intro g op inputs hfits
    exact raises_of_add hfits name
  · exact alike_of_perm_op (fun _ => rfl) ho "generic"
  · exact alike_of_perm_op (p := a.model.toPricing) (fun _ => rfl) ho "amd64"

theorem alike_of_other_inputs :
    let g := (Graph.skeleton.run [.math .log ⟨0⟩, .constInt 4, .ret ⟨0⟩ ⟨2⟩]).2
    let h := (Graph.skeleton.run [.ret ⟨7⟩ ⟨8⟩, .math .log ⟨9⟩, .constInt 4]).2
    let m := ({ avx2 := true, sse41 := false } : Amd64).model
    (g.toList.map Node.op).Perm (h.toList.map Node.op) ∧ m.Fits (g.add .len []).2.toList ∧
      (m.summarize g).hottest = (m.summarize h).hottest ∧
      (m.graphCycles (g.add .len []).2).toNat = (m.graphCycles g).toNat + 4 ∧
      m.Splits (g.add .len []).2 g.toList [⟨.len, []⟩] := by
  intro g h m
  have ho : (g.toList.map Node.op).Perm (h.toList.map Node.op) := by decide
  have hfits : m.Fits (g.add .len []).2.toList := ⟨by decide, by decide⟩
  obtain ⟨-, hsplits, hraises⟩ := estimates_additive.1 m.toPricing "amd64"
  exact ⟨ho, hfits, ((estimates_additive.2 g h ho).2 _).hottest, (hraises g .len [] hfits).graphCycles,
    hsplits _ _ _ (g.toList_add .len []) hfits⟩

end CostModel

end NodeCost
