import NodeCost.Graph.Call
import NodeCost.Model.Amd64
import NodeCost.Proofs.Model.Totals

namespace NodeCost

/-- Operators for which nothing is run: a value is there already or is only selected, or the flow of
control passes a joint. -/
def Operator.Free (op : Operator) : Prop :=
  op.category ∈ [Category.constant, .projection, .phi] ∨
    op ∈ [Operator.control .start, .control .finish, .control .region, .control .loop]

instance (op : Operator) : Decidable op.Free := inferInstanceAs (Decidable (_ ∨ _))

namespace Generic

theorem cycles_eq_zero_iff (op : Operator) : Generic.cycles op = .zero ↔ op.Free := by
  cases op with
  | intOp op | floatOp op | memory op | control op => cases op <;> decide
  | call kind => cases kind <;> decide
  | _ => simp [Generic.cycles, defaultCycles, Operator.Free, Operator.category]

theorem size_eq_zero_iff (op : Operator) : Generic.size op = .zero ↔ op.Free := by
  cases op with
  | intOp op | floatOp op | memory op | control op => cases op <;> decide
  | call kind => cases kind <;> decide
  | _ => simp [Generic.size, defaultSize, Operator.Free, Operator.category]

end Generic

namespace Amd64

theorem cycles_eq_zero_iff (m : Amd64) (op : Operator) : m.cycles op = .zero ↔ op.Free := by
  rw [← Generic.cycles_eq_zero_iff]
  cases op with
  | mathIntrinsic f =>
    rw [Amd64.cycles]
    split <;> simp [Generic.cycles]
  | control op =>
    cases op <;> simp [Amd64.cycles, Generic.cycles, Generic.controlCycles, Generic.defaultCycles]
  | arrayEquals kind =>
    rw [Amd64.cycles]
    split
    · simp [Generic.cycles]
    · split <;> simp [Generic.cycles]
  | _ => rfl

theorem size_eq_zero_iff (op : Operator) : Amd64.size op = .zero ↔ op.Free := by
  rw [← Generic.size_eq_zero_iff]
  cases op with
  | mathIntrinsic f =>
    rw [Amd64.size]
    split <;> simp [Generic.size]
  | control op => cases op <;> decide
  | _ => rfl

end Amd64

namespace Pricing

structure Frees (p : Pricing) : Prop where
  cycles_iff : ∀ n, p.cycles n = .zero ↔ n.op.Free
  size_iff : ∀ n, p.size n = .zero ↔ n.op.Free

def paid (nodes : List Node) : List Node := nodes.filter fun n => ¬ n.op.Free

theorem paid_append_of_free (xs : List Node) {ys : List Node} (h : ∀ n ∈ ys, n.op.Free) :
    paid (xs ++ ys) = paid xs := by
  have hys : paid ys = [] := by
    rw [paid, List.filter_eq_nil_iff]
    intro n hn
    simpa using h n hn
  rw [paid, List.filter_append]
  exact (congrArg (paid xs ++ ·) hys).trans (List.append_nil _)

section

variable {T : Type} [Tier T] {f : Node → T} {zero : T} (h : ∀ n, f n = zero ↔ n.op.Free)
  (hzero : Tier.value zero = 0)
include h hzero

theorem value_eq_zero_iff (n : Node) : Tier.value (f n) = 0 ↔ n.op.Free := by
  rw [← hzero, Tier.value_inj]
  exact h n

theorem total_paid (nodes : List Node) : Tier.total f (paid nodes) = Tier.total f nodes := by
  apply Tier.total_filter
  intro n hn
  have hfree : n.op.Free := by simpa using hn
  exact (value_eq_zero_iff h hzero n).2 hfree

theorem total_eq_of_paid_eq {xs ys : List Node} (he : paid xs = paid ys) :
    Tier.total f xs = Tier.total f ys := by
  rw [← total_paid h hzero, he, total_paid h hzero]

theorem total_eq_zero_iff {nodes : List Node} (hfits : Tier.exactTotal f nodes < UInt64.size) :
    Tier.total f nodes = 0 ↔ ∀ n ∈ nodes, n.op.Free := by
  rw [Tier.total_eq_zero_iff hfits]
  exact forall₂_congr fun n _ => value_eq_zero_iff h hzero n

end

end Pricing

theorem Generic.frees : Generic.model.Frees :=
  ⟨fun n => cycles_eq_zero_iff n.op, fun n => size_eq_zero_iff n.op⟩

theorem Amd64.frees (m : Amd64) : m.model.Frees :=
  ⟨fun n => m.cycles_eq_zero_iff n.op, fun n => size_eq_zero_iff n.op⟩

namespace CostModel

/-- All that a model asks for a graph or for a category it asks for nodes that are not free. -/
structure OnlyPaid (m : CostModel) (g : Graph) : Prop where
  category_free : ∀ c ∈ [Category.constant, .projection, .phi],
    ((m.summarize g).category c).cycles = 0 ∧ ((m.summarize g).category c).size = 0
  category_cycles_iff : ∀ c, ((m.summarize g).category c).cycles = 0 ↔
    ((m.summarize g).category c).size = 0
  category_size_iff : ∀ c, ((m.summarize g).category c).size = 0 ↔
    ∀ n ∈ g.toList, n.op.category = c → n.op.Free
  graphCycles_iff : m.graphCycles g = 0 ↔ m.graphSize g = 0
  graphSize_iff : m.graphSize g = 0 ↔ ∀ n ∈ g.toList, n.op.Free
  run_free : ∀ cs : List Graph.Call, (∀ c ∈ cs, c.node.op.Free) →
    m.graphCycles (g.run cs).2 = m.graphCycles g ∧ m.graphSize (g.run cs).2 = m.graphSize g
  same_paid : ∀ h : Graph, Pricing.paid h.toList = Pricing.paid g.toList →
    m.graphCycles h = m.graphCycles g ∧ m.graphSize h = m.graphSize g

theorem same_of_paid_eq {p : Pricing} (h : p.Frees) {g g' : Graph}
    (he : Pricing.paid g.toList = Pricing.paid g'.toList) (name : String) :
    (p.named name).graphCycles g = (p.named name).graphCycles g' ∧
      (p.named name).graphSize g = (p.named name).graphSize g' :=
  ⟨Pricing.total_eq_of_paid_eq h.cycles_iff rfl he, Pricing.total_eq_of_paid_eq h.size_iff rfl he⟩

theorem onlyPaid_named {p : Pricing} (h : p.Frees) {g : Graph} (hfits : p.Fits g.toList)
    (name : String) : (p.named name).OnlyPaid g := by
  have hmem : ∀ c, (∀ n ∈ c.members g.toList, n.op.Free) ↔
      ∀ n ∈ g.toList, n.op.category = c → n.op.Free := by
    intro c
    simp only [Category.members, List.mem_filter, decide_eq_true_eq, and_imp]
  have hfigures : ∀ c, ((p.named name).summarize g).category c = p.figures (c.members g.toList) :=
    p.category_summary g.toList
  have hcycles : ∀ c, (((p.named name).summarize g).category c).cycles = 0 ↔
      ∀ n ∈ g.toList, n.op.category = c → n.op.Free := by
    intro c
    rw [hfigures, ← hmem]
    exact Pricing.total_eq_zero_iff h.cycles_iff rfl (hfits.members c).cycles
  have hsize : ∀ c, (((p.named name).summarize g).category c).size = 0 ↔
      ∀ n ∈ g.toList, n.op.category = c → n.op.Free := by
    intro c
    rw [hfigures, ← hmem]
    exact Pricing.total_eq_zero_iff h.size_iff rfl (hfits.members c).size
  have hgraph : (p.named name).graphSize g = 0 ↔ ∀ n ∈ g.toList, n.op.Free :=
    Pricing.total_eq_zero_iff h.size_iff rfl hfits.size
  refine ⟨?_, fun c => (hcycles c).trans (hsize c).symm, hsize, ?_, hgraph, ?_, ?_⟩
  · intro c hc
    have hfree : ∀ n ∈ g.toList, n.op.category = c → n.op.Free :=
      fun n _ hn => Or.inl (hn ▸ hc)
    exact ⟨(hcycles c).2 hfree, (hsize c).2 hfree⟩
  · exact (Pricing.total_eq_zero_iff h.cycles_iff rfl hfits.cycles).trans hgraph.symm
  · intro cs hcs
    apply same_of_paid_eq h
    rw [Graph.toList_run]
    exact Pricing.paid_append_of_free g.toList (List.forall_mem_map.2 hcs)
  · exact fun g' he => same_of_paid_eq h he name

/-- Both tables draw one line between what is free and what is not, and so do the two sums over a
graph and over each of its categories. -/
theorem free_alike :
    Generic.model.Frees ∧ (∀ t : Target, (Amd64.ofTarget t).model.Frees) ∧
    (∀ g : Graph, Generic.model.Fits g.toList → Generic.model.OnlyPaid g) ∧
    ∀ (t : Target) (g : Graph), (Amd64.ofTarget t).model.Fits g.toList →
      (Amd64.ofTarget t).model.OnlyPaid g := by
  refine ⟨Generic.frees, fun t => (Amd64.ofTarget t).frees, fun g hfits => ?_, fun t g hfits => ?_⟩
  · exact onlyPaid_named Generic.frees hfits "generic"
  · exact onlyPaid_named (Amd64.ofTarget t).frees hfits "amd64"

theorem free_alike_of_logarithm :
    let m := (Amd64.ofTarget { arch := .x86_64, features := .ofList [.avx2] }).model
    let g := (Graph.skeleton.run [.parameter 0, .math .log ⟨2⟩]).2
    let cs : List Graph.Call := [.constInt (-7), .add .phi [⟨2⟩, ⟨4⟩], .add (.control .loop) []]
    m.Fits g.toList ∧ (∀ c ∈ cs, c.node.op.Free) ∧ m.graphCycles g = 15 ∧
      m.graphCycles (g.run cs).2 = m.graphCycles g ∧ m.graphSize g ≠ 0 ∧
      ((m.summarize g).category .constant).size = 0 := by
  intro m g cs
  have hfits : m.Fits g.toList := ⟨by decide, by decide⟩
  have hcs : ∀ c ∈ cs, c.node.op.Free := by decide
  obtain ⟨-, -, -, hamd64⟩ := free_alike
  have hg : m.OnlyPaid g := hamd64 _ g hfits
  refine ⟨hfits, hcs, by decide, (hg.run_free cs hcs).1, ?_, ?_⟩
  · rw [ne_eq, hg.graphSize_iff]
    decide
  · exact (hg.category_free .constant (by decide)).2

end CostModel

end NodeCost
