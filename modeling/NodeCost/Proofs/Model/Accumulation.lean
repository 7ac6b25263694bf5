import NodeCost.Model.Amd64
import NodeCost.Proofs.Model.Ranking
import NodeCost.Proofs.Model.Tally

namespace NodeCost

/-- For each of `n` nodes the sums may grow by so much. -/
structure Tally.Within (t : Tally) (cycles size n : Nat) : Prop where
  cycles_le : t.cycles ≤ cycles * n
  size_le : t.size ≤ size * n

namespace Pricing

structure Capped (p : Pricing) (cycles size : Nat) : Prop where
  cycles_le : ∀ n, (p.cycles n).value ≤ cycles
  size_le : ∀ n, (p.size n).value ≤ size

theorem capped (p : Pricing) : p.Capped 500 200 :=
  ⟨fun n => Tier.value_le (p.cycles n), fun n => Tier.value_le (p.size n)⟩

section

variable {p : Pricing} {cycles size : Nat} (h : p.Capped cycles size)
include h

theorem Capped.tally_within (nodes : List Node) :
    (p.tally nodes).Within cycles size nodes.length :=
  ⟨Tier.exactTotal_le h.cycles_le nodes, Tier.exactTotal_le h.size_le nodes⟩

theorem Capped.tally_within_of_sublist {xs ys : List Node} (hs : xs.Sublist ys) :
    (p.tally xs).Within cycles size ys.length := by
  have hxs := h.tally_within xs
  exact ⟨hxs.cycles_le.trans (Nat.mul_le_mul_left _ hs.length_le),
    hxs.size_le.trans (Nat.mul_le_mul_left _ hs.length_le)⟩

end

theorem fits_of_length_le (p : Pricing) {nodes : List Node} (h : nodes.length ≤ UInt32.size) :
    p.Fits nodes :=
  ⟨Tier.exactTotal_lt p.cycles h, Tier.exactTotal_lt p.size h⟩

def cyclesPass (p : Pricing) (nodes : List Node) : List UInt64 := Tier.pass p.cycles nodes

def sizePass (p : Pricing) (nodes : List Node) : List UInt64 := Tier.pass p.size nodes

def summaryPass (p : Pricing) (nodes : List Node) : List Summary := nodes.scanl p.recordNode {}

theorem eq_summary_take {p : Pricing} {nodes : List Node} {i : Nat} {s : Summary}
    (h : (p.summaryPass nodes)[i]? = some s) : s = p.summary (nodes.take i) :=
  eq_foldl_take h

/-- On the way through the nodes every sum, as a word, is the exact sum over the nodes seen so far,
and it stays within the caps for all the nodes. -/
structure ExactPasses (p : Pricing) (cycles size : Nat) (nodes : List Node) : Prop where
  cycles_exact : ∀ (i : Nat) (w : UInt64), (p.cyclesPass nodes)[i]? = some w →
    w.toNat = p.exactCycles (nodes.take i) ∧ w.toNat ≤ cycles * nodes.length
  size_exact : ∀ (i : Nat) (w : UInt64), (p.sizePass nodes)[i]? = some w →
    w.toNat = p.exactSize (nodes.take i) ∧ w.toNat ≤ size * nodes.length
  total_exact : ∀ (i : Nat) (s : Summary), (p.summaryPass nodes)[i]? = some s →
    s.total.tally = p.tally (nodes.take i) ∧ s.total.tally.Within cycles size nodes.length
  category_exact : ∀ (i : Nat) (s : Summary), (p.summaryPass nodes)[i]? = some s →
    ∀ c : Category, (s.category c).tally = p.tally (c.members (nodes.take i)) ∧
      (s.category c).tally.Within cycles size nodes.length
  entries_exact : ∀ (i : Nat) (s : Summary), (p.summaryPass nodes)[i]? = some s →
    ∀ e ∈ s.entries, e.2 = s.category e.1

theorem Capped.exactPasses {p : Pricing} {cycles size : Nat} (h : p.Capped cycles size)
    {nodes : List Node} (hn : nodes.length ≤ UInt32.size) :
    p.ExactPasses cycles size nodes := by
  have htake : ∀ i, (nodes.take i).Sublist nodes := fun i => List.take_sublist i nodes
  have hfits : ∀ i, p.Fits (nodes.take i) := fun i =>
    (p.fits_of_length_le hn).of_sublist (htake i)
  refine ⟨fun i w => Tier.pass_exact h.cycles_le hn, fun i w => Tier.pass_exact h.size_le hn,
    ?_, ?_, ?_⟩
  · intro i s hs
    rw [eq_summary_take hs, (hfits i).tally_total]
    exact ⟨rfl, h.tally_within_of_sublist (htake i)⟩
  · intro i s hs c
    rw [eq_summary_take hs, (hfits i).tally_category]
    exact ⟨rfl, h.tally_within_of_sublist (List.filter_sublist.trans (htake i))⟩
  · intro i s hs e he
    rw [eq_summary_take hs] at he ⊢
    exact ((p.keyed_summary _).category_eq he).symm

end Pricing

theorem Generic.cycles_le (op : Operator) : (Generic.cycles op).value ≤ 100 := by
  cases op with
  | intOp op | floatOp op | memory op | control op => cases op <;> decide
  | call kind => cases kind <;> decide
  | _ => exact Nat.le_of_ble_eq_true rfl

theorem Generic.size_le (op : Operator) : (Generic.size op).value ≤ 20 := by
  cases op with
  | intOp op | floatOp op | memory op | control op => cases op <;> decide
  | call kind => cases kind <;> decide
  | _ => exact Nat.le_of_ble_eq_true rfl

theorem Generic.capped : Generic.model.Capped 100 20 :=
  ⟨fun n => cycles_le n.op, fun n => size_le n.op⟩

theorem Amd64.cycles_le (m : Amd64) (op : Operator) : (m.cycles op).value ≤ 100 := by
  rw [Amd64.cycles.eq_def]
  split
  · split
    · decide
    · exact Generic.cycles_le _
  · decide
  · split
    · decide
    · split
      · decide
      · exact Generic.cycles_le _
  · exact Generic.cycles_le _

theorem Amd64.size_le (op : Operator) : (Amd64.size op).value ≤ 30 := by
  have hgeneric : ∀ op, (Generic.size op).value ≤ 30 := fun op =>
    (Generic.size_le op).trans (by decide)
  rw [Amd64.size.eq_def]
  split
  · split
    · decide
    · exact hgeneric _
  · decide
  · exact hgeneric _

theorem Amd64.capped (m : Amd64) : m.model.Capped 100 30 :=
  ⟨fun n => m.cycles_le n.op, fun n => size_le n.op⟩

namespace CostModel

/-- The passes of a model over a graph are exact, and they end with its answers. -/
structure SumsExactly (m : CostModel) (cycles size : Nat) (g : Graph) : Prop
    extends m.toPricing.ExactPasses cycles size g.toList where
  graphCycles_eq : (m.cyclesPass g.toList).getLast? = some (m.graphCycles g)
  graphSize_eq : (m.sizePass g.toList).getLast? = some (m.graphSize g)
  summarize_eq : (m.summaryPass g.toList).getLast? = some (m.summarize g)

theorem sumsExactly_named {p : Pricing} {cycles size : Nat} (h : p.Capped cycles size) {g : Graph}
    (hg : g.size ≤ UInt32.size) (name : String) : (p.named name).SumsExactly cycles size g where
  toExactPasses := h.exactPasses (g.length_toList.symm ▸ hg)
  graphCycles_eq := Tier.getLast?_pass p.cycles g.toList
  graphSize_eq := Tier.getLast?_pass p.size g.toList
  summarize_eq := List.getLast?_scanl

/-- No sum overflows on the way through a graph whose nodes 32 bits can number, whatever tiers the
nodes have. The models of the library stay well below what the tiers would allow. -/
theorem passes_exact {g : Graph} (hg : g.size ≤ UInt32.size) :
    (∀ (p : Pricing) (name : String), (p.named name).SumsExactly 500 200 g) ∧
    Generic.model.SumsExactly 100 20 g ∧
    ∀ t : Target, (Amd64.ofTarget t).model.SumsExactly 100 30 g :=
  ⟨fun p => sumsExactly_named p.capped hg, sumsExactly_named Generic.capped hg _,
    fun t => sumsExactly_named (Amd64.ofTarget t).capped hg _⟩

theorem passes_exact_of_array_compare :
    let p : Pricing := { cycles := fun _ => .fiveHundred, size := fun n => Generic.size n.op }
    let t : Target := { arch := .aarch64, features := .ofList [.avx2] }
    let g := (Graph.skeleton.run [.arrayEquals .byte ⟨0⟩ ⟨0⟩ ⟨0⟩, .math .log ⟨2⟩]).2
    g.size ≤ UInt32.size ∧ p.cyclesPass g.toList = [0, 500, 1000, 1500, 2000] ∧
      p.exactCycles (g.toList.take 3) = 1500 ∧
      (Amd64.ofTarget t).model.sizePass g.toList = [0, 0, 0, 20, 50] ∧
      (Amd64.ofTarget t).model.exactSize (g.toList.take 4) = 50 ∧ 50 ≤ 30 * g.size := by
  intro p t g
  have hg : g.size ≤ UInt32.size := by decide
  obtain ⟨hany, -, hamd64⟩ := passes_exact hg
  have hcycles : p.cyclesPass g.toList = [0, 500, 1000, 1500, 2000] := by decide
  have hsize : (Amd64.ofTarget t).model.sizePass g.toList = [0, 0, 0, 20, 50] := by decide
  obtain ⟨hc, -⟩ := (hany p "custom").cycles_exact 3 1500 (by rw [Pricing.named, hcycles]; rfl)
  obtain ⟨hs, hle⟩ := (hamd64 t).size_exact 4 50 (by rw [hsize]; rfl)
  exact ⟨hg, hcycles, hc.symm, hsize, hs.symm, hle⟩

end CostModel

end NodeCost
