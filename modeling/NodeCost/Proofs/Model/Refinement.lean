import NodeCost.Graph.Call
import NodeCost.Model.Amd64
import NodeCost.Proofs.Model.Totals

namespace NodeCost

/-- How a target compares arrays: by the widest vectors that it has a compare for. -/
inductive CompareLevel where
  | scalar
  | sse41
  | avx2
deriving DecidableEq, Repr

def CompareLevel.cycles : CompareLevel → Nat
  | scalar => 100
  | sse41 => 80
  | avx2 => 50

theorem CompareLevel.cycles_le (l : CompareLevel) : l.cycles ≤ 100 := by
  cases l <;> decide

def Target.compareLevel (t : Target) : CompareLevel :=
  if t.contains .avx2 then .avx2 else if t.contains .sse41 then .sse41 else .scalar

namespace Operator

def isArrayEquals : Operator → Bool
  | arrayEquals _ => true
  | _ => false

def isLogarithm : Operator → Bool
  | mathIntrinsic .log | mathIntrinsic .log10 => true
  | _ => false

def isReturn : Operator → Bool
  | control .ret => true
  | _ => false

def count (p : Operator → Bool) (nodes : List Node) : Nat := nodes.countP fun n => p n.op

theorem category_of_isArrayEquals {op : Operator} (h : op.isArrayEquals = true) :
    op.category = .intrinsic := by
  cases op with
  | arrayEquals => rfl
  | _ => cases h

theorem category_of_isLogarithm {op : Operator} (h : op.isLogarithm = true) :
    op.category = .intrinsic := by
  cases op with
  | mathIntrinsic => rfl
  | _ => cases h

theorem category_of_isReturn {op : Operator} (h : op.isReturn = true) :
    op.category = .control := by
  cases op with
  | control => rfl
  | _ => cases h

theorem count_members {p : Operator → Bool} {c : Category}
    (h : ∀ op, p op = true → op.category = c) (d : Category) (nodes : List Node) :
    count p (d.members nodes) = if d = c then count p nodes else 0 := by
  rw [count, Category.members, List.countP_filter]
  by_cases hd : d = c
  · rw [if_pos hd]
    apply List.countP_congr
    intro n _
    have hn := h n.op
    simp only [Bool.and_eq_true, decide_eq_true_eq, hd]
    exact and_iff_left_of_imp hn
  · rw [if_neg hd, List.countP_eq_zero]
    intro n _ hn
    simp only [Bool.and_eq_true, decide_eq_true_eq] at hn
    exact hd (hn.2.symm.trans (h n.op hn.1))

end Operator

open Operator

/-- Two sums over a list differ by what is counted in it, where they do so at each of its members. -/
theorem sum_map_balance {α : Type} {f g : α → Nat} {p q r : α → Bool} {a b c : Nat}
    (h : ∀ x, f x + a * (if p x then 1 else 0) =
      g x + b * (if q x then 1 else 0) + c * (if r x then 1 else 0)) (l : List α) :
    (l.map f).sum + a * l.countP p = (l.map g).sum + b * l.countP q + c * l.countP r := by
  induction l with
  | nil => simp
  | cons x l ih =>
    have hx := h x
    simp only [List.map_cons, List.sum_cons, List.countP_cons, Nat.mul_add]
    omega

namespace Amd64

theorem cycles_arrayEquals (t : Target) (kind : ElementKind) :
    ((ofTarget t).cycles (.arrayEquals kind)).value = t.compareLevel.cycles := by
  rw [Amd64.cycles, ofTarget, Target.compareLevel]
  by_cases h₁ : t.contains .avx2 = true
  · rw [if_pos h₁, if_pos h₁]
    rfl
  · rw [if_neg h₁, if_neg h₁]
    by_cases h₂ : t.contains .sse41 = true
    · rw [if_pos h₂, if_pos h₂]
      rfl
    · rw [if_neg h₂, if_neg h₂]
      rfl

theorem cycles_balance (t : Target) (op : Operator) :
    ((ofTarget t).cycles op).value +
        (100 - t.compareLevel.cycles) * (if op.isArrayEquals then 1 else 0) =
      (Generic.cycles op).value + 7 * (if op.isLogarithm then 1 else 0) +
        4 * (if op.isReturn then 1 else 0) := by
  cases op with
  | arrayEquals kind =>
    have hk := t.compareLevel.cycles_le
    have hg : (Generic.cycles (.arrayEquals kind)).value = 100 := rfl
    rw [cycles_arrayEquals, hg]
    simp only [isArrayEquals, isLogarithm, isReturn, if_true, Bool.false_eq_true, if_false]
    omega
  | mathIntrinsic f => cases f <;> rfl
  | control op => cases op <;> rfl
  | _ => rfl

theorem size_balance (op : Operator) :
    (size op).value + 0 * (if op.isArrayEquals then 1 else 0) =
      (Generic.size op).value + 28 * (if op.isLogarithm then 1 else 0) +
        2 * (if op.isReturn then 1 else 0) := by
  cases op with
  | mathIntrinsic f => cases f <;> rfl
  | control op => cases op <;> rfl
  | _ => rfl

theorem cycles_eq_generic (m : Amd64) {op : Operator} (hi : op.category ≠ .intrinsic)
    (hc : op.category ≠ .control) : m.cycles op = Generic.cycles op := by
  cases op with
  | mathIntrinsic | arrayEquals => exact absurd rfl hi
  | control => exact absurd rfl hc
  | _ => rfl

theorem size_eq_generic {op : Operator} (hi : op.category ≠ .intrinsic)
    (hc : op.category ≠ .control) : size op = Generic.size op := by
  cases op with
  | mathIntrinsic | arrayEquals => exact absurd rfl hi
  | control => exact absurd rfl hc
  | _ => rfl

theorem exactCycles_balance (t : Target) (nodes : List Node) :
    (ofTarget t).model.exactCycles nodes +
        (100 - t.compareLevel.cycles) * count isArrayEquals nodes =
      Generic.model.exactCycles nodes + 7 * count isLogarithm nodes + 4 * count isReturn nodes :=
  sum_map_balance (fun n => cycles_balance t n.op) nodes

theorem exactSize_balance (m : Amd64) (nodes : List Node) :
    m.model.exactSize nodes =
      Generic.model.exactSize nodes + 28 * count isLogarithm nodes + 2 * count isReturn nodes := by
  have h := sum_map_balance (fun n : Node => size_balance n.op) nodes
  rw [Nat.zero_mul, Nat.add_zero] at h
  exact h

theorem total_summarize (m : Amd64) (g : Graph) :
    (m.model.summarize g).total = m.model.figures g.toList :=
  Pricing.total_summary ..

theorem category_summarize (m : Amd64) (g : Graph) (c : Category) :
    (m.model.summarize g).category c = m.model.figures (c.members g.toList) :=
  Pricing.category_summary ..

theorem category_summarize_eq (m : Amd64) (g : Graph) {c : Category} (hi : c ≠ .intrinsic)
    (hc : c ≠ .control) :
    (m.model.summarize g).category c = (Generic.model.summarize g).category c := by
  have hop : ∀ n ∈ c.members g.toList, n.op.category = c := by
    intro n hn
    simpa [Category.members] using (List.mem_filter.1 hn).2
  have h := Pricing.figures_congr (p := m.model.toPricing) (q := Generic.model.toPricing)
    (fun n hn => m.cycles_eq_generic (hop n hn ▸ hi) (hop n hn ▸ hc))
    (fun n hn => size_eq_generic (hop n hn ▸ hi) (hop n hn ▸ hc))
  exact (m.category_summarize g c).trans (h.trans (Pricing.category_summary ..).symm)

end Amd64

namespace CostModel

theorem ofTarget_of_arch {t : Target} (h : t.arch = .x86_64) :
    ofTarget t = (Amd64.ofTarget t).model := by
  rw [ofTarget, h]

theorem figures_amd64 {t : Target} {nodes : List Node} (ha : (Amd64.ofTarget t).model.Fits nodes)
    (hg : Generic.model.Fits nodes) :
    let a := (Amd64.ofTarget t).model.figures nodes
    let b := Generic.model.figures nodes
    a.nodes = b.nodes ∧
    a.cycles.toNat + (100 - t.compareLevel.cycles) * count isArrayEquals nodes =
      b.cycles.toNat + 7 * count isLogarithm nodes + 4 * count isReturn nodes ∧
    a.size.toNat = b.size.toNat + 28 * count isLogarithm nodes + 2 * count isReturn nodes := by
  intro a b
  have hac : a.cycles.toNat = (Amd64.ofTarget t).model.exactCycles nodes := Tier.toNat_total ha.cycles
  have hbc : b.cycles.toNat = Generic.model.exactCycles nodes := Tier.toNat_total hg.cycles
  have has : a.size.toNat = (Amd64.ofTarget t).model.exactSize nodes := Tier.toNat_total ha.size
  have hbs : b.size.toNat = Generic.model.exactSize nodes := Tier.toNat_total hg.size
  rw [hac, hbc, has, hbs]
  exact ⟨rfl, Amd64.exactCycles_balance t nodes, (Amd64.ofTarget t).exactSize_balance nodes⟩

/-- The model of an AMD64 target answers as the one that knows nothing of the machine does, up to
what array compares save and what logarithms and returns add. -/
theorem amd64_refines_generic {t : Target} (ht : t.arch = .x86_64) {g : Graph}
    (ha : (ofTarget t).Fits g.toList) (hg : Generic.model.Fits g.toList) :
    let k := t.compareLevel.cycles
    let E := count isArrayEquals g.toList
    let L := count isLogarithm g.toList
    let R := count isReturn g.toList
    let a := (ofTarget t).summarize g
    let b := Generic.model.summarize g
    ((ofTarget t).graphCycles g).toNat + (100 - k) * E =
      (Generic.model.graphCycles g).toNat + 7 * L + 4 * R ∧
    ((ofTarget t).graphSize g).toNat = (Generic.model.graphSize g).toNat + 28 * L + 2 * R ∧
    a.total.nodes = b.total.nodes ∧
    (∀ c, c ≠ .intrinsic → c ≠ .control → a.category c = b.category c) ∧
    ((a.category .intrinsic).nodes = (b.category .intrinsic).nodes ∧
      (a.category .intrinsic).cycles.toNat + (100 - k) * E =
        (b.category .intrinsic).cycles.toNat + 7 * L ∧
      (a.category .intrinsic).size.toNat = (b.category .intrinsic).size.toNat + 28 * L) ∧
    (a.category .control).nodes = (b.category .control).nodes ∧
    (a.category .control).cycles.toNat = (b.category .control).cycles.toNat + 4 * R ∧
    (a.category .control).size.toNat = (b.category .control).size.toNat + 2 * R := by
  rw [ofTarget_of_arch ht] at ha ⊢
  intro k E L R a b
  have hE (c : Category) : count isArrayEquals (c.members g.toList) =
      if c = .intrinsic then E else 0 :=
    count_members (fun _ => category_of_isArrayEquals) c g.toList
  have hL (c : Category) : count isLogarithm (c.members g.toList) =
      if c = .intrinsic then L else 0 :=
    count_members (fun _ => category_of_isLogarithm) c g.toList
  have hR (c : Category) : count isReturn (c.members g.toList) =
      if c = .control then R else 0 :=
    count_members (fun _ => category_of_isReturn) c g.toList
  have hna : a.total = (Amd64.ofTarget t).model.figures g.toList := Pricing.total_summary ..
  have hnb : b.total = Generic.model.figures g.toList := Pricing.total_summary ..
  have hca (c : Category) : a.category c = (Amd64.ofTarget t).model.figures (c.members g.toList) :=
    Pricing.category_summary ..
  have hcb (c : Category) : b.category c = Generic.model.figures (c.members g.toList) :=
    Pricing.category_summary ..
  obtain ⟨hnodes, hcycles, hsize⟩ := figures_amd64 ha hg
  refine ⟨hcycles, hsize, ?_, fun c => Amd64.category_summarize_eq _ g, ?_, ?_⟩
  · rw [hna, hnb]
    exact hnodes
  · have h := figures_amd64 (ha.members .intrinsic) (hg.members .intrinsic)
    rw [← hca, ← hcb] at h
    simpa only [hE, hL, hR, reduceCtorEq, if_true, if_false, Nat.mul_zero, Nat.add_zero] using h
  · have h := figures_amd64 (ha.members .control) (hg.members .control)
    rw [← hca, ← hcb] at h
    simpa only [hE, hL, hR, reduceCtorEq, if_true, if_false, Nat.mul_zero, Nat.add_zero] using h

theorem sse41_refines_generic :
    let t : Target := { arch := .x86_64, features := .ofList [.sse41] }
    let g := (Graph.skeleton.run
      [.arrayEquals .byte ⟨0⟩ ⟨0⟩ ⟨0⟩, .math .log10 ⟨2⟩, .ret ⟨0⟩ ⟨3⟩]).2
    (ofTarget t).Fits g.toList ∧ Generic.model.Fits g.toList ∧
      ((ofTarget t).graphCycles g).toNat + 20 = (Generic.model.graphCycles g).toNat + 7 + 4 ∧
      ((ofTarget t).graphSize g).toNat = (Generic.model.graphSize g).toNat + 28 + 2 := by
  intro t g
  have ha : (ofTarget t).Fits g.toList := ⟨by decide, by decide⟩
  have hg : Generic.model.Fits g.toList := ⟨by decide, by decide⟩
  have hk : t.compareLevel.cycles = 80 := by decide
  have hE : count isArrayEquals g.toList = 1 := by decide
  have hL : count isLogarithm g.toList = 1 := by decide
  have hR : count isReturn g.toList = 1 := by decide
  have h := amd64_refines_generic (t := t) (g := g) rfl ha hg
  rw [hk, hE, hL, hR] at h
  exact ⟨ha, hg, h.1, h.2.1⟩

end CostModel

end NodeCost
