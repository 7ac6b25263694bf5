import NodeCost.Graph.Call
import NodeCost.Model.Handle

namespace NodeCost

/-- Answers for whole graphs that a model gives in place of the sums over the nodes. -/
structure Overrides where
  graphCycles? : Option (Graph → UInt64) := none
  graphSize? : Option (Graph → UInt64) := none
  summarize? : Option (Graph → Summary) := none

def Pricing.overriding (p : Pricing) (name : String) (o : Overrides) : CostModel where
  toPricing := p
  name := name
  graphCycles := o.graphCycles?.getD (p.named name).graphCycles
  graphSize := o.graphSize?.getD (p.named name).graphSize
  summarize := o.summarize?.getD (p.named name).summarize

namespace Handle

inductive Layer where
  | owned
  | shared
deriving DecidableEq, Repr

def Layer.around : Layer → Handle → Handle
  | owned => Handle.owned
  | shared => Handle.shared

/-- The model behind layers, the outermost of them first. -/
def behind (m : CostModel) (layers : List Layer) : Handle := layers.foldr Layer.around (.direct m)

theorem exists_eq_behind (h : Handle) : ∃ m layers, h = behind m layers := by
  induction h with
  | direct m => exact ⟨m, [], rfl⟩
  | owned h ih =>
    obtain ⟨m, layers, rfl⟩ := ih
    exact ⟨m, .owned :: layers, rfl⟩
  | shared h ih =>
    obtain ⟨m, layers, rfl⟩ := ih
    exact ⟨m, .shared :: layers, rfl⟩

def pricing (h : Handle) : Pricing := ⟨h.cycles, h.size⟩

/-- To every question the handle answers what the model answers. -/
structure Answers (h : Handle) (m : CostModel) : Prop where
  name : h.name = m.name
  cycles : ∀ n, h.cycles n = m.cycles n
  size : ∀ n, h.size n = m.size n
  graphCycles : ∀ g, h.graphCycles g = m.graphCycles g
  graphSize : ∀ g, h.graphSize g = m.graphSize g
  summarize : ∀ g, h.summarize g = m.summarize g

theorem answers_direct (m : CostModel) : (direct m).Answers m :=
  ⟨rfl, fun _ => rfl, fun _ => rfl, fun _ => rfl, fun _ => rfl, fun _ => rfl⟩

theorem Answers.around {h : Handle} {m : CostModel} (ha : h.Answers m) (l : Layer) :
    (l.around h).Answers m := by
  cases l with
  | owned => exact ⟨ha.name, ha.cycles, ha.size, ha.graphCycles, ha.graphSize, ha.summarize⟩
  | shared => exact ⟨ha.name, ha.cycles, ha.size, ha.graphCycles, ha.graphSize, ha.summarize⟩

theorem answers_behind (m : CostModel) (layers : List Layer) : (behind m layers).Answers m := by
  induction layers with
  | nil => exact answers_direct m
  | cons l layers ih => exact ih.around l

theorem Answers.pricing_eq {h : Handle} {m : CostModel} (ha : h.Answers m) :
    h.pricing = m.toPricing := by
  have hcycles : h.cycles = m.cycles := funext ha.cycles
  have hsize : h.size = m.size := funext ha.size
  rw [pricing, hcycles, hsize]

/-- Layers change nothing, whatever their order and their number. An answer that a model has of its
own for whole graphs comes through; only in place of one that it does not have does the sum over the
nodes stand. -/
theorem layers_transparent :
    (∀ (m : CostModel) (layers : List Layer), (behind m layers).Answers m) ∧
    (∀ h : Handle, ∃ m layers, h = behind m layers) ∧
    ∀ (p : Pricing) (name : String) (o : Overrides) (layers : List Layer) (g : Graph),
      let h := behind (p.overriding name o) layers
      h.name = name ∧ h.pricing = p ∧
      h.graphCycles g = o.graphCycles?.elim (h.pricing.totalCycles g.toList) (fun f => f g) ∧
      h.graphSize g = o.graphSize?.elim (h.pricing.totalSize g.toList) (fun f => f g) ∧
      h.summarize g = o.summarize?.elim (h.pricing.summary g.toList) (fun f => f g) := by
  refine ⟨answers_behind, exists_eq_behind, ?_⟩
  intro p name o layers g h
  have ha : h.Answers (p.overriding name o) := answers_behind _ layers
  have hp : h.pricing = p := ha.pricing_eq
  refine ⟨ha.name, hp, ?_, ?_, ?_⟩
  · rw [ha.graphCycles, hp, Pricing.overriding]
    cases o.graphCycles? <;> rfl
  · rw [ha.graphSize, hp, Pricing.overriding]
    cases o.graphSize? <;> rfl
  · rw [ha.summarize, hp, Pricing.overriding]
    cases o.summarize? <;> rfl

theorem layers_transparent_of_flat_budget :
    let p : Pricing := { cycles := fun _ => .one, size := fun _ => .one }
    let o : Overrides :=
      { graphCycles? := some fun _ => 1000, summarize? := some fun _ => { total := { nodes := 1 } } }
    let h := behind (p.overriding "flat" o) [.shared, .owned, .shared]
    let g := (Graph.skeleton.run [.parameter 0]).2
    h.name = "flat" ∧ h.graphCycles g = 1000 ∧ h.pricing.totalCycles g.toList = 3 ∧
      h.graphSize g = 3 ∧ (h.summarize g).total.nodes = 1 := by
  intro p o h g
  obtain ⟨hname, hp, hcycles, hsize, hsummary⟩ :=
    layers_transparent.2.2 p "flat" o [.shared, .owned, .shared] g
  refine ⟨hname, hcycles, ?_, ?_, congrArg (fun s : Summary => s.total.nodes) hsummary⟩
  · rw [hp]
    decide
  · rw [hsize, hp]
    decide

end Handle

end NodeCost
