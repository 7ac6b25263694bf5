import NodeCost.Proofs.Model.Refinement

namespace NodeCost

namespace Pricing

def Agrees (p q : Pricing) : Prop := ∀ n : Node, p.cycles n = q.cycles n ∧ p.size n = q.size n

theorem Agrees.symm {p q : Pricing} (h : p.Agrees q) : q.Agrees p :=
  fun n => ⟨(h n).1.symm, (h n).2.symm⟩

theorem Agrees.figures_eq {p q : Pricing} (h : p.Agrees q) (nodes : List Node) :
    p.figures nodes = q.figures nodes :=
  figures_congr (fun n _ => (h n).1) fun n _ => (h n).2

end Pricing

namespace CostModel

def AgreesOn (m n : CostModel) (g : Graph) : Prop :=
  m.graphCycles g = n.graphCycles g ∧ m.graphSize g = n.graphSize g

/-- Graphs that the builder makes are enough to tell two pricings apart: it can add any node. -/
theorem agrees_of_agreesOn_run {p q : Pricing} {a b : String}
    (h : ∀ cs, (p.named a).AgreesOn (q.named b) (Graph.skeleton.run cs).2) : p.Agrees q := by
  intro n
  have hadd : (Graph.skeleton.run [.add n.op n.inputs]).2.toList = Graph.skeleton.toList ++ [n] :=
    Graph.toList_run ..
  obtain ⟨hcycles, hsize⟩ := h []
  obtain ⟨hcycles', hsize'⟩ := h [.add n.op n.inputs]
  exact ⟨Tier.eq_of_total_eq hcycles (hadd ▸ hcycles'), Tier.eq_of_total_eq hsize (hadd ▸ hsize')⟩

theorem agreesOn_of_agrees {p q : Pricing} (h : p.Agrees q) (a b : String) (g : Graph) :
    (p.named a).AgreesOn (q.named b) g :=
  ⟨congrArg Figures.cycles (h.figures_eq g.toList), congrArg Figures.size (h.figures_eq g.toList)⟩

end CostModel

theorem CompareLevel.eq_of_cycles_eq {k l : CompareLevel} (h : k.cycles = l.cycles) : k = l := by
  cases k <;> cases l <;> first | rfl | simp [cycles] at h

namespace Amd64

theorem cycles_eq_of_compareLevel_eq {a b : Target} (h : a.compareLevel = b.compareLevel)
    (op : Operator) : (ofTarget a).cycles op = (ofTarget b).cycles op := by
  cases op with
  | arrayEquals kind =>
    apply Tier.value_inj.1
    exact (cycles_arrayEquals a kind).trans (h ▸ (cycles_arrayEquals b kind).symm)
  | control op => cases op <;> rfl
  | _ => rfl

/-- Of a target only the level of its array compares shows in what its nodes cost. -/
theorem agrees_iff {a b : Target} :
    (ofTarget a).model.Agrees (ofTarget b).model.toPricing ↔
      a.compareLevel = b.compareLevel := by
  constructor
  · intro h
    have hcompare := congrArg Cycles.value (h { op := .arrayEquals .byte }).1
    exact CompareLevel.eq_of_cycles_eq
      ((cycles_arrayEquals a .byte).symm.trans (hcompare.trans (cycles_arrayEquals b .byte)))
  · intro h n
    exact ⟨cycles_eq_of_compareLevel_eq h n.op, rfl⟩

theorem not_agrees_generic (m : Amd64) : ¬ m.model.Agrees Generic.model.toPricing := by
  intro h
  have hret : Cycles.six = Cycles.two := (h { op := .control .ret }).1
  cases hret

theorem ofTarget_eq_iff {a b : Target} :
    ofTarget a = ofTarget b ↔
      a.contains .avx2 = b.contains .avx2 ∧ a.contains .sse41 = b.contains .sse41 := by
  rw [ofTarget, ofTarget, Amd64.mk.injEq]

theorem compareLevel_eq_of_ofTarget_eq {a b : Target} (h : ofTarget a = ofTarget b) :
    a.compareLevel = b.compareLevel := by
  obtain ⟨h₁, h₂⟩ := ofTarget_eq_iff.1 h
  rw [Target.compareLevel, Target.compareLevel, h₁, h₂]

/-- Where there are wider vector compares the narrower ones do not show. -/
theorem compareLevel_eq_iff_of_ne {a b : Target} (h : ofTarget a ≠ ofTarget b) :
    a.compareLevel = b.compareLevel ↔ a.contains .avx2 = true ∧ b.contains .avx2 = true ∧
      a.contains .sse41 ≠ b.contains .sse41 := by
  have hlevel : ∀ v s v' s' : Bool, ¬ (v = v' ∧ s = s') →
      ((if v then CompareLevel.avx2 else if s then .sse41 else .scalar) =
        (if v' then CompareLevel.avx2 else if s' then .sse41 else .scalar) ↔
        v = true ∧ v' = true ∧ s ≠ s') := by decide
  exact hlevel _ _ _ _ (mt ofTarget_eq_iff.2 h)

end Amd64

namespace CostModel

theorem ofTarget_eq_named (t : Target) :
    ofTarget t = (ofTarget t).toPricing.named (ofTarget t).name := by
  rw [ofTarget]
  cases t.arch <;> rfl

theorem ofTarget_of_arch_ne {t : Target} (h : t.arch ≠ .x86_64) : ofTarget t = Generic.model := by
  rw [ofTarget]
  cases ha : t.arch with
  | x86_64 => exact absurd ha h
  | aarch64 | generic => rfl

theorem ofTarget_agrees_iff {a b : Target} :
    (ofTarget a).Agrees (ofTarget b).toPricing ↔
      (a.arch ≠ .x86_64 ∧ b.arch ≠ .x86_64) ∨
        (a.arch = .x86_64 ∧ b.arch = .x86_64 ∧ a.compareLevel = b.compareLevel) := by
  by_cases ha : a.arch = .x86_64
  · rw [ofTarget_of_arch ha]
    by_cases hb : b.arch = .x86_64
    · rw [ofTarget_of_arch hb, Amd64.agrees_iff]
      simp [ha, hb]
    · rw [ofTarget_of_arch_ne hb]
      simp [ha, hb, Amd64.not_agrees_generic]
  · rw [ofTarget_of_arch_ne ha]
    by_cases hb : b.arch = .x86_64
    · have hnot : ¬ Generic.model.Agrees (Amd64.ofTarget b).model.toPricing :=
        fun h => (Amd64.ofTarget b).not_agrees_generic h.symm
      rw [ofTarget_of_arch hb]
      simp [ha, hb, hnot]
    · have hself : Generic.model.Agrees Generic.model.toPricing := fun _ => ⟨rfl, rfl⟩
      rw [ofTarget_of_arch_ne hb]
      simp [ha, hb, hself]

theorem agreesOn_ofTarget {a b : Target}
    (h : (ofTarget a).Agrees (ofTarget b).toPricing) (g : Graph) :
    (ofTarget a).AgreesOn (ofTarget b) g := by
  rw [ofTarget_eq_named a, ofTarget_eq_named b]
  exact agreesOn_of_agrees h _ _ g

theorem ofTarget_agrees_of_agreesOn_run {a b : Target}
    (h : ∀ cs, (ofTarget a).AgreesOn (ofTarget b) (Graph.skeleton.run cs).2) :
    (ofTarget a).Agrees (ofTarget b).toPricing := by
  rw [ofTarget_eq_named a, ofTarget_eq_named b] at h
  exact agrees_of_agreesOn_run h

/-- The models of two targets answer alike for all nodes if and only if they do for all graphs, and
if and only if they do for those that the builder makes: this is so where neither machine is an
AMD64, and where both are and compare arrays in the same way. A model for AMD64 knows one thing
more of its machine, which wider vector compares hide. -/
theorem ofTarget_alike_iff :
    (∀ a b : Target,
      let alike := (a.arch ≠ .x86_64 ∧ b.arch ≠ .x86_64) ∨
        (a.arch = .x86_64 ∧ b.arch = .x86_64 ∧ a.compareLevel = b.compareLevel)
      ((ofTarget a).Agrees (ofTarget b).toPricing ↔ alike) ∧
      ((∀ g, (ofTarget a).AgreesOn (ofTarget b) g) ↔ alike) ∧
      ((∀ cs, (ofTarget a).AgreesOn (ofTarget b) (Graph.skeleton.run cs).2) ↔ alike)) ∧
    (∀ a b : Target,
      let m := Amd64.ofTarget a
      let n := Amd64.ofTarget b
      (m = n ↔ a.contains .avx2 = b.contains .avx2 ∧ a.contains .sse41 = b.contains .sse41) ∧
      (m = n → m.model.Agrees n.model.toPricing) ∧
      (m ≠ n → (m.model.Agrees n.model.toPricing ↔
        a.contains .avx2 = true ∧ b.contains .avx2 = true ∧
          a.contains .sse41 ≠ b.contains .sse41))) ∧
    ∃ a b : Target, a.Valid ∧ b.Valid ∧ a.arch = .x86_64 ∧ b.arch = .x86_64 ∧
      Amd64.ofTarget a ≠ Amd64.ofTarget b ∧ (ofTarget a).Agrees (ofTarget b).toPricing := by
  refine ⟨fun a b => ?_, fun a b => ⟨Amd64.ofTarget_eq_iff, ?_, ?_⟩, ?_⟩
  · rw [← ofTarget_agrees_iff]
    refine ⟨Iff.rfl, ⟨?_, agreesOn_ofTarget⟩, ofTarget_agrees_of_agreesOn_run, ?_⟩
    · intro h
      exact ofTarget_agrees_of_agreesOn_run fun cs => h _
    · intro h cs
      exact agreesOn_ofTarget h _
  · intro h
    exact Amd64.agrees_iff.2 (Amd64.compareLevel_eq_of_ofTarget_eq h)
  · intro h
    rw [Amd64.agrees_iff]
    exact Amd64.compareLevel_eq_iff_of_ne h
  · refine ⟨{ arch := .x86_64, features := .ofList [.avx2] },
      { arch := .x86_64, features := .ofList [.avx2, .sse41] }, by decide, by decide, rfl, rfl,
      by decide, ?_⟩
    rw [ofTarget_agrees_iff]
    decide

theorem sse41_hidden_by_avx2 :
    let a : Target := { arch := .x86_64, features := .ofList [.avx2] }
    let b : Target := { arch := .x86_64, features := .ofList [.sse41, .avx2] }
    Amd64.ofTarget a ≠ Amd64.ofTarget b ∧
      (Amd64.ofTarget a).model.Agrees (Amd64.ofTarget b).model.toPricing ∧
      ∀ g, (ofTarget a).AgreesOn (ofTarget b) g := by
  intro a b
  have hne : Amd64.ofTarget a ≠ Amd64.ofTarget b := by decide
  have hlevel : a.compareLevel = b.compareLevel := by decide
  exact ⟨hne, ((ofTarget_alike_iff.2.1 a b).2.2 hne).2 (by decide),
    (ofTarget_alike_iff.1 a b).2.1.2 (Or.inr ⟨rfl, rfl, hlevel⟩)⟩

end CostModel

end NodeCost
