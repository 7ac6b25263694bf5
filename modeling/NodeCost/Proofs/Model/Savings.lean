import NodeCost.Proofs.Model.Agreement
import NodeCost.Proofs.Model.Ranking

namespace NodeCost

open Operator

def Figures.charge (f : Figures) (cycles : UInt64) : Figures :=
  { f with cycles := f.cycles + cycles }

namespace Summary

def chargeEntry (c : Category) (cycles : UInt64) (e : Category × Figures) : Category × Figures :=
  if e.1 = c then (e.1, e.2.charge cycles) else e

def charge (s : Summary) (c : Category) (cycles : UInt64) : Summary where
  total := s.total.charge cycles
  entries := s.entries.map (chargeEntry c cycles)

/-- Which categories have entries, and in which order, does not depend on the estimates. -/
theorem keys_recordEntry_congr {xs ys : List (Category × Figures)}
    (h : xs.map Prod.fst = ys.map Prod.fst) (c : Category) (cycles size cycles' size' : Nat) :
    (recordEntry c cycles size xs).map Prod.fst = (recordEntry c cycles' size' ys).map Prod.fst := by
  induction xs generalizing ys with
  | nil =>
    rw [List.map_eq_nil_iff.1 h.symm]
    rfl
  | cons x xs ih =>
    cases ys with
    | nil => cases h
    | cons y ys =>
      obtain ⟨hxy, htail⟩ := List.cons.inj h
      rw [recordEntry, recordEntry]
      by_cases hx : x.1 = c
      · rw [if_pos hx, if_pos (hxy.symm.trans hx)]
        exact List.cons_eq_cons.2 ⟨hxy, htail⟩
      · rw [if_neg hx, if_neg fun hy => hx (hxy.trans hy)]
        exact List.cons_eq_cons.2 ⟨hxy, ih htail⟩

theorem Keyed.entries_eq_map {s : Summary} (h : Keyed s.entries) :
    s.entries = (s.entries.map Prod.fst).map fun c => (c, s.category c) := by
  rw [List.map_map]
  symm
  apply (List.map_congr_left ?_).trans (List.map_id _)
  intro e he
  exact Prod.ext rfl (h.category_eq he)

end Summary

namespace Pricing

variable {p q : Pricing}

theorem keys_summary_congr (p q : Pricing) (nodes : List Node) :
    (p.summary nodes).entries.map Prod.fst = (q.summary nodes).entries.map Prod.fst := by
  induction nodes using List.reverseRecOn with
  | nil => rfl
  | append_singleton nodes n ih =>
    rw [summary_append_singleton, summary_append_singleton]
    exact Summary.keys_recordEntry_congr ih _ _ _ _ _

theorem figures_eq_charge {nodes : List Node} {d : Nat}
    (hc : p.exactCycles nodes = q.exactCycles nodes + d)
    (hs : p.exactSize nodes = q.exactSize nodes) :
    p.figures nodes = (q.figures nodes).charge (.ofNat d) := by
  have hcycles : p.totalCycles nodes = q.totalCycles nodes + UInt64.ofNat d := by
    rw [totalCycles, totalCycles, Tier.total_eq, Tier.total_eq, ← UInt64.ofNat_add]
    exact congrArg UInt64.ofNat hc
  exact congrArg₂ (Figures.mk nodes.length) hcycles (Tier.total_congr hs)

/-- Nodes that cost more in one category only are summarized alike but for this category. -/
theorem summary_eq_charge {nodes : List Node} {c : Category} {d : Nat}
    (htotal : p.exactCycles nodes = q.exactCycles nodes + d)
    (hc : p.exactCycles (c.members nodes) = q.exactCycles (c.members nodes) + d)
    (hother : ∀ b, b ≠ c → p.exactCycles (b.members nodes) = q.exactCycles (b.members nodes))
    (hs : ∀ nodes, p.exactSize nodes = q.exactSize nodes) :
    p.summary nodes = (q.summary nodes).charge c (.ofNat d) := by
  have hp := (p.keyed_summary nodes).entries_eq_map
  have hq := (q.keyed_summary nodes).entries_eq_map
  have hentry : ∀ b : Category, (b, (p.summary nodes).category b) =
      Summary.chargeEntry c (.ofNat d) (b, (q.summary nodes).category b) := by
    intro b
    rw [category_summary, category_summary, Summary.chargeEntry]
    by_cases hb : b = c
    · subst hb
      rw [if_pos rfl, figures_eq_charge hc (hs _)]
    · rw [if_neg hb, figures_eq_of_exact (hother b hb) (hs _)]
  have ht : (p.summary nodes).total = (q.summary nodes).total.charge (.ofNat d) := by
    rw [total_summary, total_summary]
    exact figures_eq_charge htotal (hs nodes)
  -- Entries are their keys with what is found for each, and both summaries have the same keys.
  have he : (p.summary nodes).entries =
      (q.summary nodes).entries.map (Summary.chargeEntry c (.ofNat d)) := by
    calc (p.summary nodes).entries
        = ((q.summary nodes).entries.map Prod.fst).map fun b =>
            (b, (p.summary nodes).category b) := by rw [hp, keys_summary_congr p q]
      _ = ((q.summary nodes).entries.map Prod.fst).map
            (Summary.chargeEntry c (.ofNat d) ∘ fun b => (b, (q.summary nodes).category b)) :=
          List.map_congr_left fun b _ => hentry b
      _ = (((q.summary nodes).entries.map Prod.fst).map fun b =>
            (b, (q.summary nodes).category b)).map (Summary.chargeEntry c (.ofNat d)) :=
          List.map_map.symm
      _ = (q.summary nodes).entries.map (Summary.chargeEntry c (.ofNat d)) := by rw [← hq]
  exact congr (congrArg Summary.mk ht) he

end Pricing

theorem Target.compareLevel_cycles_le {t u : Target}
    (h : ∀ f, t.contains f = true → u.contains f = true) :
    u.compareLevel.cycles ≤ t.compareLevel.cycles := by
  have hlevel : ∀ v s v' s' : Bool, (v = true → v' = true) → (s = true → s' = true) →
      (if v' then CompareLevel.avx2 else if s' then .sse41 else .scalar).cycles ≤
        (if v then CompareLevel.avx2 else if s then .sse41 else .scalar).cycles := by decide
  exact hlevel _ _ _ _ (h .avx2) (h .sse41)

namespace Amd64

variable {t u : Target}

def saved (t u : Target) (nodes : List Node) : Nat :=
  (t.compareLevel.cycles - u.compareLevel.cycles) * count isArrayEquals nodes

theorem exactCycles_eq_add_saved (h : u.compareLevel.cycles ≤ t.compareLevel.cycles)
    (nodes : List Node) :
    (ofTarget t).model.exactCycles nodes =
      (ofTarget u).model.exactCycles nodes + saved t u nodes := by
  have ht := exactCycles_balance t nodes
  have hu := exactCycles_balance u nodes
  have hle := t.compareLevel.cycles_le
  have hsplit : (100 - u.compareLevel.cycles) * count isArrayEquals nodes =
      (100 - t.compareLevel.cycles) * count isArrayEquals nodes + saved t u nodes := by
    rw [saved, ← Nat.add_mul]
    congr 1
    omega
  omega

theorem saved_members (t u : Target) (nodes : List Node) (c : Category) :
    saved t u (c.members nodes) = if c = .intrinsic then saved t u nodes else 0 := by
  rw [saved, count_members fun _ => category_of_isArrayEquals]
  by_cases hc : c = .intrinsic
  · rw [if_pos hc, if_pos hc, saved]
  · rw [if_neg hc, if_neg hc, Nat.mul_zero]

theorem saved_eq_zero_iff (h : u.compareLevel.cycles ≤ t.compareLevel.cycles)
    (nodes : List Node) : saved t u nodes = 0 ↔
      (∀ n ∈ nodes, n.op.isArrayEquals = false) ∨ t.compareLevel = u.compareLevel := by
  have hlevel : t.compareLevel.cycles - u.compareLevel.cycles = 0 ↔
      t.compareLevel = u.compareLevel := by
    constructor
    · intro hk
      exact CompareLevel.eq_of_cycles_eq (by omega)
    · intro hk
      rw [hk, Nat.sub_self]
  have hcount : count isArrayEquals nodes = 0 ↔ ∀ n ∈ nodes, n.op.isArrayEquals = false := by
    simp [count, List.countP_eq_zero]
  rw [saved, Nat.mul_eq_zero, hlevel, hcount, or_comm]

theorem summary_eq_charge_saved (h : u.compareLevel.cycles ≤ t.compareLevel.cycles)
    (nodes : List Node) :
    (ofTarget t).model.summary nodes =
      ((ofTarget u).model.summary nodes).charge .intrinsic (.ofNat (saved t u nodes)) := by
  apply Pricing.summary_eq_charge
  · exact exactCycles_eq_add_saved h nodes
  · rw [exactCycles_eq_add_saved h, saved_members, if_pos rfl]
  · intro c hc
    rw [exactCycles_eq_add_saved h, saved_members, if_neg hc, Nat.add_zero]
  · intro nodes
    rfl

theorem fits_of_fits (h : u.compareLevel.cycles ≤ t.compareLevel.cycles) {nodes : List Node}
    (ht : (ofTarget t).model.Fits nodes) : (ofTarget u).model.Fits nodes := by
  have hcycles := ht.cycles
  rw [exactCycles_eq_add_saved h] at hcycles
  exact ⟨by omega, ht.size⟩

theorem toNat_totalCycles_eq_add_saved (h : u.compareLevel.cycles ≤ t.compareLevel.cycles)
    {nodes : List Node} (ht : (ofTarget t).model.Fits nodes) :
    ((ofTarget t).model.totalCycles nodes).toNat =
      ((ofTarget u).model.totalCycles nodes).toNat + saved t u nodes := by
  have htotal : ((ofTarget t).model.totalCycles nodes).toNat = (ofTarget t).model.exactCycles nodes :=
    Tier.toNat_total ht.cycles
  have hless : ((ofTarget u).model.totalCycles nodes).toNat = (ofTarget u).model.exactCycles nodes :=
    Tier.toNat_total (fits_of_fits h ht).cycles
  rw [htotal, hless, exactCycles_eq_add_saved h]

end Amd64

namespace CostModel

/-- An AMD64 target with more features saves the same cycles in total and among the intrinsics,
and has the same estimates otherwise. It saves none just where no array is compared or both targets
compare arrays in the same way. -/
theorem features_save_cycles {t u : Target} (ht : t.arch = .x86_64) (hu : u.arch = .x86_64)
    (h : ∀ f, t.contains f = true → u.contains f = true) {g : Graph}
    (hg : (ofTarget t).Fits g.toList) :
    let saved := (t.compareLevel.cycles - u.compareLevel.cycles) * count isArrayEquals g.toList
    let a := (ofTarget t).summarize g
    let b := (ofTarget u).summarize g
    (ofTarget u).graphCycles g ≤ (ofTarget t).graphCycles g ∧
    ((ofTarget t).graphCycles g).toNat = ((ofTarget u).graphCycles g).toNat + saved ∧
    (ofTarget u).graphSize g = (ofTarget t).graphSize g ∧
    a = b.charge .intrinsic (.ofNat saved) ∧
    a.total.cycles.toNat = b.total.cycles.toNat + saved ∧
    (a.category .intrinsic).cycles.toNat = (b.category .intrinsic).cycles.toNat + saved ∧
    (saved = 0 ↔
      (∀ n ∈ g.toList, n.op.isArrayEquals = false) ∨ t.compareLevel = u.compareLevel) := by
  rw [ofTarget_of_arch ht] at hg ⊢
  rw [ofTarget_of_arch hu]
  intro saved a b
  have hle := Target.compareLevel_cycles_le h
  have htotal := Amd64.toNat_totalCycles_eq_add_saved hle hg
  have hintrinsic := Amd64.toNat_totalCycles_eq_add_saved hle (hg.members .intrinsic)
  rw [Amd64.saved_members, if_pos rfl] at hintrinsic
  refine ⟨?_, htotal, rfl, Amd64.summary_eq_charge_saved hle g.toList, ?_, ?_,
    Amd64.saved_eq_zero_iff hle g.toList⟩
  · have hsum : ((Amd64.ofTarget u).model.graphCycles g).toNat ≤
        ((Amd64.ofTarget t).model.graphCycles g).toNat := htotal.symm ▸ Nat.le_add_right _ _
    exact UInt64.le_iff_toNat_le.2 hsum
  · have ha : a.total = _ := (Amd64.ofTarget t).total_summarize g
    have hb : b.total = _ := (Amd64.ofTarget u).total_summarize g
    rw [ha, hb]
    exact htotal
  · have ha : a.category .intrinsic = _ := (Amd64.ofTarget t).category_summarize g .intrinsic
    have hb : b.category .intrinsic = _ := (Amd64.ofTarget u).category_summarize g .intrinsic
    rw [ha, hb]
    exact hintrinsic

theorem avx2_saves_cycles :
    let t : Target := { arch := .x86_64, features := .ofList [.sse41] }
    let u : Target := { arch := .x86_64, features := .ofList [.sse41, .avx2] }
    let g := (Graph.skeleton.run
      [.arrayEquals .byte ⟨0⟩ ⟨0⟩ ⟨0⟩, .math .log10 ⟨2⟩, .arrayEquals .byte ⟨0⟩ ⟨0⟩ ⟨3⟩]).2
    t.Valid ∧ u.Valid ∧ (∀ f, t.contains f = true → u.contains f = true) ∧
      (ofTarget t).Fits g.toList ∧
      ((ofTarget t).graphCycles g).toNat = ((ofTarget u).graphCycles g).toNat + 60 ∧
      (ofTarget t).summarize g = ((ofTarget u).summarize g).charge .intrinsic 60 := by
  intro t u g
  have hsub : ∀ f, t.contains f = true → u.contains f = true := by
    intro f
    cases f <;> decide
  have hg : (ofTarget t).Fits g.toList := ⟨by decide, by decide⟩
  have hk : t.compareLevel.cycles - u.compareLevel.cycles = 30 := by decide
  have hE : count isArrayEquals g.toList = 2 := by decide
  have h := features_save_cycles (t := t) (u := u) (g := g) rfl rfl hsub hg
  rw [hk, hE] at h
  exact ⟨by decide, by decide, hsub, hg, h.2.1, h.2.2.2.1⟩

end CostModel

end NodeCost
