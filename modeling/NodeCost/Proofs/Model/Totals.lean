import Mathlib.Data.List.Induction
import NodeCost.Model.Basic
import NodeCost.Proofs.Tier.Total

namespace NodeCost

namespace Category

def members (c : Category) (nodes : List Node) : List Node :=
  nodes.filter fun n => n.op.category = c

theorem members_append (c : Category) (xs ys : List Node) :
    c.members (xs ++ ys) = c.members xs ++ c.members ys :=
  List.filter_append ..

theorem members_singleton (c : Category) (n : Node) :
    c.members [n] = if n.op.category = c then [n] else [] := by
  by_cases h : n.op.category = c <;> simp [members, h]

end Category

namespace Summary

theorem lookup_recordEntry (c d : Category) (cycles size : Nat)
    (entries : List (Category × Figures)) :
    (recordEntry c cycles size entries).lookup d =
      if d = c then some (((entries.lookup c).getD {}).record cycles size)
      else entries.lookup d := by
  induction entries with
  | nil =>
    by_cases hd : d = c
    · simp [recordEntry, hd]
    · have hdc : (d == c) = false := beq_false_of_ne hd
      rw [recordEntry, List.lookup_cons, hdc, if_neg hd]
  | cons e r ih =>
    obtain ⟨b, f⟩ := e
    by_cases hb : b = c
    · subst b
      rw [recordEntry, if_pos rfl]
      by_cases hd : d = c
      · simp [hd]
      · have hdc : (d == c) = false := beq_false_of_ne hd
        rw [if_neg hd, List.lookup_cons, List.lookup_cons, hdc]
    · have hcb : (c == b) = false := beq_false_of_ne (Ne.symm hb)
      rw [recordEntry, if_neg hb, List.lookup_cons, List.lookup_cons, List.lookup_cons, hcb, ih]
      by_cases hd : d = b
      · have hne : d ≠ c := hd ▸ hb
        simp [hd, hb]
      · have hdb : (d == b) = false := beq_false_of_ne hd
        rw [hdb]

theorem category_record (s : Summary) (c d : Category) (cycles size : Nat) :
    (s.record c cycles size).category d =
      if d = c then (s.category d).record cycles size else s.category d := by
  rw [category, record, lookup_recordEntry]
  by_cases hd : d = c
  · rw [if_pos hd, if_pos hd, hd]
    rfl
  · rw [if_neg hd, if_neg hd]
    rfl

end Summary

namespace Pricing

def exactCycles (p : Pricing) (nodes : List Node) : Nat := Tier.exactTotal p.cycles nodes

def exactSize (p : Pricing) (nodes : List Node) : Nat := Tier.exactTotal p.size nodes

/-- The exact sums over the nodes are 64 bit words. -/
structure Fits (p : Pricing) (nodes : List Node) : Prop where
  cycles : p.exactCycles nodes < UInt64.size
  size : p.exactSize nodes < UInt64.size

theorem Fits.of_sublist {p : Pricing} {xs ys : List Node} (h : p.Fits ys) (hs : xs.Sublist ys) :
    p.Fits xs :=
  ⟨Nat.lt_of_le_of_lt (Tier.exactTotal_le_of_sublist hs) h.cycles,
    Nat.lt_of_le_of_lt (Tier.exactTotal_le_of_sublist hs) h.size⟩

theorem Fits.members {p : Pricing} {nodes : List Node} (h : p.Fits nodes) (c : Category) :
    p.Fits (c.members nodes) :=
  h.of_sublist List.filter_sublist

def figures (p : Pricing) (nodes : List Node) : Figures where
  nodes := nodes.length
  cycles := p.totalCycles nodes
  size := p.totalSize nodes

theorem figures_eq_of_exact {p q : Pricing} {nodes : List Node}
    (hc : p.exactCycles nodes = q.exactCycles nodes) (hs : p.exactSize nodes = q.exactSize nodes) :
    p.figures nodes = q.figures nodes :=
  congrArg₂ (Figures.mk nodes.length) (Tier.total_congr hc) (Tier.total_congr hs)

theorem figures_congr {p q : Pricing} {nodes : List Node}
    (hc : ∀ n ∈ nodes, p.cycles n = q.cycles n) (hs : ∀ n ∈ nodes, p.size n = q.size n) :
    p.figures nodes = q.figures nodes :=
  figures_eq_of_exact (Tier.exactTotal_congr hc) (Tier.exactTotal_congr hs)

theorem figures_append_singleton (p : Pricing) (nodes : List Node) (n : Node) :
    p.figures (nodes ++ [n]) = (p.figures nodes).record (p.cycles n).value (p.size n).value := by
  rw [figures, List.length_append, totalCycles, totalSize, Tier.total_append_singleton,
    Tier.total_append_singleton]
  rfl

theorem summary_append_singleton (p : Pricing) (nodes : List Node) (n : Node) :
    p.summary (nodes ++ [n]) = p.recordNode (p.summary nodes) n := by
  rw [summary, summary, List.foldl_append, List.foldl_cons, List.foldl_nil]

theorem total_summary (p : Pricing) (nodes : List Node) :
    (p.summary nodes).total = p.figures nodes := by
  induction nodes using List.reverseRecOn with
  | nil => rfl
  | append_singleton nodes n ih =>
    rw [summary_append_singleton, figures_append_singleton, ← ih]
    rfl

/-- Each node is recorded once, in the entry of its category. -/
theorem category_summary (p : Pricing) (nodes : List Node) (c : Category) :
    (p.summary nodes).category c = p.figures (c.members nodes) := by
  induction nodes using List.reverseRecOn with
  | nil => rfl
  | append_singleton nodes n ih =>
    rw [summary_append_singleton, recordNode, Summary.category_record, ih,
      Category.members_append, Category.members_singleton]
    by_cases hc : n.op.category = c
    · rw [if_pos hc.symm, if_pos hc, figures_append_singleton]
    · rw [if_neg (Ne.symm hc), if_neg hc, List.append_nil]

end Pricing

end NodeCost
