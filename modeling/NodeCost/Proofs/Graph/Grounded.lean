import Mathlib.Logic.Relation
import NodeCost.Proofs.Graph.Builder

namespace NodeCost

namespace Graph

/-- A number that a caller holds after some calls: of an end of the graph, or returned by a call. -/
def Known (cs : List Call) (id : NodeId) : Prop :=
  id = (skeleton.run cs).2.start ∨ id = (skeleton.run cs).2.finish ∨ id ∈ (skeleton.run cs).1

instance (cs : List Call) (id : NodeId) : Decidable (Known cs id) :=
  inferInstanceAs (Decidable (_ ∨ _ ∨ _))

/-- No call is given an input that its caller did not hold at the time. -/
inductive Disciplined : List Call → Prop where
  | nil : Disciplined []
  | snoc {cs : List Call} {c : Call} (h : Disciplined cs)
      (hc : ∀ id ∈ c.node.inputs, Known cs id) : Disciplined (cs ++ [c])

/-- The inputs of each node are positions in front of its own. -/
def InOrder (nodes : List Node) : Prop :=
  ∀ (i : Nat) (n : Node), nodes[i]? = some n → ∀ id ∈ n.inputs, id.index.toNat < i

theorem InOrder.append_singleton {nodes : List Node} (h : InOrder nodes) {n : Node}
    (hn : ∀ id ∈ n.inputs, id.index.toNat < nodes.length) : InOrder (nodes ++ [n]) := by
  intro i m hm id hid
  by_cases hi : i < nodes.length
  · rw [List.getElem?_append_left hi] at hm
    exact h i m hm id hid
  · have hle : nodes.length ≤ i := Nat.not_lt.1 hi
    rw [List.getElem?_append_right hle] at hm
    have hmem : m ∈ [n] := List.mem_of_getElem? hm
    rw [List.mem_singleton.1 hmem] at hid
    exact Nat.lt_of_lt_of_le (hn id hid) hle

/-- Numbers are positions cut down to 32 bits, which never takes them out of the graph. -/
theorem index_lt_of_mem_run {g : Graph} {cs : List Call} {id : NodeId} (h : id ∈ (g.run cs).1) :
    id.index.toNat < (g.run cs).2.size := by
  have hmem := List.mem_map_of_mem (f := fun id : NodeId => id.index.toNat) h
  rw [index_run, List.mem_map] at hmem
  obtain ⟨i, hi, he⟩ := hmem
  have hlt := (List.mem_range'_1.1 hi).2
  rw [size_run, ← he]
  exact Nat.lt_of_le_of_lt (Nat.mod_le i UInt32.size) hlt

theorem Known.index_lt {cs : List Call} {id : NodeId} (h : Known cs id) :
    id.index.toNat < (skeleton.run cs).2.size := by
  obtain rfl | rfl | h := h
  · rw [start_run, size_run]
    exact Nat.lt_of_lt_of_le (by decide) (Nat.le_add_right skeleton.size _)
  · rw [finish_run, size_run]
    exact Nat.lt_of_lt_of_le (by decide) (Nat.le_add_right skeleton.size _)
  · exact index_lt_of_mem_run h

theorem inOrder_skeleton : InOrder skeleton.toList := by
  rw [toList_skeleton]
  have hstart : InOrder ([] ++ [⟨.control .start, []⟩]) :=
    InOrder.append_singleton (by simp [InOrder]) (by simp)
  exact hstart.append_singleton (by decide)

theorem Disciplined.inOrder {cs : List Call} (h : Disciplined cs) :
    InOrder (skeleton.run cs).2.toList := by
  induction h with
  | nil => exact inOrder_skeleton
  | @snoc cs c _ hc ih =>
    have hlist : (skeleton.run (cs ++ [c])).2.toList = (skeleton.run cs).2.toList ++ [c.node] := by
      rw [run_append]
      exact toList_call _ c
    rw [hlist]
    apply ih.append_singleton
    intro id hid
    rw [length_toList]
    exact (hc id hid).index_lt

def Feeds (g : Graph) (input id : NodeId) : Prop :=
  ∃ n, g.get? id = some n ∧ input ∈ n.inputs

/-- The nodes that someone meets who goes from a node to one of its inputs, and on from there. -/
inductive Walk (g : Graph) : NodeId → List NodeId → Prop where
  | stop (id : NodeId) : Walk g id []
  | step {id input : NodeId} {walk : List NodeId} (h : g.Feeds input id) (hw : Walk g input walk) :
      Walk g id (input :: walk)

section

variable {g : Graph} (h : InOrder g.toList)
include h

theorem InOrder.index_lt_of_feeds {input id : NodeId} (hf : g.Feeds input id) :
    input.index.toNat < id.index.toNat := by
  obtain ⟨n, hn, hi⟩ := hf
  rw [get?_eq_getElem?] at hn
  exact h _ n hn input hi

theorem InOrder.index_lt_of_transGen {input id : NodeId}
    (hf : Relation.TransGen g.Feeds input id) : input.index.toNat < id.index.toNat := by
  induction hf with
  | single hf => exact h.index_lt_of_feeds hf
  | tail _ hf ih => exact Nat.lt_trans ih (h.index_lt_of_feeds hf)

theorem InOrder.wellFounded_feeds : WellFounded g.Feeds :=
  Subrelation.wf h.index_lt_of_feeds (measure fun id : NodeId => id.index.toNat).wf

theorem InOrder.length_walk_le {id : NodeId} {walk : List NodeId} (hw : g.Walk id walk) :
    walk.length ≤ id.index.toNat := by
  induction hw with
  | stop id => exact Nat.zero_le _
  | step hf _ ih => exact Nat.succ_le_of_lt (Nat.lt_of_le_of_lt ih (h.index_lt_of_feeds hf))

theorem InOrder.exists_input {n : Node} (hn : n ∈ g.toList) {input : NodeId}
    (hi : input ∈ n.inputs) : ∃ m, g.get? input = some m := by
  obtain ⟨i, hn⟩ := List.getElem?_of_mem hn
  have hlt := Nat.lt_trans (h i n hn input hi) (List.getElem?_eq_some_iff.1 hn).1
  rw [get?_eq_getElem?]
  exact ⟨_, List.getElem?_eq_getElem hlt⟩

end

/-- Every input of a node is in the graph, under a smaller number than the node, so that whoever
follows inputs comes to an end. -/
structure Grounded (g : Graph) : Prop where
  input_lt : ∀ e ∈ g.entries, ∀ input ∈ e.2.inputs, input.index < e.1.index
  get?_input : ∀ n ∈ g.toList, ∀ input ∈ n.inputs, ∃ m, g.get? input = some m ∧
    g.node input = .ok m
  not_feeds_self : ∀ id, ¬ Relation.TransGen g.Feeds id id
  wellFounded : WellFounded g.Feeds
  length_walk_le : ∀ id walk, g.Walk id walk → walk.length ≤ id.index.toNat

theorem InOrder.grounded {g : Graph} (h : InOrder g.toList) (hsize : g.size ≤ UInt32.size) :
    g.Grounded where
  input_lt e he input hi := by
    have hpos := List.mem_map_of_mem (f := fun e : NodeId × Node => (e.2, e.1.index.toNat)) he
    rw [entries_of_size_le hsize] at hpos
    have hn := List.mem_zipIdx_iff_getElem?.1 hpos
    exact UInt32.lt_iff_toNat_lt.2 (h _ e.2 hn input hi)
  get?_input n hn input hi := by
    obtain ⟨m, hm⟩ := h.exists_input hn hi
    exact ⟨m, hm, node_eq_ok_iff.2 hm⟩
  not_feeds_self id hid := Nat.lt_irrefl _ (h.index_lt_of_transGen hid)
  wellFounded := h.wellFounded_feeds
  length_walk_le _ _ := h.length_walk_le

/-- Whoever passes only numbers of this very graph builds one that is closed and has no way round.
The builder checks nothing: numbers are new when they are given out, and nodes never change. -/
theorem grounded_of_disciplined {cs : List Call} (h : Disciplined cs)
    (hsize : (skeleton.run cs).2.size ≤ UInt32.size) : (skeleton.run cs).2.Grounded :=
  h.inOrder.grounded hsize

theorem grounded_of_shared_input :
    let cs : List Call := [.parameter 0, .intAdd ⟨2⟩ ⟨2⟩, .ret ⟨0⟩ ⟨3⟩]
    let g := (skeleton.run cs).2
    Disciplined cs ∧ g.size ≤ UInt32.size ∧ g.Grounded ∧ g.Walk ⟨4⟩ [⟨3⟩, ⟨2⟩] ∧
      ∀ walk, g.Walk ⟨4⟩ walk → walk.length ≤ 4 := by
  intro cs g
  have hparameter : Disciplined ([] ++ [.parameter 0]) := .snoc .nil (by decide)
  have hadd : Disciplined ([.parameter 0] ++ [.intAdd ⟨2⟩ ⟨2⟩]) := hparameter.snoc (by decide)
  have hcs : Disciplined cs := hadd.snoc (by decide)
  have hsize : g.size ≤ UInt32.size := by decide
  have hg : g.Grounded := grounded_of_disciplined hcs hsize
  have hret : g.Feeds ⟨3⟩ ⟨4⟩ := ⟨.ret ⟨0⟩ ⟨3⟩, rfl, by decide⟩
  have hsum : g.Feeds ⟨2⟩ ⟨3⟩ := ⟨.intAdd ⟨2⟩ ⟨2⟩, rfl, by decide⟩
  exact ⟨hcs, hsize, hg, .step hret (.step hsum (.stop ⟨2⟩)), hg.length_walk_le ⟨4⟩⟩

/-- A caller that guesses the next number makes a node its own input. -/
example : (skeleton.run [.math .log ⟨2⟩]).2.Feeds ⟨2⟩ ⟨2⟩ := ⟨.math .log ⟨2⟩, rfl, by decide⟩

end Graph

end NodeCost
