import Mathlib.Data.List.Nodup
import NodeCost.Graph.Call

namespace NodeCost

namespace Graph

theorem size_call (g : Graph) (c : Call) : (g.call c).2.size = g.size + 1 := by
  rw [call_eq_add, size_add]

theorem index_call (g : Graph) (c : Call) :
    (g.call c).1.index.toNat = g.size % UInt32.size := by
  rw [call_eq_add]
  exact UInt32.toNat_ofNat'

theorem start_call (g : Graph) (c : Call) : (g.call c).2.start = g.start := by
  rw [call_eq_add]
  rfl

theorem finish_call (g : Graph) (c : Call) : (g.call c).2.finish = g.finish := by
  rw [call_eq_add]
  rfl

theorem size_run (g : Graph) (cs : List Call) : (g.run cs).2.size = g.size + cs.length := by
  rw [← length_toList, toList_run, List.length_append, List.length_map, length_toList]

theorem start_run (g : Graph) (cs : List Call) : (g.run cs).2.start = g.start := by
  induction cs generalizing g with
  | nil => rfl
  | cons c cs ih => exact (ih _).trans (start_call g c)

theorem finish_run (g : Graph) (cs : List Call) : (g.run cs).2.finish = g.finish := by
  induction cs generalizing g with
  | nil => rfl
  | cons c cs ih => exact (ih _).trans (finish_call g c)

theorem index_run (g : Graph) (cs : List Call) :
    (g.run cs).1.map (fun id => id.index.toNat) =
      (List.range' g.size cs.length).map (fun i => i % UInt32.size) := by
  induction cs generalizing g with
  | nil => rfl
  | cons c cs ih =>
    -- A call leaves one node more, so the positions of the later nodes start one higher.
    have hrest := ih (g.call c).2
    rw [size_call] at hrest
    rw [run, List.map_cons, hrest, index_call, List.length_cons, List.range'_succ, List.map_cons]

theorem index_run_of_size_le {g : Graph} {cs : List Call}
    (h : (g.run cs).2.size ≤ UInt32.size) :
    (g.run cs).1.map (fun id => id.index.toNat) = List.range' g.size cs.length := by
  rw [size_run] at h
  have hmod : ∀ i ∈ List.range' g.size cs.length, i % UInt32.size = i := by
    intro i hi
    have hlt := (List.mem_range'_1.1 hi).2
    exact Nat.mod_eq_of_lt (Nat.lt_of_lt_of_le hlt h)
  rw [index_run, List.map_congr_left hmod, List.map_id']

/-- Nodes stay where they are: what a number names it names for good. -/
theorem get?_run {g : Graph} {id : NodeId} {n : Node} (h : g.get? id = some n)
    (cs : List Call) : (g.run cs).2.get? id = some n := by
  rw [get?_eq_getElem?] at h
  have hlt := (List.getElem?_eq_some_iff.1 h).1
  rw [get?_eq_getElem?, toList_run, List.getElem?_append_left hlt, h]

theorem get?_of_call {g : Graph} {cs : List Call} (h : (g.run cs).2.size ≤ UInt32.size)
    {i : Nat} {c : Call} {id : NodeId} (hc : cs[i]? = some c)
    (hid : (g.run cs).1[i]? = some id) : (g.run cs).2.get? id = some c.node := by
  have hlt := (List.getElem?_eq_some_iff.1 hc).1
  have hindex : id.index.toNat = g.size + i := by
    have hi := congrArg (fun l => l[i]?) (index_run_of_size_le h)
    simpa [hid, List.getElem?_range' hlt] using hi
  rw [get?_eq_getElem?, toList_run, hindex, ← length_toList,
    List.getElem?_append_right (Nat.le_add_right _ _), Nat.add_sub_cancel_left,
    List.getElem?_map, hc, Option.map_some]

theorem get?_eq_none_iff {g : Graph} {id : NodeId} :
    g.get? id = none ↔ g.size ≤ id.index.toNat := by
  rw [get?_eq_getElem?, List.getElem?_eq_none_iff, length_toList]

theorem node_eq_ok_iff {g : Graph} {id : NodeId} {n : Node} :
    g.node id = .ok n ↔ g.get? id = some n := by
  rw [node, get?]
  split <;> simp [*]

theorem node_eq_error_iff {g : Graph} {id : NodeId} :
    g.node id = .error (.foreignNode id) ↔ g.get? id = none := by
  rw [node, get?]
  split <;> simp [*]

theorem entries_of_size_le {g : Graph} (h : g.size ≤ UInt32.size) :
    g.entries.map (fun e => (e.2, e.1.index.toNat)) = g.toList.zipIdx := by
  have hpos : ∀ e ∈ g.toList.zipIdx, (e.1, (UInt32.ofNat e.2).toNat) = e := by
    intro e he
    have hlt := (List.mem_zipIdx' he).1
    rw [length_toList] at hlt
    have hmod : e.2 % UInt32.size = e.2 := Nat.mod_eq_of_lt (Nat.lt_of_lt_of_le hlt h)
    exact Prod.ext rfl (UInt32.toNat_ofNat'.trans hmod)
  rw [entries, List.map_map]
  exact (List.map_congr_left hpos).trans (List.map_id' _)

theorem toList_skeleton :
    skeleton.toList = [⟨.control .start, []⟩, ⟨.control .finish, [⟨0⟩]⟩] := rfl

theorem size_skeleton : skeleton.size = 2 := rfl

theorem isSkeleton_iff {cs : List Call} :
    (skeleton.run cs).2.isSkeleton = true ↔ cs = [] := by
  rw [isSkeleton, decide_eq_true_eq, size_run, size_skeleton, ← List.length_eq_zero_iff]
  omega

/-- What some calls leave of a skeleton: the nodes of the calls behind its own two, and for each
call the number under which its node is found from then on. -/
structure Built (cs : List Call) (ids : List NodeId) (g : Graph) : Prop where
  toList_eq : g.toList =
    ⟨.control .start, []⟩ :: ⟨.control .finish, [g.start]⟩ :: cs.map Call.node
  start_eq : g.start = ⟨0⟩
  finish_eq : g.finish = ⟨1⟩
  index_eq : ids.map (fun id => id.index.toNat) = List.range' 2 cs.length
  nodup : ids.Nodup
  get?_eq : ∀ (i : Nat) (c : Call) (id : NodeId), cs[i]? = some c → ids[i]? = some id →
    ∀ later, (g.run later).2.get? id = some c.node
  node_eq_ok : ∀ id n, g.node id = .ok n ↔ g.get? id = some n
  node_eq_error : ∀ id, g.node id = .error (.foreignNode id) ↔ g.get? id = none
  get?_eq_none : ∀ id, g.get? id = none ↔ g.size ≤ id.index.toNat
  entries_eq : g.entries.map (fun e => (e.2, e.1.index.toNat)) = g.toList.zipIdx
  isSkeleton_eq : g.isSkeleton = true ↔ cs = []

theorem built_run {cs : List Call} (h : (skeleton.run cs).2.size ≤ UInt32.size) :
    Built cs (skeleton.run cs).1 (skeleton.run cs).2 where
  toList_eq := by
    rw [toList_run, toList_skeleton, start_run]
    rfl
  start_eq := start_run skeleton cs
  finish_eq := finish_run skeleton cs
  index_eq := index_run_of_size_le h
  nodup := by
    have hrange : (List.range' 2 cs.length).Nodup := List.nodup_range'
    rw [← size_skeleton, ← index_run_of_size_le h] at hrange
    exact hrange.of_map _
  get?_eq _ _ _ hc hid := get?_run (get?_of_call h hc hid)
  node_eq_ok _ _ := node_eq_ok_iff
  node_eq_error _ := node_eq_error_iff
  get?_eq_none _ := get?_eq_none_iff
  entries_eq := entries_of_size_le h
  isSkeleton_eq := isSkeleton_iff

/-- The number of the node after the last that 32 bits can tell apart is that of the first. -/
theorem call_of_size_eq {cs : List Call} (h : (skeleton.run cs).2.size = UInt32.size) (c : Call) :
    ((skeleton.run cs).2.call c).1 = (skeleton.run cs).2.start := by
  have hindex := index_call (skeleton.run cs).2 c
  rw [h, Nat.mod_self] at hindex
  rw [start_run]
  exact congrArg NodeId.mk (UInt32.toNat_inj.1 hindex)

/-- The builder only ever appends. As long as 32 bits number its nodes each of them keeps the
number that its call returned; the numbers beyond that begin anew. -/
theorem skeleton_run_built :
    (default : Graph) = skeleton ∧
    (∀ cs, (skeleton.run cs).2.size ≤ UInt32.size →
      Built cs (skeleton.run cs).1 (skeleton.run cs).2) ∧
    ∀ cs c, let g := (skeleton.run cs).2
      (g.call c).1.index.toNat = g.size % UInt32.size ∧
      (g.size = UInt32.size → (g.call c).1 = g.start ∧
        (g.call c).2.get? (g.call c).1 = some ⟨.control .start, []⟩) := by
  refine ⟨rfl, fun cs => built_run, fun cs c => ⟨index_call _ c, fun h => ?_⟩⟩
  have hstart := call_of_size_eq h c
  refine ⟨hstart, ?_⟩
  rw [hstart, get?_eq_getElem?, toList_call, toList_run, start_run]
  rfl

theorem built_of_unchecked_inputs :
    let cs : List Call := [.parameter 7, .math .log10 ⟨9⟩, .ret ⟨0⟩ ⟨4294967295⟩]
    let later : List Call := [.constInt (-3), .intAdd ⟨2⟩ ⟨5⟩]
    let g := (skeleton.run cs).2
    g.size ≤ UInt32.size ∧ (skeleton.run cs).1 = [⟨2⟩, ⟨3⟩, ⟨4⟩] ∧
      (g.run later).2.get? ⟨4⟩ = some (.ret ⟨0⟩ ⟨4294967295⟩) ∧
      g.node ⟨9⟩ = .error (.foreignNode ⟨9⟩) := by
  intro cs later g
  have hsize : g.size ≤ UInt32.size := by decide
  have hg := skeleton_run_built.2.1 cs hsize
  refine ⟨hsize, rfl, hg.get?_eq 2 (.ret ⟨0⟩ ⟨4294967295⟩) ⟨4⟩ rfl rfl later, ?_⟩
  rw [hg.node_eq_error, hg.get?_eq_none]
  decide

end Graph

end NodeCost
