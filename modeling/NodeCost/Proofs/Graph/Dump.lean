import NodeCost.Proofs.Graph.Builder
import NodeCost.Proofs.Operator.Dump

namespace NodeCost

open Text

namespace NodeId

theorem isWord_dump (id : NodeId) : isWord id.dump = true := by
  have hd := isWord_toString_nat id.index.toNat
  rw [isWord] at hd ⊢
  rw [dump, String.toList_append, List.all_append, hd, Bool.and_true]
  rfl

theorem dump_injective : Function.Injective dump := by
  intro a b h
  have hl := congrArg String.toList h
  simp only [dump, String.toList_append, List.append_right_inj] at hl
  exact congrArg mk (UInt32.toNat_inj.1 (toString_nat_injective (String.toList_injective hl)))

theorem dumpList_injective : Function.Injective dumpList := by
  intro as bs h
  have hinner : ", ".intercalate (as.map dump) = ", ".intercalate (bs.map dump) := by
    have hl := congrArg String.toList h
    simp only [dumpList, String.toList_append, List.append_left_inj, List.append_right_inj] at hl
    exact String.toList_injective hl
  exact intercalate_injective isWord_dump (fun id => by simp [dump]) dump_injective hinner

theorem not_mem_dumpList {ids : List NodeId} {c : Char} (hw : isWordChar c = false)
    (hc : c ∉ ['[', ',', ' ', ']']) : c ∉ (dumpList ids).toList := by
  simp only [List.mem_cons, List.not_mem_nil, or_false, not_or] at hc
  obtain ⟨hopen, hcomma, hblank, hclose⟩ := hc
  have hinner : c ∉ (", ".intercalate (ids.map dump)).toList := by
    intro hm
    rw [String.toList_intercalate] at hm
    obtain hm | ⟨p, hp, hm⟩ := mem_of_mem_intercalate hm
    · simp [hcomma, hblank] at hm
    · simp only [List.mem_map, exists_exists_and_eq_and] at hp
      obtain ⟨id, -, rfl⟩ := hp
      exact not_mem_of_isWord id.isWord_dump hw hm
  simp only [dumpList, String.toList_append, List.mem_append, not_or]
  exact ⟨⟨by simpa using hopen, hinner⟩, by simpa using hclose⟩

end NodeId

namespace Node

theorem cut_dump (n : Node) : cut ' ' n.dump.toList =
    (n.op.dump.toList,
      if n.inputs.isEmpty then none else some (NodeId.dumpList n.inputs).toList) := by
  have hop : ' ' ∉ n.op.dump.toList := Operator.not_mem_dump rfl (by decide) (by decide)
  rw [dump]
  split
  · exact cut_of_not_mem hop
  · rw [String.toList_append, String.toList_append, List.append_assoc]
    exact cut_append hop _

theorem dump_injective : Function.Injective dump := by
  rintro ⟨op, ids⟩ ⟨op', ids'⟩ h
  have hcut := congrArg (fun s : String => cut ' ' s.toList) h
  simp only [cut_dump, Prod.mk.injEq] at hcut
  obtain ⟨hop, hids⟩ := hcut
  have hop : op = op' := Operator.dump_injective (String.toList_injective hop)
  have hids : ids = ids' := by
    cases ids with
    | nil =>
      cases ids' with
      | nil => rfl
      | cons => cases hids
    | cons =>
      cases ids' with
      | nil => cases hids
      | cons =>
        exact NodeId.dumpList_injective (String.toList_injective (Option.some.inj hids))
  rw [hop, hids]

theorem newline_not_mem_dump (n : Node) : '\n' ∉ n.dump.toList := by
  have hop : '\n' ∉ n.op.dump.toList := Operator.not_mem_dump rfl (by decide) (by decide)
  have hids : '\n' ∉ (NodeId.dumpList n.inputs).toList := NodeId.not_mem_dumpList rfl (by decide)
  rw [dump]
  split
  · exact hop
  · simp [String.toList_append, hop, hids]

end Node

namespace Graph

def lineChars (e : NodeId × Node) : List Char :=
  [' ', ' '] ++ e.1.dump.toList ++ ':' :: ' ' :: e.2.dump.toList

theorem toList_dumpEntry (e : NodeId × Node) :
    (dumpEntry e).toList = lineChars e ++ ['\n'] := by
  simp [dumpEntry, lineChars, String.toList_append]

theorem lineChars_injective : Function.Injective lineChars := by
  rintro ⟨id, n⟩ ⟨id', n'⟩ h
  have hcut : ∀ e : NodeId × Node, cut ':' (lineChars e) =
      ([' ', ' '] ++ e.1.dump.toList, some (' ' :: e.2.dump.toList)) := by
    intro e
    have hid : ':' ∉ e.1.dump.toList := not_mem_of_isWord e.1.isWord_dump rfl
    exact cut_append (by simpa using hid) _
  have hc := congrArg (cut ':') h
  simp only [hcut, Prod.mk.injEq, List.append_right_inj, Option.some.injEq, List.cons.injEq,
    true_and] at hc
  obtain ⟨hid, hn⟩ := hc
  rw [NodeId.dump_injective (String.toList_injective hid),
    Node.dump_injective (String.toList_injective hn)]

theorem newline_not_mem_lineChars (e : NodeId × Node) : '\n' ∉ lineChars e := by
  have hid : '\n' ∉ e.1.dump.toList := not_mem_of_isWord e.1.isWord_dump rfl
  simp [lineChars, hid, e.2.newline_not_mem_dump]

theorem map_snd_entries (g : Graph) : g.entries.map Prod.snd = g.toList := by
  rw [entries, List.map_map]
  exact List.zipIdx_map_fst 0 g.toList

theorem splitOn_dump (g : Graph) : g.dump.toList.splitOn '\n' =
    ("Graph (" ++ toString g.size ++ " nodes):").toList :: g.entries.map lineChars ++ [[]] := by
  have hn : '\n' ∉ (toString g.size).toList := not_mem_of_isWord (isWord_toString_nat _) rfl
  have hhead : '\n' ∉ ("Graph (" ++ toString g.size ++ " nodes):").toList := by
    simpa [String.toList_append] using hn
  have hchars : g.dump.toList = ("Graph (" ++ toString g.size ++ " nodes):").toList ++
      '\n' :: ((String.join (g.entries.map dumpEntry)).toList ++ []) := by
    simp [dump, String.toList_append]
  rw [hchars, List.splitOn_append_cons_self_of_not_mem hhead,
    splitOn_join toList_dumpEntry newline_not_mem_lineChars]
  rfl

theorem dump_eq_dump_iff {g h : Graph} : g.dump = h.dump ↔ g.toList = h.toList := by
  constructor
  · intro hd
    have hp := congrArg (fun s : String => s.toList.splitOn '\n') hd
    simp only [splitOn_dump, List.append_left_inj, List.cons.injEq] at hp
    rw [← map_snd_entries, ← map_snd_entries, lineChars_injective.list_map hp.2]
  · intro hl
    rw [dump, dump, entries, entries, ← length_toList, ← length_toList, hl]

theorem eq_of_toList_eq {g h : Graph} (hl : g.toList = h.toList) (hs : g.start = h.start)
    (hf : g.finish = h.finish) : g = h := by
  cases g
  cases h
  rw [toList, toList, Array.toList_inj] at hl
  cases hl
  cases hs
  cases hf
  rfl

theorem run_skeleton_eq_iff {cs ds : List Call} :
    (skeleton.run cs).2 = (skeleton.run ds).2 ↔
      (skeleton.run cs).2.toList = (skeleton.run ds).2.toList := by
  refine ⟨congrArg toList, fun h => ?_⟩
  have hstart : (skeleton.run cs).2.start = (skeleton.run ds).2.start := by
    rw [start_run, start_run]
  have hfinish : (skeleton.run cs).2.finish = (skeleton.run ds).2.finish := by
    rw [finish_run, finish_run]
  exact eq_of_toList_eq h hstart hfinish

/-- A dump loses nothing: a node is read off its text, and of a graph, however many nodes it has,
the text tells all of them in order. Of what the builder leaves that is the whole graph. -/
theorem dump_eq_iff :
    (∀ m n : Node, m.dump = n.dump ↔ m = n) ∧
    (∀ g h : Graph, g.dump = h.dump ↔ g.toList = h.toList) ∧
    ∀ cs ds : List Call, let g := (skeleton.run cs).2; let h := (skeleton.run ds).2
      (g.dump = h.dump ↔ g = h) ∧ (g = h ↔ cs.map Call.node = ds.map Call.node) := by
  refine ⟨fun m n => Node.dump_injective.eq_iff, fun g h => dump_eq_dump_iff, fun cs ds => ⟨?_, ?_⟩⟩
  · exact dump_eq_dump_iff.trans run_skeleton_eq_iff.symm
  · rw [run_skeleton_eq_iff, toList_run, toList_run, List.append_right_inj]

end Graph

end NodeCost
