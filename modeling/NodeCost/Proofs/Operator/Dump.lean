import NodeCost.Operator.Basic
import NodeCost.Proofs.Text.Label

namespace NodeCost

open Text

instance : LawfulEnumerated Arithmetic where
  ofLabel?_label op := by cases op <;> rfl
  isWord_label op := by cases op <;> rfl

instance : LawfulEnumerated Comparison where
  ofLabel?_label cmp := by cases cmp <;> rfl
  isWord_label cmp := by cases cmp <;> rfl

instance : LawfulEnumerated BitOperation where
  ofLabel?_label op := by cases op <;> rfl
  isWord_label op := by cases op <;> rfl

instance : LawfulEnumerated MemoryOperation where
  ofLabel?_label op := by cases op <;> rfl
  isWord_label op := by cases op <;> rfl

instance : LawfulEnumerated ControlOperation where
  ofLabel?_label op := by cases op <;> rfl
  isWord_label op := by cases op <;> rfl

instance : LawfulEnumerated GuardKind where
  ofLabel?_label kind := by cases kind <;> rfl
  isWord_label kind := by cases kind <;> rfl

instance : LawfulEnumerated CallKind where
  ofLabel?_label kind := by cases kind <;> rfl
  isWord_label kind := by cases kind <;> rfl

instance : LawfulEnumerated MathFunction where
  ofLabel?_label function := by cases function <;> rfl
  isWord_label function := by cases function <;> rfl

instance : LawfulEnumerated ElementKind where
  ofLabel?_label kind := by cases kind <;> rfl
  isWord_label kind := by cases kind <;> rfl

namespace Operator

def heads : List String :=
  ["ConstInt", "ConstFloat", "ConstBool", "ConstNone", "Parameter", "IntOp", "FloatOp", "GenericOp",
   "MulHigh", "MulHighSigned", "IntCmp", "FloatCmp", "GenericCmp", "Bitwise", "LogicalNot",
   "Memory", "Control", "Guard", "Call", "Phi", "LoopPhi", "Projection", "BuildList",
   "BuildTuple", "GetIter", "IterNext", "GetItem", "SetItem", "GetAttr", "SetAttr", "Len",
   "TypeCheck", "Box", "Unbox", "MathIntrinsic", "ArrayEquals"]

theorem idxOf_head (op : Operator) : heads.idxOf op.head = op.ctorIdx := by
  cases op <;> rfl

theorem isWord_head (op : Operator) : isWord op.head = true := by
  cases op <;> simp only [head] <;> rfl

theorem isWord_of_payload? {op : Operator} {p : String} (h : op.payload? = some p) :
    isWord p = true := by
  cases op with
  | constInt value =>
    cases h
    exact isWord_toString_int _
  | constFloat | parameter | projection | buildList | buildTuple =>
    cases h
    exact isWord_toString_nat _
  | constBool value =>
    cases h
    cases value <;> rfl
  | intOp | floatOp | genericOp | intCmp | floatCmp | genericCmp | bitwise | memory | control
  | guard | call | mathIntrinsic | arrayEquals =>
    cases h
    exact isWord_label _
  | _ => cases h

theorem eq_of_head_eq {a b : Operator} (hh : a.head = b.head) (hp : a.payload? = b.payload?) :
    a = b := by
  -- The place of a name in the table fixes the constructor: of all pairs of operators those of
  -- one kind are left, and what they carry is printed one to one.
  have hi : a.ctorIdx = b.ctorIdx := by rw [← idxOf_head, ← idxOf_head, hh]
  cases a <;> cases b <;>
    first
    | exact absurd hi (Nat.ne_of_beq_eq_false rfl)
    | rfl
    | replace hp := Option.some.inj hp
  case constInt.constInt => exact congrArg constInt (Int64.toInt_inj.1 (toString_int_injective hp))
  case constFloat.constFloat => exact congrArg constFloat (UInt64.toNat_inj.1 (toString_nat_injective hp))
  case constBool.constBool v w =>
    cases v <;> cases w <;> first | rfl | exact absurd hp (by decide)
  case parameter.parameter => exact congrArg parameter (UInt16.toNat_inj.1 (toString_nat_injective hp))
  case projection.projection => exact congrArg projection (UInt8.toNat_inj.1 (toString_nat_injective hp))
  case buildList.buildList => exact congrArg buildList (UInt16.toNat_inj.1 (toString_nat_injective hp))
  case buildTuple.buildTuple => exact congrArg buildTuple (UInt16.toNat_inj.1 (toString_nat_injective hp))
  all_goals exact congrArg _ (eq_of_label_eq hp)

/-- The first parenthesis stands between the name and what the operator carries. -/
theorem cut_dump (op : Operator) : cut '(' op.dump.toList =
    (op.head.toList, op.payload?.map fun p => p.toList ++ [')']) := by
  have hh : '(' ∉ op.head.toList := not_mem_of_isWord op.isWord_head rfl
  rw [dump]
  cases op.payload? with
  | none => exact cut_of_not_mem hh
  | some p =>
    simp only [String.toList_append, List.append_assoc]
    exact cut_append hh _

theorem dump_injective : Function.Injective dump := by
  intro a b h
  have hcut := congrArg (fun s : String => cut '(' s.toList) h
  simp only [cut_dump, Prod.mk.injEq] at hcut
  obtain ⟨hh, hp⟩ := hcut
  have hclose : Function.Injective fun p : String => p.toList ++ [')'] := fun p q hpq =>
    String.toList_inj.1 (List.append_cancel_right hpq)
  exact eq_of_head_eq (String.toList_inj.1 hh) (Option.map_injective hclose hp)

theorem not_mem_dump {op : Operator} {c : Char} (hc : isWordChar c = false) (ho : c ≠ '(')
    (hd : c ≠ ')') : c ∉ op.dump.toList := by
  have hh : c ∉ op.head.toList := not_mem_of_isWord op.isWord_head hc
  rw [dump]
  cases hp : op.payload? with
  | none => exact hh
  | some p =>
    have hw : c ∉ p.toList := not_mem_of_isWord (isWord_of_payload? hp) hc
    simp [String.toList_append, hh, hw, ho, hd]

end Operator

end NodeCost
