import NodeCost.Operator.Arithmetic
import NodeCost.Operator.Effect
import NodeCost.Operator.Intrinsic
import NodeCost.Operator.Category

namespace NodeCost

/-- What a node computes. A float constant is kept as its bits. -/
inductive Operator where
  | constInt (value : Int64)
  | constFloat (bits : UInt64)
  | constBool (value : Bool)
  | constNone
  | parameter (index : UInt16)
  | intOp (op : Arithmetic)
  | floatOp (op : Arithmetic)
  | genericOp (op : Arithmetic)
  | mulHigh
  | mulHighSigned
  | intCmp (cmp : Comparison)
  | floatCmp (cmp : Comparison)
  | genericCmp (cmp : Comparison)
  | bitwise (op : BitOperation)
  | logicalNot
  | memory (op : MemoryOperation)
  | control (op : ControlOperation)
  | guard (kind : GuardKind)
  | call (kind : CallKind)
  | phi
  | loopPhi
  | projection (index : UInt8)
  | buildList (count : UInt16)
  | buildTuple (count : UInt16)
  | getIter
  | iterNext
  | getItem
  | setItem
  | getAttr
  | setAttr
  | len
  | typeCheck
  | box
  | unbox
  | mathIntrinsic (function : MathFunction)
  | arrayEquals (kind : ElementKind)
deriving DecidableEq, Repr

namespace Operator

def category : Operator → Category
  | constInt _ | constFloat _ | constBool _ | constNone | parameter _ => .constant
  | intOp _ | floatOp _ | genericOp _ | mulHigh | mulHighSigned => .arithmetic
  | intCmp _ | floatCmp _ | genericCmp _ => .comparison
  | bitwise _ | logicalNot => .bitwise
  | memory _ => .memory
  | control _ => .control
  | guard _ => .guard
  | call _ => .call
  | phi | loopPhi => .phi
  | projection _ => .projection
  | buildList _ | buildTuple _ | getIter | iterNext | getItem | setItem | getAttr | setAttr |
    len | typeCheck | box | unbox => .object
  | mathIntrinsic _ | arrayEquals _ => .intrinsic

def head : Operator → String
  | constInt _ => "ConstInt"
  | constFloat _ => "ConstFloat"
  | constBool _ => "ConstBool"
  | constNone => "ConstNone"
  | parameter _ => "Parameter"
  | intOp _ => "IntOp"
  | floatOp _ => "FloatOp"
  | genericOp _ => "GenericOp"
  | mulHigh => "MulHigh"
  | mulHighSigned => "MulHighSigned"
  | intCmp _ => "IntCmp"
  | floatCmp _ => "FloatCmp"
  | genericCmp _ => "GenericCmp"
  | bitwise _ => "Bitwise"
  | logicalNot => "LogicalNot"
  | memory _ => "Memory"
  | control _ => "Control"
  | guard _ => "Guard"
  | call _ => "Call"
  | phi => "Phi"
  | loopPhi => "LoopPhi"
  | projection _ => "Projection"
  | buildList _ => "BuildList"
  | buildTuple _ => "BuildTuple"
  | getIter => "GetIter"
  | iterNext => "IterNext"
  | getItem => "GetItem"
  | setItem => "SetItem"
  | getAttr => "GetAttr"
  | setAttr => "SetAttr"
  | len => "Len"
  | typeCheck => "TypeCheck"
  | box => "Box"
  | unbox => "Unbox"
  | mathIntrinsic _ => "MathIntrinsic"
  | arrayEquals _ => "ArrayEquals"

def payload? : Operator → Option String
  | constInt value => some (toString value.toInt)
  | constFloat bits => some (toString bits.toNat)
  | constBool value => some (toString value)
  | parameter index => some (toString index.toNat)
  | intOp op | floatOp op | genericOp op => some (label op)
  | intCmp cmp | floatCmp cmp | genericCmp cmp => some (label cmp)
  | bitwise op => some (label op)
  | memory op => some (label op)
  | control op => some (label op)
  | guard kind => some (label kind)
  | call kind => some (label kind)
  | projection index => some (toString index.toNat)
  | buildList count => some (toString count.toNat)
  | buildTuple count => some (toString count.toNat)
  | mathIntrinsic function => some (label function)
  | arrayEquals kind => some (label kind)
  | _ => none

def payloadIndex? : Operator → Option Nat
  | intOp op | floatOp op | genericOp op => some op.index
  | intCmp cmp | floatCmp cmp | genericCmp cmp => some cmp.index
  | bitwise op => some op.index
  | memory op => some op.index
  | control op => some op.index
  | guard kind => some kind.index
  | call kind => some kind.index
  | mathIntrinsic function => some function.index
  | arrayEquals kind => some kind.index
  | _ => none

def dump (op : Operator) : String :=
  match op.payload? with
  | none => op.head
  | some p => op.head ++ "(" ++ p ++ ")"

end Operator

end NodeCost
