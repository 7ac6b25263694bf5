import NodeCost.Model.Basic

namespace NodeCost.Generic

/-- The tier of an operator about which nothing is known. -/
def defaultCycles : Cycles := .two

def defaultSize : Size := .two

def controlCycles : ControlOperation → Cycles
  | .start | .finish | .region | .loop => .zero
  | .throw | .deopt => .ten
  | .branch | .ret => defaultCycles

def controlSize : ControlOperation → Size
  | .start | .finish | .region | .loop => .zero
  | .throw | .deopt => .eight
  | .branch | .ret => defaultSize

def intCycles (op : Arithmetic) : Cycles :=
  if op.isDivision then .twenty
  else match op with
    | .pow => .thirty
    | .mul => .two
    | _ => .one

def intSize (op : Arithmetic) : Size :=
  if op.isDivision then .four else if op = .pow then .eight else .one

def floatCycles (op : Arithmetic) : Cycles :=
  if op.isDivision then .ten else if op = .pow then .thirty else defaultCycles

def floatSize (op : Arithmetic) : Size := if op = .pow then .eight else defaultSize

/-- Constants, parameters and what only merges or selects values are free; what goes through the
run time system is dear. -/
def cycles : Operator → Cycles
  | .constInt _ | .constFloat _ | .constBool _ | .constNone | .parameter _ => .zero
  | .phi | .loopPhi | .projection _ => .zero
  | .control op => controlCycles op
  | .intOp op => intCycles op
  | .floatOp op => floatCycles op
  | .genericOp _ | .genericCmp _ => .thirty
  | .mulHigh | .mulHighSigned => .two
  | .intCmp _ | .bitwise _ | .logicalNot | .guard _ => .one
  | .floatCmp _ => defaultCycles
  | .memory op => if op.isAllocation then .twenty else defaultCycles
  | .call kind => if kind = .tail then .twenty else .thirty
  | .len => .four
  | .buildList _ | .buildTuple _ | .getIter | .iterNext | .getItem | .setItem | .getAttr
  | .setAttr | .typeCheck | .box | .unbox => .fifteen
  | .mathIntrinsic _ => .eight
  | .arrayEquals _ => .hundred

def size : Operator → Size
  | .constInt _ | .constFloat _ | .constBool _ | .constNone | .parameter _ => .zero
  | .phi | .loopPhi | .projection _ => .zero
  | .control op => controlSize op
  | .intOp op => intSize op
  | .floatOp op => floatSize op
  | .genericOp _ | .genericCmp _ => .ten
  | .intCmp _ | .bitwise _ | .logicalNot | .mulHigh | .mulHighSigned => .one
  | .floatCmp _ | .guard _ => defaultSize
  | .memory op => if op.isAllocation then .ten else defaultSize
  | .call kind => if kind = .tail then .eight else .ten
  | .len => .three
  | .buildList _ | .buildTuple _ | .getIter | .iterNext | .getItem | .setItem | .getAttr
  | .setAttr | .typeCheck | .box | .unbox => .eight
  | .mathIntrinsic _ => .two
  | .arrayEquals _ => .twenty

def model : CostModel where
  name := "generic"
  cycles n := cycles n.op
  size n := size n.op

end NodeCost.Generic
