import NodeCost.Enumerated

namespace NodeCost

inductive MemoryOperation where
  | loadField
  | storeField
  | loadElement
  | storeElement
  | alloc
  | allocArray
deriving DecidableEq, Repr

namespace MemoryOperation

def all : List MemoryOperation :=
  [loadField, storeField, loadElement, storeElement, alloc, allocArray]

def index : MemoryOperation → Nat
  | loadField => 0
  | storeField => 1
  | loadElement => 2
  | storeElement => 3
  | alloc => 4
  | allocArray => 5

instance : Enumerated MemoryOperation where
  all := all
  label
    | loadField => "LoadField"
    | storeField => "StoreField"
    | loadElement => "LoadElement"
    | storeElement => "StoreElement"
    | alloc => "Alloc"
    | allocArray => "AllocArray"

def isAllocation : MemoryOperation → Bool
  | alloc | allocArray => true
  | _ => false

end MemoryOperation

inductive ControlOperation where
  | start
  | finish
  | region
  | loop
  | branch
  | ret
  | throw
  | deopt
deriving DecidableEq, Repr

namespace ControlOperation

def all : List ControlOperation := [start, finish, region, loop, branch, ret, throw, deopt]

def index : ControlOperation → Nat
  | start => 0
  | finish => 1
  | region => 2
  | loop => 3
  | branch => 4
  | ret => 5
  | throw => 6
  | deopt => 7

instance : Enumerated ControlOperation where
  all := all
  label
    | start => "Start"
    | finish => "End"
    | region => "Region"
    | loop => "Loop"
    | branch => "If"
    | ret => "Return"
    | throw => "Throw"
    | deopt => "Deopt"

end ControlOperation

inductive GuardKind where
  | type
  | bounds
  | notNull
  | overflow
  | nonZeroDivisor
deriving DecidableEq, Repr

namespace GuardKind

def all : List GuardKind := [type, bounds, notNull, overflow, nonZeroDivisor]

def index : GuardKind → Nat
  | type => 0
  | bounds => 1
  | notNull => 2
  | overflow => 3
  | nonZeroDivisor => 4

instance : Enumerated GuardKind where
  all := all
  label
    | type => "Type"
    | bounds => "Bounds"
    | notNull => "NotNull"
    | overflow => "Overflow"
    | nonZeroDivisor => "NonZeroDivisor"

end GuardKind

inductive CallKind where
  | direct
  | method
  | keyword
  | tail
  | runtime
deriving DecidableEq, Repr

namespace CallKind

def all : List CallKind := [direct, method, keyword, tail, runtime]

def index : CallKind → Nat
  | direct => 0
  | method => 1
  | keyword => 2
  | tail => 3
  | runtime => 4

instance : Enumerated CallKind where
  all := all
  label
    | direct => "Direct"
    | method => "Method"
    | keyword => "Keyword"
    | tail => "Tail"
    | runtime => "Runtime"

end CallKind

end NodeCost
