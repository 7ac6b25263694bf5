import NodeCost.Enumerated

namespace NodeCost

inductive Arch where
  | x86_64
  | aarch64
  | generic
deriving DecidableEq, Repr

namespace Arch

def all : List Arch := [x86_64, aarch64, generic]

/-- The spellings of an architecture in lower case, its canonical name first. -/
def spellings : Arch → List String
  | x86_64 => ["x86_64", "x86-64", "amd64"]
  | aarch64 => ["aarch64", "arm64"]
  | generic => ["generic"]

def name : Arch → String
  | x86_64 => "x86_64"
  | aarch64 => "aarch64"
  | generic => "generic"

instance : Enumerated Arch where
  all := all
  label
    | x86_64 => "X86_64"
    | aarch64 => "AArch64"
    | generic => "Generic"

theorem mem_all (a : Arch) : a ∈ all := by cases a <;> decide

end Arch

end NodeCost
