import NodeCost.Target.Feature

namespace NodeCost

/-- What stands for an architecture in a document. -/
def Arch.tag : Arch → String
  | .x86_64 => "x86_64"
  | .aarch64 => "aarch64"
  | .generic => "generic"

def Feature.tag : Feature → String
  | .sse => "sse"
  | .sse2 => "sse2"
  | .sse3 => "sse3"
  | .ssse3 => "ssse3"
  | .sse41 => "sse4.1"
  | .sse42 => "sse4.2"
  | .popcnt => "popcnt"
  | .lzcnt => "lzcnt"
  | .bmi1 => "bmi1"
  | .bmi2 => "bmi2"
  | .avx => "avx"
  | .avx2 => "avx2"
  | .fma => "fma"
  | .avx512f => "avx512f"
  | .asimd => "asimd"
  | .crc32 => "crc32"
  | .lse => "lse"

@[simp] theorem Arch.tag_eq_name (a : Arch) : a.tag = a.name := by cases a <;> rfl

@[simp] theorem Feature.tag_eq_name (f : Feature) : f.tag = f.name := by cases f <;> rfl

end NodeCost
