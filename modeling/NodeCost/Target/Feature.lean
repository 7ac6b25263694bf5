import NodeCost.Target.Arch

namespace NodeCost

inductive Feature where
  | sse
  | sse2
  | sse3
  | ssse3
  | sse41
  | sse42
  | popcnt
  | lzcnt
  | bmi1
  | bmi2
  | avx
  | avx2
  | fma
  | avx512f
  | asimd
  | crc32
  | lse
deriving DecidableEq, Repr

namespace Feature

def all : List Feature :=
  [sse, sse2, sse3, ssse3, sse41, sse42, popcnt, lzcnt, bmi1, bmi2, avx, avx2, fma, avx512f,
   asimd, crc32, lse]

def index : Feature → Nat
  | sse => 0
  | sse2 => 1
  | sse3 => 2
  | ssse3 => 3
  | sse41 => 4
  | sse42 => 5
  | popcnt => 6
  | lzcnt => 7
  | bmi1 => 8
  | bmi2 => 9
  | avx => 10
  | avx2 => 11
  | fma => 12
  | avx512f => 13
  | asimd => 14
  | crc32 => 15
  | lse => 16

def name : Feature → String
  | sse => "sse"
  | sse2 => "sse2"
  | sse3 => "sse3"
  | ssse3 => "ssse3"
  | sse41 => "sse4.1"
  | sse42 => "sse4.2"
  | popcnt => "popcnt"
  | lzcnt => "lzcnt"
  | bmi1 => "bmi1"
  | bmi2 => "bmi2"
  | avx => "avx"
  | avx2 => "avx2"
  | fma => "fma"
  | avx512f => "avx512f"
  | asimd => "asimd"
  | crc32 => "crc32"
  | lse => "lse"

def aliases : Feature → List String
  | sse41 => ["sse4_1"]
  | sse42 => ["sse4_2"]
  | asimd => ["neon"]
  | _ => []

def spellings (f : Feature) : List String := f.name :: f.aliases

/-- The only architecture that has the feature. -/
def arch : Feature → Arch
  | asimd | crc32 | lse => .aarch64
  | _ => .x86_64

def bit (f : Feature) : UInt32 := 1 <<< UInt32.ofNat f.index

instance : Ord Feature where
  compare a b := compare a.index b.index

instance : Enumerated Feature where
  all := all
  label
    | sse => "Sse"
    | sse2 => "Sse2"
    | sse3 => "Sse3"
    | ssse3 => "Ssse3"
    | sse41 => "Sse41"
    | sse42 => "Sse42"
    | popcnt => "Popcnt"
    | lzcnt => "Lzcnt"
    | bmi1 => "Bmi1"
    | bmi2 => "Bmi2"
    | avx => "Avx"
    | avx2 => "Avx2"
    | fma => "Fma"
    | avx512f => "Avx512F"
    | asimd => "Asimd"
    | crc32 => "Crc32"
    | lse => "Lse"

theorem mem_all (f : Feature) : f ∈ all := by cases f <;> decide

theorem index_lt (f : Feature) : f.index < 17 := by cases f <;> decide

theorem toNat_bit (f : Feature) : f.bit.toNat = 1 <<< f.index := by cases f <;> rfl

theorem testBit_bit (f : Feature) (i : Nat) : f.bit.toNat.testBit i = true ↔ f.index = i := by
  rw [toNat_bit, Nat.one_shiftLeft, Nat.testBit_two_pow, decide_eq_true_eq]

theorem eq_of_index_eq {f g : Feature} (h : f.index = g.index) : f = g := by
  cases f <;> cases g <;> first | rfl | simp [index] at h

end Feature

end NodeCost
