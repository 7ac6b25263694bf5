import NodeCost.Target.Feature

namespace NodeCost

/-- A set of features in one machine word: bit `i` stands for the feature with index `i`, and
no bit is set that stands for none. -/
structure FeatureSet where
  bits : UInt32 := 0
  exists_index : ∀ i, bits.toNat.testBit i = true → ∃ f : Feature, f.index = i := by simp
deriving DecidableEq, Repr

namespace FeatureSet

def empty : FeatureSet := {}

instance : EmptyCollection FeatureSet := ⟨empty⟩

instance : Inhabited FeatureSet := ⟨empty⟩

def insert (s : FeatureSet) (f : Feature) : FeatureSet where
  bits := s.bits ||| f.bit
  exists_index i h := by
    rw [UInt32.toNat_or, Nat.testBit_or, Bool.or_eq_true, f.testBit_bit] at h
    exact h.elim (s.exists_index i) fun h => ⟨f, h⟩

def contains (s : FeatureSet) (f : Feature) : Bool := s.bits &&& f.bit != 0

def isEmpty (s : FeatureSet) : Bool := s.bits == 0

def size (s : FeatureSet) : Nat := (List.range 32).countP (fun i => s.bits.toNat.testBit i)

def toList (s : FeatureSet) : List Feature := Feature.all.filter s.contains

def ofList (fs : List Feature) : FeatureSet := fs.foldl insert empty

inductive Edit where
  | clear
  | insert (f : Feature)
  | assign (fs : List Feature)

def edit (s : FeatureSet) : Edit → FeatureSet
  | .clear => empty
  | .insert f => s.insert f
  | .assign fs => ofList fs

def ofEdits (edits : List Edit) : FeatureSet := edits.foldl edit empty

def text (s : FeatureSet) : String := ",".intercalate (s.toList.map Feature.name)

def dump (s : FeatureSet) : String := "\x7b" ++ ", ".intercalate (s.toList.map label) ++ "\x7d"

def dumpLines (s : FeatureSet) : String :=
  if s.isEmpty then "\x7b\x7d"
  else "\x7b\n" ++ String.join (s.toList.map fun f => "    " ++ label f ++ ",\n") ++ "\x7d"

theorem contains_eq_testBit (s : FeatureSet) (f : Feature) :
    s.contains f = s.bits.toNat.testBit f.index := by
  have h : s.bits &&& f.bit = 0 ↔ s.bits.toNat.testBit f.index = false := by
    rw [← UInt32.toNat_inj, UInt32.toNat_and, f.toNat_bit, Nat.one_shiftLeft]
    constructor
    · intro h
      simpa [Nat.testBit_and, Nat.testBit_two_pow] using congrArg (Nat.testBit · f.index) h
    · intro h
      apply Nat.eq_of_testBit_eq
      intro j
      by_cases hj : f.index = j
      · subst hj
        simp [h]
      · simp [hj]
  rw [Bool.eq_iff_iff, contains, bne_iff_ne, ne_eq, h, Bool.not_eq_false]

@[simp] theorem contains_empty (f : Feature) : (∅ : FeatureSet).contains f = false := by
  rw [contains_eq_testBit]
  exact Nat.zero_testBit _

@[simp] theorem contains_insert {s : FeatureSet} {f g : Feature} :
    (s.insert f).contains g = true ↔ s.contains g = true ∨ g = f := by
  simp only [contains_eq_testBit, insert, UInt32.toNat_or, Nat.testBit_or, f.toNat_bit,
    Nat.one_shiftLeft, Nat.testBit_two_pow, Bool.or_eq_true, decide_eq_true_eq]
  exact or_congr_right ⟨fun h => (Feature.eq_of_index_eq h).symm, fun h => h ▸ rfl⟩

@[simp] theorem contains_foldl_insert {s : FeatureSet} {fs : List Feature} {g : Feature} :
    (fs.foldl insert s).contains g = true ↔ s.contains g = true ∨ g ∈ fs := by
  induction fs generalizing s with
  | nil => simp
  | cons f fs ih => simp [ih, or_assoc]

@[simp] theorem contains_ofList {fs : List Feature} {g : Feature} :
    (ofList fs).contains g = true ↔ g ∈ fs := by
  rw [ofList, contains_foldl_insert]
  exact or_iff_right (fun h => Bool.false_ne_true ((contains_empty g).symm.trans h))

@[simp] theorem mem_toList {s : FeatureSet} {f : Feature} : f ∈ s.toList ↔ s.contains f = true := by
  simp [toList, Feature.mem_all]

theorem pairwise_toList (s : FeatureSet) :
    s.toList.Pairwise fun f g => f.index < g.index := by
  have h : Feature.all.Pairwise fun f g => f.index < g.index := by decide
  exact h.filter _

theorem ext_contains {s t : FeatureSet} (h : ∀ f, s.contains f = true ↔ t.contains f = true) :
    s = t := by
  have hbit : ∀ i, s.bits.toNat.testBit i = t.bits.toNat.testBit i := by
    intro i
    by_cases hi : ∃ f : Feature, f.index = i
    · obtain ⟨f, rfl⟩ := hi
      rw [← contains_eq_testBit, ← contains_eq_testBit]
      exact Bool.eq_iff_iff.2 (h f)
    · have hs : s.bits.toNat.testBit i = false := Bool.eq_false_iff.2 (mt (s.exists_index i) hi)
      have ht : t.bits.toNat.testBit i = false := Bool.eq_false_iff.2 (mt (t.exists_index i) hi)
      rw [hs, ht]
  have hbits : s.bits = t.bits := UInt32.toNat_inj.1 (Nat.eq_of_testBit_eq hbit)
  cases s
  cases t
  cases hbits
  rfl

@[simp] theorem ofList_toList (s : FeatureSet) : ofList s.toList = s :=
  ext_contains fun f => by rw [contains_ofList, mem_toList]

theorem isEmpty_iff {s : FeatureSet} : s.isEmpty = true ↔ s = ∅ := by
  rw [isEmpty, beq_iff_eq]
  constructor
  · intro h
    cases s
    cases h
    rfl
  · intro h
    rw [h]
    rfl

end FeatureSet

def Feature.dumpList (fs : List Feature) : String :=
  "[" ++ ", ".intercalate (fs.map label) ++ "]"

end NodeCost
