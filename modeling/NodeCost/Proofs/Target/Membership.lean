import Mathlib.Algebra.GroupWithZero.Nat
import Mathlib.Data.Finset.Card
import NodeCost.Target.FeatureSet

namespace NodeCost.FeatureSet

namespace Edit

def apply (M : Finset Feature) : Edit → Finset Feature
  | clear => ∅
  | insert f => Insert.insert f M
  | assign fs => fs.toFinset

def added (edits : List Edit) : Finset Feature := edits.foldl apply ∅

def Adds (f : Feature) : Edit → Prop
  | clear => False
  | insert g => f = g
  | assign fs => f ∈ fs

def isReset : Edit → Bool
  | insert _ => false
  | clear | assign _ => true

/-- Some change of the history adds the feature, and no later one resets the set. -/
def AddedSinceReset (f : Feature) (edits : List Edit) : Prop :=
  ∃ before e after, edits = before ++ e :: after ∧ e.Adds f ∧ ∀ e' ∈ after, e'.isReset = false

theorem added_append_singleton (edits : List Edit) (e : Edit) :
    added (edits ++ [e]) = e.apply (added edits) := by
  rw [added, List.foldl_append]
  rfl

theorem addedSinceReset_append_singleton {f : Feature} {edits : List Edit} {e : Edit} :
    AddedSinceReset f (edits ++ [e]) ↔
      e.Adds f ∨ (e.isReset = false ∧ AddedSinceReset f edits) := by
  constructor
  · rintro ⟨before, d, after, h, hd, hafter⟩
    -- The change that adds the feature is the last one, or the last one comes later.
    obtain rfl | ⟨after, c, rfl⟩ := List.eq_nil_or_concat after
    · obtain ⟨-, he⟩ := List.append_inj' h rfl
      cases he
      exact Or.inl hd
    · rw [List.concat_eq_append, ← List.cons_append, ← List.append_assoc] at h
      obtain ⟨rfl, he⟩ := List.append_inj' h rfl
      cases he
      refine Or.inr ⟨hafter e (by simp), before, d, after, rfl, hd, ?_⟩
      exact fun e' he' => hafter e' (by simp [he'])
  · rintro (he | ⟨he, before, d, after, rfl, hd, hafter⟩)
    · exact ⟨edits, e, [], rfl, he, fun e' he' => absurd he' List.not_mem_nil⟩
    · refine ⟨before, d, after ++ [e], by simp, hd, ?_⟩
      intro e' he'
      obtain he' | he' := List.mem_append.1 he'
      · exact hafter e' he'
      · rw [List.mem_singleton.1 he', he]

theorem mem_added_iff {f : Feature} {edits : List Edit} :
    f ∈ added edits ↔ AddedSinceReset f edits := by
  induction edits using List.reverseRecOn with
  | nil => simp [added, AddedSinceReset]
  | append_singleton edits e ih =>
    rw [added_append_singleton, addedSinceReset_append_singleton, ← ih]
    cases e <;> simp [apply, Adds, isReset]

end Edit

/-- The members of the machine word are the elements of the set. -/
def Represents (s : FeatureSet) (M : Finset Feature) : Prop :=
  ∀ f, s.contains f = true ↔ f ∈ M

theorem represents_empty : Represents ∅ ∅ := by
  intro f
  simp

section

variable {s t : FeatureSet} {M N : Finset Feature}

theorem Represents.edit (h : s.Represents M) (e : Edit) : (s.edit e).Represents (e.apply M) := by
  intro f
  cases e with
  | clear => exact represents_empty f
  | insert g => rw [FeatureSet.edit, contains_insert, h f, Edit.apply, Finset.mem_insert, or_comm]
  | assign fs => rw [FeatureSet.edit, contains_ofList, Edit.apply, List.mem_toFinset]

theorem Represents.foldl_edit (h : s.Represents M) (edits : List Edit) :
    (edits.foldl FeatureSet.edit s).Represents (edits.foldl Edit.apply M) := by
  induction edits generalizing s M with
  | nil => exact h
  | cons e edits ih => exact ih (h.edit e)

theorem represents_ofEdits (edits : List Edit) : (ofEdits edits).Represents (Edit.added edits) :=
  represents_empty.foldl_edit edits

theorem Represents.testBit_iff (h : s.Represents M) (i : Nat) :
    s.bits.toNat.testBit i = true ↔ ∃ f ∈ M, f.index = i := by
  constructor
  · intro hi
    obtain ⟨f, rfl⟩ := s.exists_index i hi
    rw [← contains_eq_testBit] at hi
    exact ⟨f, (h f).1 hi, rfl⟩
  · rintro ⟨f, hf, rfl⟩
    rw [← contains_eq_testBit]
    exact (h f).2 hf

theorem bits_lt (s : FeatureSet) : s.bits.toNat < 2 ^ 17 := by
  apply Nat.lt_pow_two_of_testBit
  intro i hi
  apply Bool.eq_false_iff.2
  intro hbit
  obtain ⟨f, rfl⟩ := s.exists_index i hbit
  exact absurd f.index_lt (Nat.not_lt.2 hi)

theorem bits_inj : s.bits = t.bits ↔ s = t := by
  cases s
  cases t
  simp

theorem Represents.eq_iff (hs : s.Represents M) (ht : t.Represents N) : s = t ↔ M = N := by
  constructor
  · rintro rfl
    ext f
    rw [← hs f, ht f]
  · rintro rfl
    apply ext_contains
    intro f
    rw [hs f, ht f]

theorem Represents.isEmpty_iff (h : s.Represents M) : s.isEmpty = true ↔ M = ∅ := by
  rw [FeatureSet.isEmpty_iff]
  exact h.eq_iff represents_empty

theorem nodup_toList (s : FeatureSet) : s.toList.Nodup := by
  have h : Feature.all.Nodup := by decide
  exact h.filter _

theorem size_eq_length (s : FeatureSet) : s.size = s.toList.length := by
  have hindex : Function.Injective Feature.index := fun _ _ => Feature.eq_of_index_eq
  have hperm : ((List.range 32).filter fun i => s.bits.toNat.testBit i).Perm
      (s.toList.map Feature.index) := by
    rw [List.perm_ext_iff_of_nodup (List.nodup_range.filter _) (s.nodup_toList.map hindex)]
    intro i
    rw [List.mem_filter, List.mem_range, List.mem_map]
    constructor
    · rintro ⟨-, hi⟩
      obtain ⟨f, rfl⟩ := s.exists_index i hi
      rw [← contains_eq_testBit] at hi
      exact ⟨f, mem_toList.2 hi, rfl⟩
    · rintro ⟨f, hf, rfl⟩
      rw [← contains_eq_testBit]
      exact ⟨f.index_lt.trans (by decide), mem_toList.1 hf⟩
  rw [size, List.countP_eq_length_filter, hperm.length_eq, List.length_map]

theorem Represents.size_eq (h : s.Represents M) : s.size = M.card := by
  have hM : s.toList.toFinset = M := by
    ext f
    rw [List.mem_toFinset, mem_toList, h f]
  rw [size_eq_length, ← hM, List.toFinset_card_of_nodup s.nodup_toList]

end

theorem insert_comm (s : FeatureSet) (f g : Feature) :
    (s.insert f).insert g = (s.insert g).insert f := by
  apply ext_contains
  intro h
  rw [contains_insert, contains_insert, contains_insert, contains_insert, or_right_comm]

theorem insert_idem (s : FeatureSet) (f : Feature) : (s.insert f).insert f = s.insert f := by
  apply ext_contains
  intro h
  rw [contains_insert, contains_insert, or_assoc, or_self]

theorem bits_foldl_insert (s : FeatureSet) (fs : List Feature) :
    (fs.foldl insert s).bits = s.bits ||| (ofList fs).bits := by
  induction fs generalizing s with
  | nil => exact UInt32.or_zero.symm
  | cons f fs ih =>
    have hsingle : (empty.insert f).bits = f.bit := UInt32.zero_or
    have hcons : (ofList (f :: fs)).bits = f.bit ||| (ofList fs).bits :=
      hsingle ▸ ih (empty.insert f)
    rw [List.foldl_cons, ih, hcons]
    exact UInt32.or_assoc _ _ _

theorem bits_ofList_append (xs ys : List Feature) :
    (ofList (xs ++ ys)).bits = (ofList xs).bits ||| (ofList ys).bits := by
  rw [ofList, List.foldl_append, bits_foldl_insert]
  rfl

/-- Whatever history a machine word has, it stands for the features added since the last reset: they
are its members, their number is its size, and their bits are all that is set. -/
theorem ofEdits_represents_added :
    (∀ edits f, f ∈ Edit.added edits ↔ Edit.AddedSinceReset f edits) ∧
    (∀ edits,
      (∀ f, (ofEdits edits).contains f = true ↔ f ∈ Edit.added edits) ∧
      (ofEdits edits).size = (Edit.added edits).card ∧
      ((ofEdits edits).isEmpty = true ↔ Edit.added edits = ∅) ∧
      (∀ i, (ofEdits edits).bits.toNat.testBit i = true ↔
        ∃ f ∈ Edit.added edits, f.index = i) ∧
      (ofEdits edits).bits.toNat < 2 ^ 17) ∧
    (∀ edits edits',
      (ofEdits edits = ofEdits edits' ↔ Edit.added edits = Edit.added edits') ∧
      ((ofEdits edits).bits = (ofEdits edits').bits ↔ Edit.added edits = Edit.added edits')) ∧
    (∀ (s : FeatureSet) (f g : Feature), (s.insert f).insert g = (s.insert g).insert f ∧
      (s.insert f).insert f = s.insert f) ∧
    ∀ xs ys, (ofList (xs ++ ys)).bits = (ofList xs).bits ||| (ofList ys).bits ∧
      ∀ f, (ofList (xs ++ ys)).contains f = true ↔
        (ofList xs).contains f = true ∨ (ofList ys).contains f = true := by
  refine ⟨fun _ _ => Edit.mem_added_iff, ?_, ?_, fun s f g => ⟨s.insert_comm f g, s.insert_idem f⟩,
    fun xs ys => ⟨bits_ofList_append xs ys, ?_⟩⟩
  · intro edits
    have h := represents_ofEdits edits
    exact ⟨h, h.size_eq, h.isEmpty_iff, h.testBit_iff, bits_lt _⟩
  · intro edits edits'
    have h := (represents_ofEdits edits).eq_iff (represents_ofEdits edits')
    exact ⟨h, bits_inj.trans h⟩
  · intro f
    rw [contains_ofList, contains_ofList, contains_ofList, List.mem_append]

example : (ofEdits [.insert .sse, .assign [.lse, .crc32, .lse], .insert .asimd]).size = 3 := by
  decide

end NodeCost.FeatureSet
