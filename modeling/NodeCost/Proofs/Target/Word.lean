import NodeCost.Target.Spelling
import NodeCost.Proofs.Text.Word

namespace NodeCost

open Text

section Search

variable {α β ε : Type}

theorem mapM_cons_eq_ok_iff {f : α → Except ε β} {a : α} {l : List α} {bs : List β} :
    (a :: l).mapM f = .ok bs ↔ ∃ c cs, f a = .ok c ∧ l.mapM f = .ok cs ∧ c :: cs = bs := by
  rw [List.mapM_cons]
  cases f a with
  | error e => simp [bind, Except.bind]
  | ok c =>
    cases l.mapM f with
    | error e => simp [bind, Except.bind]
    | ok cs => simp [bind, Except.bind, pure, Except.pure]

theorem exists_mapM_eq_ok_iff {f : α → Except ε β} {l : List α} :
    (∃ bs, l.mapM f = .ok bs) ↔ ∀ a ∈ l, ∃ b, f a = .ok b := by
  induction l with
  | nil => exact ⟨fun _ a ha => absurd ha List.not_mem_nil, fun _ => ⟨[], rfl⟩⟩
  | cons a l ih =>
    simp only [mapM_cons_eq_ok_iff, List.forall_mem_cons, ← ih]
    constructor
    · rintro ⟨bs, c, cs, hc, hcs, -⟩
      exact ⟨⟨c, hc⟩, cs, hcs⟩
    · rintro ⟨⟨c, hc⟩, cs, hcs⟩
      exact ⟨c :: cs, c, cs, hc, hcs, rfl⟩

theorem mem_of_mapM_eq_ok {f : α → Except ε β} {l : List α} {bs : List β}
    (h : l.mapM f = .ok bs) {b : β} : b ∈ bs ↔ ∃ a ∈ l, f a = .ok b := by
  induction l generalizing bs with
  | nil =>
    cases h
    simp
  | cons a l ih =>
    obtain ⟨c, cs, hc, hcs, rfl⟩ := mapM_cons_eq_ok_iff.1 h
    rw [List.mem_cons, ih hcs, List.exists_mem_cons_iff, hc, Except.ok.injEq, eq_comm]

theorem mapM_map_eq_ok {f : α → Except ε β} {g : β → α} (h : ∀ b, f (g b) = .ok b)
    (bs : List β) : (bs.map g).mapM f = .ok bs := by
  induction bs with
  | nil => rfl
  | cons b bs ih => exact mapM_cons_eq_ok_iff.2 ⟨b, bs, h b, ih, rfl⟩

theorem exists_first_cons_iff {P Q : α → Prop} {x : α} {l : List α} :
    (∃ before a after, x :: l = before ++ a :: after ∧ (∀ b ∈ before, P b) ∧ Q a) ↔
      Q x ∨ P x ∧ ∃ before a after, l = before ++ a :: after ∧ (∀ b ∈ before, P b) ∧ Q a := by
  constructor
  · rintro ⟨before, a, after, h, hP, hQ⟩
    cases before with
    | nil =>
      cases h
      exact Or.inl hQ
    | cons b before =>
      cases h
      obtain ⟨hx, hbefore⟩ := List.forall_mem_cons.1 hP
      exact Or.inr ⟨hx, before, a, after, rfl, hbefore, hQ⟩
  · rintro (hQ | ⟨hx, before, a, after, rfl, hP, hQ⟩)
    · exact ⟨[], x, l, rfl, List.forall_mem_nil P, hQ⟩
    · exact ⟨x :: before, a, after, rfl, List.forall_mem_cons.2 ⟨hx, hP⟩, hQ⟩

/-- A reader of the elements that pass a test fails as the first of them that it cannot read. -/
theorem mapM_filter_eq_error_iff {f : α → Except ε β} {p : α → Bool} {l : List α} {e : ε} :
    (l.filter p).mapM f = .error e ↔ ∃ before a after, l = before ++ a :: after ∧
      (∀ b ∈ before, p b = true → ∃ c, f b = .ok c) ∧ (p a = true ∧ f a = .error e) := by
  induction l with
  | nil => simp [pure, Except.pure]
  | cons x l ih =>
    rw [exists_first_cons_iff, ← ih]
    by_cases hx : p x = true
    · rw [List.filter_cons_of_pos hx, List.mapM_cons]
      cases f x with
      | error d => simp [hx, bind, Except.bind]
      | ok c => cases (l.filter p).mapM f <;> simp [bind, Except.bind, pure, Except.pure]
    · rw [List.filter_cons_of_neg hx]
      simp [hx]

end Search

namespace Arch

inductive Word : Arch → String → Prop where
  | x86_64 : Word x86_64 "x86_64"
  | x86Dash64 : Word x86_64 "x86-64"
  | amd64 : Word x86_64 "amd64"
  | aarch64 : Word aarch64 "aarch64"
  | arm64 : Word aarch64 "arm64"
  | generic : Word generic "generic"

def Spells (a : Arch) (s : List Char) : Prop := Text.Spells Word a s

theorem mem_spellings {a : Arch} {w : String} : w ∈ a.spellings ↔ a.Word w := by
  constructor
  · intro h
    cases a with
    | x86_64 =>
      simp only [spellings, List.mem_cons, List.not_mem_nil, or_false] at h
      obtain rfl | rfl | rfl := h
      · exact .x86_64
      · exact .x86Dash64
      · exact .amd64
    | aarch64 =>
      simp only [spellings, List.mem_cons, List.not_mem_nil, or_false] at h
      obtain rfl | rfl := h
      · exact .aarch64
      · exact .arm64
    | generic =>
      rw [List.mem_singleton.1 h]
      exact .generic
  · intro h
    cases h <;> decide

theorem vocabulary : Vocabulary Word where
  unique ha hb := by
    have h : ∀ a ∈ all, ∀ b ∈ all, ∀ w ∈ a.spellings, w ∈ b.spellings → a = b := by decide
    exact h _ (mem_all _) _ (mem_all _) _ (mem_spellings.2 ha) (mem_spellings.2 hb)
  plain h := by cases h <;> decide
  ne_empty h := by cases h <;> decide

theorem Spells.isBlank_of_mem {a : Arch} {s : List Char} (h : a.Spells s) {c : Char} (hc : c ∈ s)
    (hn : 0x80 ≤ c.toNat) : isBlank c = true := by
  obtain ⟨w, hw, hs⟩ := h
  exact hs.isBlank_of_mem (by cases hw <;> decide) hc hn

theorem word_name (a : Arch) : a.Word a.name := by
  cases a with
  | x86_64 => exact .x86_64
  | aarch64 => exact .aarch64
  | generic => exact .generic

theorem name_injective : Function.Injective name :=
  fun a b h => vocabulary.unique a.word_name (h ▸ b.word_name)

theorem spells_name (a : Arch) : a.Spells a.name.toList := vocabulary.spells_word a.word_name

theorem ofChars_eq_ok_iff {s : List Char} {a : Arch} : ofChars s = .ok a ↔ a.Spells s := by
  have hf := vocabulary.find?_eq_some_iff mem_all (fun _ _ => mem_spellings) (s := s) (a := a)
  rw [ofChars, Spells, ← hf]
  cases all.find? (fun a => a.spellings.any (·.toList == foldCase (trim s))) <;> simp

theorem ofChars_eq_error_iff {s : List Char} {e : TargetError} : ofChars s = .error e ↔
    (∀ a : Arch, ¬ a.Spells s) ∧ e = .unknownArch (String.ofList (foldCase (trim s))) := by
  simp only [← ofChars_eq_ok_iff]
  cases h : all.find? (fun a => a.spellings.any (·.toList == foldCase (trim s))) <;>
    simp [ofChars, h, eq_comm]

end Arch

namespace Feature

inductive Word : Feature → String → Prop where
  | name (f : Feature) : Word f f.name
  | sse4_1 : Word sse41 "sse4_1"
  | sse4_2 : Word sse42 "sse4_2"
  | neon : Word asimd "neon"

def Spells (f : Feature) (s : List Char) : Prop := Text.Spells Word f s

theorem mem_aliases {f : Feature} {w : String} (h : w ∈ f.aliases) : f.Word w := by
  cases f <;> simp only [aliases, List.mem_singleton, List.not_mem_nil] at h
  case sse41 => exact h ▸ .sse4_1
  case sse42 => exact h ▸ .sse4_2
  case asimd => exact h ▸ .neon

theorem mem_spellings {f : Feature} {w : String} : w ∈ f.spellings ↔ f.Word w := by
  rw [spellings, List.mem_cons]
  constructor
  · rintro (rfl | h)
    · exact .name f
    · exact mem_aliases h
  · intro h
    cases h with
    | name => exact Or.inl rfl
    | sse4_1 | sse4_2 | neon => exact Or.inr (List.mem_singleton.2 rfl)

theorem vocabulary : Vocabulary Word where
  unique hf hg := by
    have h : ∀ f ∈ all, ∀ g ∈ all, ∀ w ∈ f.spellings, w ∈ g.spellings → f = g := by
      decide +kernel
    exact h _ (mem_all _) _ (mem_all _) _ (mem_spellings.2 hf) (mem_spellings.2 hg)
  plain {f _} h := by
    cases h with
    | name => cases f <;> decide
    | sse4_1 | sse4_2 | neon => decide
  ne_empty {f _} h := by
    cases h with
    | name => cases f <;> decide
    | sse4_1 | sse4_2 | neon => decide

theorem Spells.isBlank_of_mem {f : Feature} {s : List Char} (h : f.Spells s) {c : Char}
    (hc : c ∈ s) (hn : 0x80 ≤ c.toNat) : isBlank c = true := by
  obtain ⟨w, hw, hs⟩ := h
  have hascii : w.toList.all (·.toNat < 0x80) = true := by
    cases hw with
    | name => cases f <;> decide
    | sse4_1 | sse4_2 | neon => decide
  exact hs.isBlank_of_mem hascii hc hn

theorem name_injective : Function.Injective name :=
  fun f g h => vocabulary.unique (.name f) (h ▸ .name g)

theorem spells_name (f : Feature) : f.Spells f.name.toList := vocabulary.spells_word (.name f)

theorem ofChars_eq_ok_iff {s : List Char} {f : Feature} : ofChars s = .ok f ↔ f.Spells s := by
  have hf := vocabulary.find?_eq_some_iff mem_all (fun _ _ => mem_spellings) (s := s) (a := f)
  rw [ofChars, Spells, ← hf]
  cases all.find? (fun f => f.spellings.any (·.toList == foldCase (trim s))) <;> simp

theorem ofChars_eq_error_iff {s : List Char} {e : TargetError} : ofChars s = .error e ↔
    (∀ f : Feature, ¬ f.Spells s) ∧ e = .unknownFeature (String.ofList (trim s)) := by
  simp only [← ofChars_eq_ok_iff]
  cases h : all.find? (fun f => f.spellings.any (·.toList == foldCase (trim s))) <;>
    simp [ofChars, h, eq_comm]

theorem mem_nonblank {s p : List Char} :
    p ∈ (s.splitOn ',').filter (fun p => !(trim p).isEmpty) ↔ p ∈ s.splitOn ',' ∧ ¬ Blank p := by
  rw [List.mem_filter, ← trim_eq_nil_iff]
  simp

theorem exists_listOfChars_iff {s : List Char} :
    (∃ fs, listOfChars s = .ok fs) ↔ ∀ p ∈ s.splitOn ',', Blank p ∨ ∃ f : Feature, f.Spells p := by
  simp only [listOfChars, exists_mapM_eq_ok_iff, mem_nonblank, ofChars_eq_ok_iff]
  constructor
  · intro h p hp
    by_cases hb : Blank p
    · exact Or.inl hb
    · exact Or.inr (h p ⟨hp, hb⟩)
  · rintro h p ⟨hp, hb⟩
    exact (h p hp).resolve_left hb

theorem mem_of_listOfChars {s : List Char} {fs : List Feature} (h : listOfChars s = .ok fs)
    {f : Feature} : f ∈ fs ↔ ∃ p ∈ s.splitOn ',', f.Spells p := by
  rw [mem_of_mapM_eq_ok h]
  simp only [mem_nonblank, ofChars_eq_ok_iff]
  constructor
  · rintro ⟨p, ⟨hp, -⟩, hf⟩
    exact ⟨p, hp, hf⟩
  · rintro ⟨p, hp, hf⟩
    exact ⟨p, ⟨hp, vocabulary.not_blank hf⟩, hf⟩

theorem listOfChars_eq_error_iff {s : List Char} {e : TargetError} :
    listOfChars s = .error e ↔ ∃ before p after, s.splitOn ',' = before ++ p :: after ∧
      (∀ q ∈ before, Blank q ∨ ∃ f : Feature, f.Spells q) ∧ ¬ Blank p ∧
      (∀ f : Feature, ¬ f.Spells p) ∧ e = .unknownFeature (String.ofList (trim p)) := by
  simp only [listOfChars, mapM_filter_eq_error_iff, ofChars_eq_ok_iff, ofChars_eq_error_iff,
    ← trim_eq_nil_iff, Bool.not_eq_true', List.isEmpty_eq_false_iff, or_iff_not_imp_left, ne_eq]

end Feature

end NodeCost
