import NodeCost.Proofs.Text.Utf8.Encoding

namespace NodeCost.Text.Utf8

open String (utf8EncodeChar)

def Begins (p : List UInt8) : Prop := ∃ c, p <+: utf8EncodeChar c

/-- The stretch `p` at the front of `v`, where no encoded character stands: the longest beginning
of a character, or a single byte that begins none. -/
structure MaximalSubpart (v p : List UInt8) : Prop where
  front : p <+: v
  ne_nil : p ≠ []
  no_char : ∀ c, ¬ utf8EncodeChar c <+: v
  begins_or : Begins p ∨ p.length = 1
  length_le : ∀ q, q <+: v → Begins q → q.length ≤ p.length

/-- The bytes are cut into encoded characters and maximal stretches that encode nothing. -/
inductive Cut : List UInt8 → List Segment → Prop where
  | nil : Cut [] []
  | char {v rest : List UInt8} {c : Char} {ss : List Segment} (hv : v = utf8EncodeChar c ++ rest)
      (h : Cut rest ss) : Cut v (.char c :: ss)
  | broken {v p rest : List UInt8} {ss : List Segment} (hp : MaximalSubpart v p)
      (hv : v = p ++ rest) (h : Cut rest ss) : Cut v (.broken p :: ss)

theorem encode_ne_nil (c : Char) : utf8EncodeChar c ≠ [] := by
  obtain ⟨b, l, follow, h⟩ := exists_sequence c
  rw [h.encode_eq]
  exact List.cons_ne_nil b follow

theorem begins_cons_iff {b : UInt8} {p : List UInt8} : Begins (b :: p) ↔
    ∃ l, lead? b = some l ∧ p.length ≤ l.follow ∧ Continues l.lo l.hi p := by
  constructor
  · rintro ⟨c, q, hq⟩
    obtain ⟨b', l, follow, h⟩ := exists_sequence c
    rw [h.encode_eq, List.cons_append] at hq
    obtain ⟨rfl, hf⟩ := List.cons.inj hq
    have hlen : p.length + q.length = l.follow := by
      rw [← List.length_append, hf, h.length_eq]
    exact ⟨l, h.lead, by omega, (hf ▸ h.continues).of_append⟩
  · rintro ⟨l, hl, hle, hc⟩
    have hlo := (lead?_eq_some_iff.1 hl).lo_le_hi
    obtain ⟨q, hq, hc⟩ := hc.exists_append hlo (l.follow - p.length)
    have hlen : (p ++ q).length = l.follow := by
      rw [List.length_append, hq, Nat.add_sub_cancel' hle]
    have hs : Sequence (assemble l.payload (p ++ q)) b l (p ++ q) := ⟨hl, hlen, hc, rfl⟩
    exact ⟨_, q, hs.encode_eq.symm⟩

/-- No encoding is a proper beginning of another. -/
theorem encode_append_inj {c d : Char} {r t : List UInt8}
    (h : utf8EncodeChar c ++ r = utf8EncodeChar d ++ t) : c = d ∧ r = t := by
  obtain ⟨b, l, follow, hc⟩ := exists_sequence c
  obtain ⟨b', l', follow', hd⟩ := exists_sequence d
  rw [hc.encode_eq, hd.encode_eq, List.cons_append, List.cons_append] at h
  obtain ⟨rfl, hr⟩ := List.cons.inj h
  obtain rfl : l = l' := Option.some.inj (hc.lead.symm.trans hd.lead)
  obtain ⟨rfl, rfl⟩ := List.append_inj hr (hc.length_eq.trans hd.length_eq.symm)
  exact ⟨hc.assemble_eq.symm.trans hd.assemble_eq, rfl⟩

theorem maximalSubpart_singleton {b : UInt8} (hb : lead? b = none) (r : List UInt8) :
    MaximalSubpart (b :: r) [b] := by
  have hnil : ∀ q, q <+: b :: r → Begins q → q = [] := by
    rintro (_ | ⟨x, q⟩) hq hbegins
    · rfl
    · obtain rfl : x = b := (List.cons_prefix_cons.1 hq).1
      obtain ⟨l, hl, -⟩ := begins_cons_iff.1 hbegins
      rw [hb] at hl
      cases hl
  refine ⟨⟨r, rfl⟩, List.cons_ne_nil b [], ?_, Or.inr rfl, ?_⟩
  · intro c hc
    exact encode_ne_nil c (hnil _ hc ⟨c, List.prefix_rfl⟩)
  · intro q hq hbegins
    rw [hnil q hq hbegins]
    exact Nat.zero_le 1

theorem maximalSubpart_continuation {b : UInt8} {l : Lead} (hl : lead? b = some l)
    {follow rest : List UInt8} (hf : continuation l.follow l.lo l.hi (follow ++ rest) = follow)
    (hlen : follow.length ≠ l.follow) :
    MaximalSubpart (b :: (follow ++ rest)) (b :: follow) := by
  have hle : follow.length ≤ l.follow := hf ▸ length_continuation_le _ _ _ _
  have hc : Continues l.lo l.hi follow := hf ▸ continues_continuation _ _ _ _
  have hbound : ∀ q, q <+: b :: (follow ++ rest) → Begins q → q.length ≤ (b :: follow).length := by
    rintro (_ | ⟨x, q⟩) hq hbegins
    · exact Nat.zero_le _
    · obtain ⟨rfl, t, ht⟩ := List.cons_prefix_cons.1 hq
      obtain ⟨l', hl', hqle, hqc⟩ := begins_cons_iff.1 hbegins
      obtain rfl : l = l' := Option.some.inj (hl.symm.trans hl')
      obtain ⟨u, hu⟩ := hqc.exists_continuation hqle t
      rw [ht, hf] at hu
      rw [hu, List.length_cons, List.length_cons, List.length_append]
      omega
  refine ⟨⟨rest, rfl⟩, List.cons_ne_nil b follow, ?_, Or.inl ?_, hbound⟩
  · intro c hc
    obtain ⟨b', l', follow', h⟩ := exists_sequence c
    have hlen' := hbound _ hc ⟨c, List.prefix_rfl⟩
    rw [h.encode_eq] at hc hlen'
    obtain rfl : b' = b := (List.cons_prefix_cons.1 hc).1
    obtain rfl : l = l' := Option.some.inj (hl.symm.trans h.lead)
    rw [List.length_cons, List.length_cons, h.length_eq] at hlen'
    omega
  · exact begins_cons_iff.2 ⟨l, hl, hle, hc⟩

theorem cut_segments (v : List UInt8) : Cut v (segments v) := by
  fun_induction segments v with
  | case1 => exact .nil
  | case2 b r hb ih => exact .broken (maximalSubpart_singleton hb r) rfl ih
  | case3 b r l hl follow ih =>
    obtain ⟨rest, hr⟩ : ∃ rest, r = follow ++ rest := exists_continuation_append _ _ _ _
    have hd : r.drop follow.length = rest := by rw [hr, List.drop_left]
    rw [hd] at ih ⊢
    split
    · have hs : Sequence _ b l follow := ⟨hl, ‹_›, continues_continuation _ _ _ _, rfl⟩
      exact .char (by rw [hs.encode_eq, List.cons_append, ← hr]) ih
    · have hm : MaximalSubpart (b :: (follow ++ rest)) (b :: follow) :=
        maximalSubpart_continuation hl (by rw [← hr]) ‹_›
      rw [← hr] at hm
      exact .broken hm (by rw [List.cons_append, ← hr]) ih

theorem MaximalSubpart.eq_of_front {v p q : List UInt8} (hp : MaximalSubpart v p)
    (hq : MaximalSubpart v q) : p = q := by
  have hle : ∀ {p q}, MaximalSubpart v p → MaximalSubpart v q → p.length ≤ q.length := by
    intro p q hp hq
    obtain hb | h1 := hp.begins_or
    · exact hq.length_le p hp.front hb
    · rw [h1]
      exact List.length_pos_iff.2 hq.ne_nil
  exact (List.prefix_of_prefix_length_le hp.front hq.front (hle hp hq)).eq_of_length
    (Nat.le_antisymm (hle hp hq) (hle hq hp))

theorem Cut.unique {v : List UInt8} {ss ts : List Segment} (hs : Cut v ss) (ht : Cut v ts) :
    ss = ts := by
  induction hs generalizing ts with
  | nil =>
    cases ht with
    | nil => rfl
    | char hv => exact absurd (List.append_eq_nil_iff.1 hv.symm).1 (encode_ne_nil _)
    | broken hp hv => exact absurd (List.append_eq_nil_iff.1 hv.symm).1 hp.ne_nil
  | char hv h ih =>
    cases ht with
    | nil => exact absurd (List.append_eq_nil_iff.1 hv.symm).1 (encode_ne_nil _)
    | char hw ht =>
      obtain ⟨rfl, rfl⟩ := encode_append_inj (hv.symm.trans hw)
      rw [ih ht]
    | broken hp => exact absurd ⟨_, hv.symm⟩ (hp.no_char _)
  | broken hp hv h ih =>
    cases ht with
    | nil => exact absurd (List.append_eq_nil_iff.1 hv.symm).1 hp.ne_nil
    | char hw => exact absurd ⟨_, hw.symm⟩ (hp.no_char _)
    | broken hq hw ht =>
      obtain rfl := hp.eq_of_front hq
      obtain rfl := List.append_cancel_left (hv.symm.trans hw)
      rw [ih ht]

theorem cut_iff {v : List UInt8} {ss : List Segment} : Cut v ss ↔ segments v = ss :=
  ⟨(cut_segments v).unique, fun h => h ▸ cut_segments v⟩

theorem cut_map_char_iff {v : List UInt8} {cs : List Char} :
    Cut v (cs.map .char) ↔ v = cs.flatMap utf8EncodeChar := by
  induction cs generalizing v with
  | nil =>
    constructor
    · intro h
      cases h
      rfl
    · rintro rfl
      exact .nil
  | cons c cs ih =>
    rw [List.map_cons, List.flatMap_cons]
    constructor
    · intro h
      cases h with
      | char hv h => rw [hv, ih.1 h]
    · intro hv
      exact .char hv (ih.2 rfl)

theorem mapM_char?_eq_some_iff {ss : List Segment} {cs : List Char} :
    ss.mapM Segment.char? = some cs ↔ ss = cs.map .char := by
  induction ss generalizing cs with
  | nil => cases cs <;> simp
  | cons s ss ih =>
    rw [List.mapM_cons]
    cases s with
    | broken p => cases cs <;> simp [Segment.char?]
    | char c =>
      cases cs with
      | nil => cases ss.mapM Segment.char? <;> simp [Segment.char?]
      | cons d cs =>
        rw [List.map_cons, List.cons.injEq, ← ih, Segment.char.injEq]
        cases ss.mapM Segment.char? <;> simp [Segment.char?]

theorem mapM_char?_eq_none_iff {ss : List Segment} :
    ss.mapM Segment.char? = none ↔ ∃ bytes, .broken bytes ∈ ss := by
  induction ss with
  | nil => simp
  | cons s ss ih =>
    rw [List.mapM_cons]
    cases s with
    | broken p => simp [Segment.char?]
    | char c =>
      have hmem : (∃ p, .broken p ∈ Segment.char c :: ss) ↔ ∃ p, .broken p ∈ ss := by simp
      rw [hmem, ← ih]
      cases ss.mapM Segment.char? <;> simp [Segment.char?]

theorem decode?_eq_some_iff {v : List UInt8} {cs : List Char} :
    decode? v = some cs ↔ v = cs.flatMap utf8EncodeChar := by
  rw [decode?, mapM_char?_eq_some_iff, ← cut_iff, cut_map_char_iff]

theorem toList_toUTF8 (s : String) : s.toUTF8.data.toList = s.toList.flatMap utf8EncodeChar := by
  rw [String.toUTF8_eq_toByteArray, ← String.utf8Encode_toList, List.utf8Encode,
    List.toList_data_toByteArray]

theorem decode?_toUTF8 (s : String) : decode? s.toUTF8.data.toList = some s.toList :=
  decode?_eq_some_iff.2 (toList_toUTF8 s)

theorem decode?_eq_none_iff {v : List UInt8} :
    decode? v = none ↔ ¬ ∃ s : String, v = s.toUTF8.data.toList := by
  constructor
  · rintro h ⟨s, rfl⟩
    rw [decode?_toUTF8] at h
    cases h
  · intro h
    refine Option.eq_none_iff_forall_ne_some.2 fun cs hcs => h ⟨String.ofList cs, ?_⟩
    rw [toList_toUTF8, String.toList_ofList]
    exact decode?_eq_some_iff.1 hcs

end NodeCost.Text.Utf8
