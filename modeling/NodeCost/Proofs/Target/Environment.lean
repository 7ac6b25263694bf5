import NodeCost.Target.Environment
import NodeCost.Proofs.Target.Grammar
import NodeCost.Proofs.Text.Utf8.Segmentation

namespace NodeCost

open Text Text.Utf8

namespace Target

theorem ofVariable_toUTF8 (host : Target) (s : String) :
    ofVariable host (some s.toUTF8.data.toList) = ofText s := by
  rw [ofVariable, decode?_toUTF8]
  rfl

theorem ofText_ne_ok_of_replacement_mem {s : String} (h : '\uFFFD' ∈ s.toList) (t : Target) :
    ofText s ≠ .ok t := by
  intro ht
  obtain ⟨head, ps, hg, -⟩ := exists_grammatical ht
  exact Bool.false_ne_true (hg.isBlank_of_mem h (by decide))

/-- A variable that is set decides by itself. If it holds a text, it means what the text means; if
not, the refusal shows its characters in their order, with one U+FFFD for each stretch of the only
cut that encodes nothing. The host counts where nothing is set. -/
theorem ofVariable_resolution (host : Target) (v : List UInt8) :
    (∀ s : String, v = s.toUTF8.data.toList → ofVariable host (some v) = ofText s ∧
      (Blank s.toList → ofVariable host (some v) = .error .empty)) ∧
    ((¬ ∃ s : String, v = s.toUTF8.data.toList) → ∃ ss shown, (∀ ts, Cut v ts ↔ ts = ss) ∧
      (∃ p, .broken p ∈ ss) ∧ shown.toList = ss.map Segment.shown ∧ '\uFFFD' ∈ shown.toList ∧
      ofVariable host (some v) = .error (.notUtf8 shown) ∧ ∀ t, ofText shown ≠ .ok t) ∧
    (∀ other, ofVariable other (some v) = ofVariable host (some v)) ∧
    ofVariable host none = .ok host := by
  refine ⟨?_, ?_, fun other => rfl, rfl⟩
  · rintro s rfl
    have hs := ofVariable_toUTF8 host s
    refine ⟨hs, fun hb => hs.trans ?_⟩
    exact ofChars_eq_error_iff.2 (Or.inl ⟨trim_eq_nil_iff.2 hb, rfl⟩)
  · intro hv
    have hn := decode?_eq_none_iff.2 hv
    obtain ⟨p, hp⟩ := mapM_char?_eq_none_iff.1 hn
    obtain ⟨shown, hs⟩ : ∃ shown, shown = String.ofList (decodeLossy v) := ⟨_, rfl⟩
    have hl : shown.toList = (Utf8.segments v).map Segment.shown := by
      rw [hs, String.toList_ofList, decodeLossy]
    have hm : '\uFFFD' ∈ shown.toList := by
      rw [hl]
      exact List.mem_map.2 ⟨_, hp, rfl⟩
    have he : ofVariable host (some v) = .error (.notUtf8 shown) := by
      rw [ofVariable, hn, hs]
    exact ⟨Utf8.segments v, shown, fun ts => cut_iff.trans eq_comm, ⟨p, hp⟩, hl, hm, he,
      ofText_ne_ok_of_replacement_mem hm⟩

/-- The bytes `E2 82` begin a character and stop short of it; `ED A0` would begin a surrogate, so
that both of its bytes stand alone. -/
theorem ofVariable_resolution_of_truncated :
    (¬ ∃ s : String, [0x78, 0xE2, 0x82, 0x20, 0xED, 0xA0, 0x38] = s.toUTF8.data.toList) ∧
    ofVariable { arch := .generic }
      (some [0x78, 0xE2, 0x82, 0x20, 0xED, 0xA0, 0x38]) =
        .error (.notUtf8 "x\uFFFD \uFFFD\uFFFD8") := by
  have hn : ¬ ∃ s : String, [0x78, 0xE2, 0x82, 0x20, 0xED, 0xA0, 0x38] = s.toUTF8.data.toList :=
    decode?_eq_none_iff.1 (by decide +kernel)
  obtain ⟨ss, shown, hcut, -, hs, -, he, -⟩ :=
    (ofVariable_resolution { arch := .generic } _).2.1 hn
  obtain rfl := (hcut _).1 (cut_segments _)
  have hshown : shown = "x\uFFFD \uFFFD\uFFFD8" := by
    rw [← String.toList_inj, hs]
    decide +kernel
  exact ⟨hn, hshown ▸ he⟩

end Target

end NodeCost
