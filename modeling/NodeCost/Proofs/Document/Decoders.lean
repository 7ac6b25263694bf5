import NodeCost.Document.Basic
import NodeCost.Proofs.Document.Names
import NodeCost.Proofs.Json.Writer
import NodeCost.Proofs.Text.Variant

namespace NodeCost

open Json Text

theorem Json.written_string (x : String) : (Json.string x).Written (Json.string x).text :=
  written_text fun n hn => by simp [tokens] at hn

namespace Document

theorem read_takeName {α : Type} (lookup : String → Except DocumentError α) {x d : String}
    (hd : (Json.string x).Written d) : read (takeName lookup) d = lookup x := by
  have htake : takeName lookup [.string (some x)] = (lookup x).map fun a => (a, []) := rfl
  rw [read, hd.scan_eq, tokens, htake]
  cases lookup x <;> rfl

/-- Two readers of the same things: one takes a name in a document to the letter, the other takes
words in a text in either case, with blanks around them. -/
structure Decoders {α : Type} (name : α → String) (ofText : String → Except TargetError α)
    (ofJson : String → Except DocumentError α) : Prop where
  ofJson_iff : ∀ x d, (Json.string x).Written d → ∀ a, ofJson d = .ok a ↔ name a = x
  ofText_of_ofJson : ∀ x d, (Json.string x).Written d → ∀ a, ofJson d = .ok a → ofText x = .ok a
  ofJson_of_ofText : ∀ x a, ofText x = .ok a →
    ∀ d, (Json.string (name a)).Written d → ofJson d = .ok a
  ofText_iff_of_varies : ∀ x y, Varies x.toList y.toList → ∀ a, ofText x = .ok a ↔ ofText y = .ok a
  eq_name_iff : ∀ x a, ofText x = .ok a →
    ∀ d, (Json.string x).Written d → ((∃ b, ofJson d = .ok b) ↔ x = name a)

theorem decoders_of_vocabulary {α : Type} {word : α → String → Prop} (hv : Vocabulary word)
    {name : α → String} (hname : ∀ a, word a (name a)) {ofText : String → Except TargetError α}
    (htext : ∀ x a, ofText x = .ok a ↔ Spells word a x.toList)
    {ofJson : String → Except DocumentError α}
    (hjson : ∀ x d, (Json.string x).Written d → ∀ a, ofJson d = .ok a ↔ name a = x) :
    Decoders name ofText ofJson := by
  have hread : ∀ a, ofText (name a) = .ok a := fun a => (htext _ a).2 (hv.spells_word (hname a))
  refine ⟨hjson, ?_, ?_, ?_, ?_⟩
  · intro x d hd a ha
    rw [← (hjson x d hd a).1 ha]
    exact hread a
  · intro x a _ d hd
    exact (hjson (name a) d hd a).2 rfl
  · intro x y hxy a
    rw [htext, htext]
    exact hxy.spells_iff a
  · intro x a hx d hd
    constructor
    · rintro ⟨b, hb⟩
      have hbx : name b = x := (hjson x d hd b).1 hb
      have hab : a = b := hv.spells_unique ((htext x a).1 hx) ((htext x b).1 (hbx ▸ hread b))
      rw [hab, hbx]
    · intro hxa
      exact ⟨a, (hjson x d hd a).2 hxa.symm⟩

theorem decoders_arch : Decoders Arch.name Arch.ofText Arch.ofJson :=
  decoders_of_vocabulary Arch.vocabulary Arch.word_name (fun _ _ => Arch.ofChars_eq_ok_iff)
    fun x d hd a => by rw [Arch.ofJson, takeArch, read_takeName lookupArch hd, lookupArch_eq_ok_iff]

theorem decoders_feature : Decoders Feature.name Feature.ofText Feature.ofJson :=
  decoders_of_vocabulary Feature.vocabulary .name (fun _ _ => Feature.ofChars_eq_ok_iff)
    fun x d hd f => by
      rw [Feature.ofJson, takeFeature, read_takeName lookupFeature hd, lookupFeature_eq_ok_iff]

/-- Documents and texts name architectures and features alike. Of all the spellings that a text may
use, a document may use one. -/
theorem decoders_agree :
    (∀ x : String, (Json.string x).Written (Json.string x).text) ∧
    Decoders Arch.name Arch.ofText Arch.ofJson ∧
    Decoders Feature.name Feature.ofText Feature.ofJson :=
  ⟨written_string, decoders_arch, decoders_feature⟩

theorem decoders_agree_of_neon :
    let y := " NeOn\u00a0"
    Varies "neon".toList y.toList ∧ Feature.ofText y = .ok .asimd ∧
      Feature.ofJson (Json.string "asimd").text = .ok .asimd ∧
      (Json.string y).Written (Json.string y).text ∧
      ¬ ∃ f, Feature.ofJson (Json.string y).text = .ok f := by
  intro y
  obtain ⟨hwritten, -, hfeature⟩ := decoders_agree
  have hn : Recased 'n' 'N' := .raised (c := 'n') rfl
  have ho : Recased 'o' 'O' := .raised (c := 'o') rfl
  have hvaries : Varies "neon".toList y.toList :=
    ⟨[' '], ['N', 'e', 'O', 'n'], ['\u00a0'], List.forall_mem_singleton.2 (by decide),
      List.forall_mem_singleton.2 (by decide),
      .cons hn (.cons (.same 'e') (.cons ho (.cons (.same 'n') .nil))), by decide⟩
  have hneon : Feature.ofText "neon" = .ok .asimd :=
    Feature.ofChars_eq_ok_iff.2 (Feature.vocabulary.spells_word .neon)
  have hy : Feature.ofText y = .ok .asimd := (hfeature.ofText_iff_of_varies _ y hvaries _).1 hneon
  refine ⟨hvaries, hy, hfeature.ofJson_of_ofText y _ hy _ (hwritten "asimd"), hwritten y, ?_⟩
  rw [hfeature.eq_name_iff y _ hy _ (hwritten y)]
  decide

end Document

end NodeCost
