import NodeCost.Proofs.Json.Value

namespace NodeCost.Json

theorem hexQuad?_digitChar {n : Nat} (h : n < 0x20) :
    hexQuad? '0' '0' (Nat.digitChar (n / 16)) (Nat.digitChar (n % 16)) = some n := by
  have hall : ∀ n < 0x20,
      hexQuad? '0' '0' (Nat.digitChar (n / 16)) (Nat.digitChar (n % 16)) = some n := by decide
  exact hall n h

theorem Spelled.escapeChar_append (c : Char) {s t : List Char} (h : Spelled s t) :
    Spelled (c :: s) (escapeChar c ++ t) := by
  rw [escapeChar.eq_def]
  split
  case h_8 hq hb _ _ _ _ _ =>
    split
    · rename_i hc
      have hspelled := h.code (hexQuad?_digitChar hc) (Or.inl (by omega))
      rw [Char.ofNat_toNat] at hspelled
      exact hspelled
    · rename_i hc
      exact h.plain hq hb (by omega)
  all_goals exact h.letter rfl

theorem spelled_flatMap_escapeChar (s : List Char) : Spelled s (s.flatMap escapeChar) := by
  induction s with
  | nil => exact .nil
  | cons c s ih => exact ih.escapeChar_append c

theorem layout_flatMap_chars {ts : List Token} (h : ∀ t ∈ ts, t.Written t.chars) :
    Layout ts (ts.flatMap Token.chars) := by
  induction ts with
  | nil => exact .nil blanks_nil
  | cons t ts ih =>
    have hts := ih fun u hu => h u (List.mem_cons_of_mem t hu)
    exact .cons blanks_nil (h t List.mem_cons_self) hts

def Token.isSound : Token → Bool
  | .string none | .junk => false
  | _ => true

mutual

theorem all_isSound_tokens : ∀ v : Json, v.tokens.all Token.isSound = true
  | .null | .bool _ | .number _ | .string _ => by
    rw [tokens]
    rfl
  | .array [] => by
    rw [tokens_array_nil]
    rfl
  | .array (v :: items) => by
    rw [tokens_array_cons]
    simp [all_isSound_tokens v, all_isSound_items items, Token.isSound]
  | .object [] => by
    rw [tokens_object_nil]
    rfl
  | .object ((k, v) :: members) => by
    rw [tokens_object_cons]
    simp [all_isSound_tokens v, all_isSound_members members, Token.isSound]

theorem all_isSound_items : ∀ items : List Json, (itemTokens items).all Token.isSound = true
  | [] => by
    rw [itemTokens]
    rfl
  | v :: items => by
    rw [itemTokens_cons]
    simp [all_isSound_tokens v, all_isSound_items items, Token.isSound]

theorem all_isSound_members :
    ∀ members : List (String × Json), (memberTokens members).all Token.isSound = true
  | [] => by
    rw [memberTokens]
    rfl
  | (k, v) :: members => by
    rw [memberTokens_cons]
    simp [all_isSound_tokens v, all_isSound_members members, Token.isSound]

end

theorem Token.written_chars {t : Token} (ht : t.isSound = true)
    (hn : ∀ n, t = .number n → n.Written n.chars) : t.Written t.chars := by
  cases t with
  | openArray => exact .openArray
  | closeArray => exact .closeArray
  | openObject => exact .openObject
  | closeObject => exact .closeObject
  | comma => exact .comma
  | colon => exact .colon
  | null => exact .null
  | bool b =>
    cases b with
    | true => exact .yes
    | false => exact .no
  | number n => exact .number (hn n rfl)
  | string s =>
    cases s with
    | none => cases ht
    | some s =>
      have h := Written.string (spelled_flatMap_escapeChar s.toList)
      rw [String.ofList_toList] at h
      exact h
  | junk => cases ht

/-- The text of a value writes it, if each of its numbers stands there as it may be written. -/
theorem written_text {v : Json} (h : ∀ n, Token.number n ∈ v.tokens → n.Written n.chars) :
    v.Written v.text := by
  rw [Written, text, String.toList_ofList]
  apply layout_flatMap_chars
  intro t ht
  have hs := List.all_eq_true.1 (all_isSound_tokens v) t ht
  exact Token.written_chars hs fun n hn => h n (hn ▸ ht)

end NodeCost.Json
