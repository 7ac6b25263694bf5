import NodeCost.Json.Basic
import NodeCost.Json.Skip
import NodeCost.Proofs.Json.Lexeme

namespace NodeCost.Json

/-- The text writes the value: it lays out its lexemes, each in one of its spellings. -/
def Written (v : Json) (text : String) : Prop := Layout v.tokens text.toList

theorem itemTokens_cons (v : Json) (items : List Json) :
    itemTokens (v :: items) = .comma :: (v.tokens ++ itemTokens items) := by
  rw [itemTokens, List.cons_append]

theorem memberTokens_cons (k : String) (v : Json) (members : List (String × Json)) :
    memberTokens ((k, v) :: members) =
      .comma :: .string (some k) :: .colon :: (v.tokens ++ memberTokens members) := by
  rw [memberTokens]
  rfl

theorem tokens_array_nil : tokens (.array []) = [.openArray, .closeArray] := by
  simp [tokens, itemTokens]

theorem tokens_array_cons (v : Json) (items : List Json) :
    tokens (.array (v :: items)) =
      .openArray :: (v.tokens ++ (itemTokens items ++ [.closeArray])) := by
  simp [tokens, itemTokens_cons]

theorem tokens_object_nil : tokens (.object []) = [.openObject, .closeObject] := by
  simp [tokens, memberTokens]

theorem tokens_object_cons (k : String) (v : Json) (members : List (String × Json)) :
    tokens (.object ((k, v) :: members)) = .openObject :: .string (some k) :: .colon ::
      (v.tokens ++ (memberTokens members ++ [.closeObject])) := by
  simp [tokens, memberTokens_cons]

/-- The first lexeme of a value does not close anything. -/
theorem exists_tokens_eq_cons (v : Json) :
    ∃ t ts, v.tokens = t :: ts ∧ t ≠ .closeArray ∧ t ≠ .closeObject := by
  cases v with
  | null => exact ⟨.null, [], by rw [tokens], by decide, by decide⟩
  | bool b => exact ⟨.bool b, [], by rw [tokens], by simp, by simp⟩
  | number n => exact ⟨.number n, [], by rw [tokens], by simp, by simp⟩
  | string s => exact ⟨.string (some s), [], by rw [tokens], by simp, by simp⟩
  | array items => exact ⟨.openArray, _, by rw [tokens]; rfl, by decide, by decide⟩
  | object members => exact ⟨.openObject, _, by rw [tokens]; rfl, by decide, by decide⟩

theorem separated_singleton (t : Token) : Separated [t] := List.isChain_singleton t

theorem Separated.cons {t : Token} {ts : List Token} (h : Separated ts)
    (ht : t.isNumber = false) : Separated (t :: ts) := by
  apply List.IsChain.cons h
  intro u _ hn
  exact absurd hn (Bool.eq_false_iff.1 ht)

theorem Separated.append {ts us : List Token} (ht : Separated ts) (hu : Separated us)
    (hend : ∀ u ∈ us.head?, u.endsValue = true) : Separated (ts ++ us) :=
  List.IsChain.append ht hu fun _ _ u hu _ => hend u hu

theorem endsValue_of_mem_items {items : List Json} {u : Token}
    (hu : u ∈ (itemTokens items ++ [Token.closeArray]).head?) : u.endsValue = true := by
  cases items with
  | nil =>
    rw [itemTokens] at hu
    cases hu
    rfl
  | cons v items =>
    rw [itemTokens_cons] at hu
    cases hu
    rfl

theorem endsValue_of_mem_members {members : List (String × Json)} {u : Token}
    (hu : u ∈ (memberTokens members ++ [Token.closeObject]).head?) : u.endsValue = true := by
  cases members with
  | nil =>
    rw [memberTokens] at hu
    cases hu
    rfl
  | cons m members =>
    rw [memberTokens_cons] at hu
    cases hu
    rfl

mutual

theorem separated_tokens : ∀ v : Json, Separated v.tokens
  | .null | .bool _ | .number _ | .string _ => by
    rw [tokens]
    exact separated_singleton _
  | .array [] => by
    rw [tokens_array_nil]
    exact (separated_singleton _).cons rfl
  | .array (v :: items) => by
    rw [tokens_array_cons]
    exact ((separated_tokens v).append (separated_items items)
      fun _ => endsValue_of_mem_items).cons rfl
  | .object [] => by
    rw [tokens_object_nil]
    exact (separated_singleton _).cons rfl
  | .object ((k, v) :: members) => by
    rw [tokens_object_cons]
    exact (((separated_tokens v).append (separated_members members)
      fun _ => endsValue_of_mem_members).cons rfl |>.cons rfl).cons rfl

theorem separated_items : ∀ items : List Json, Separated (itemTokens items ++ [.closeArray])
  | [] => by
    rw [itemTokens]
    exact separated_singleton _
  | v :: items => by
    rw [itemTokens_cons, List.cons_append, List.append_assoc]
    exact ((separated_tokens v).append (separated_items items)
      fun _ => endsValue_of_mem_items).cons rfl

theorem separated_members :
    ∀ members : List (String × Json), Separated (memberTokens members ++ [.closeObject])
  | [] => by
    rw [memberTokens]
    exact separated_singleton _
  | (k, v) :: members => by
    rw [memberTokens_cons]
    simp only [List.cons_append, List.append_assoc]
    exact (((separated_tokens v).append (separated_members members)
      fun _ => endsValue_of_mem_members).cons rfl |>.cons rfl).cons rfl

end

theorem Written.scan_eq {v : Json} {text : String} (h : v.Written text) :
    Token.scan text.toList = v.tokens :=
  Layout.scan_eq h (separated_tokens v)

open Progress

theorem skipFrom_valueOrClose (v : Json) (opened : List Bracket) (r : List Token) :
    skipFrom (.inside .valueOrClose opened) (v.tokens ++ r) =
      skipFrom (.inside .value opened) (v.tokens ++ r) := by
  obtain ⟨t, ts, hv, ht, -⟩ := exists_tokens_eq_cons v
  rw [hv, List.cons_append, skipFrom, skipFrom, advance, advance, if_neg ht]

mutual

/-- The reading of a value goes just to its end, whatever brackets it stands in. -/
theorem skipFrom_tokens : ∀ (v : Json) (opened : List Bracket) (r : List Token),
    skipFrom (.inside .value opened) (v.tokens ++ r) = skipFrom (afterValue opened) r
  | .null, opened, r | .bool _, opened, r | .number _, opened, r | .string _, opened, r => by
    rw [tokens]
    rfl
  | .array [], opened, r => by
    rw [tokens_array_nil]
    rfl
  | .array (v :: items), opened, r => by
    rw [tokens_array_cons, List.cons_append, List.append_assoc]
    calc _ = skipFrom (.inside .valueOrClose (.array :: opened))
          (v.tokens ++ (itemTokens items ++ [.closeArray] ++ r)) := rfl
      _ = skipFrom (.inside .commaOrClose (.array :: opened))
          (itemTokens items ++ [.closeArray] ++ r) := by
        rw [skipFrom_valueOrClose, skipFrom_tokens v]
        rfl
      _ = skipFrom (afterValue opened) r := by
        rw [List.append_assoc]
        exact skipFrom_items items opened r
  | .object [], opened, r => by
    rw [tokens_object_nil]
    rfl
  | .object ((k, v) :: members), opened, r => by
    rw [tokens_object_cons]
    simp only [List.cons_append, List.append_assoc]
    calc _ = skipFrom (.inside .value (.object :: opened))
          (v.tokens ++ (memberTokens members ++ ([.closeObject] ++ r))) := rfl
      _ = skipFrom (.inside .commaOrClose (.object :: opened))
          (memberTokens members ++ ([.closeObject] ++ r)) := skipFrom_tokens v _ _
      _ = skipFrom (afterValue opened) r := skipFrom_members members opened r

theorem skipFrom_items : ∀ (items : List Json) (opened : List Bracket) (r : List Token),
    skipFrom (.inside .commaOrClose (.array :: opened)) (itemTokens items ++ .closeArray :: r) =
      skipFrom (afterValue opened) r
  | [], opened, r => by
    rw [itemTokens]
    rfl
  | v :: items, opened, r => by
    rw [itemTokens_cons, List.cons_append, List.append_assoc]
    calc _ = skipFrom (.inside .value (.array :: opened))
          (v.tokens ++ (itemTokens items ++ .closeArray :: r)) := rfl
      _ = skipFrom (.inside .commaOrClose (.array :: opened))
          (itemTokens items ++ .closeArray :: r) := skipFrom_tokens v _ _
      _ = skipFrom (afterValue opened) r := skipFrom_items items opened r

theorem skipFrom_members : ∀ (members : List (String × Json)) (opened : List Bracket)
    (r : List Token),
    skipFrom (.inside .commaOrClose (.object :: opened))
      (memberTokens members ++ .closeObject :: r) = skipFrom (afterValue opened) r
  | [], opened, r => by
    rw [memberTokens]
    rfl
  | (k, v) :: members, opened, r => by
    rw [memberTokens_cons]
    simp only [List.cons_append, List.append_assoc]
    calc _ = skipFrom (.inside .value (.object :: opened))
          (v.tokens ++ (memberTokens members ++ .closeObject :: r)) := rfl
      _ = skipFrom (.inside .commaOrClose (.object :: opened))
          (memberTokens members ++ .closeObject :: r) := skipFrom_tokens v _ _
      _ = skipFrom (afterValue opened) r := skipFrom_members members opened r

end

theorem skip_tokens (v : Json) (r : List Token) : skip (v.tokens ++ r) = some r :=
  (skipFrom_tokens v [] r).trans (by rw [afterValue, skipFrom])

end NodeCost.Json
