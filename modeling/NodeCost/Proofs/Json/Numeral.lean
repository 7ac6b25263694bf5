import NodeCost.Json.Numeral

namespace NodeCost.Json.Numeral

inductive Whole : List (Fin 10) → Prop where
  | zero : Whole [0]
  | positive {d : Fin 10} {ds : List (Fin 10)} (hd : d ≠ 0) : Whole (d :: ds)

inductive Fraction : List (Fin 10) → List Char → Prop where
  | none : Fraction [] []
  | digits {ds : List (Fin 10)} (h : ds ≠ []) : Fraction ds ('.' :: ds.map digitChar)

inductive Power : Int → List Char → Prop where
  | unsigned {ds : List (Fin 10)} (h : ds ≠ []) : Power (natOfDigits ds) (ds.map digitChar)
  | plus {ds : List (Fin 10)} (h : ds ≠ []) : Power (natOfDigits ds) ('+' :: ds.map digitChar)
  | minus {ds : List (Fin 10)} (h : ds ≠ []) :
      Power (-(natOfDigits ds : Int)) ('-' :: ds.map digitChar)

inductive Exponent : Option Int → List Char → Prop where
  | none : Exponent none []
  | power {c : Char} {e : Int} {s : List Char} (hc : c = 'e' ∨ c = 'E') (h : Power e s) :
      Exponent (some e) (c :: s)

/-- The ways to write a numeral. -/
inductive Written : Numeral → List Char → Prop where
  | positive {w f : List (Fin 10)} {e : Option Int} {s t : List Char} (hw : Whole w)
      (hf : Fraction f s) (he : Exponent e t) :
      Written ⟨false, w, f, e⟩ (w.map digitChar ++ (s ++ t))
  | negative {w f : List (Fin 10)} {e : Option Int} {s t : List Char} (hw : Whole w)
      (hf : Fraction f s) (he : Exponent e t) :
      Written ⟨true, w, f, e⟩ ('-' :: (w.map digitChar ++ (s ++ t)))

theorem Whole.ne_nil {w : List (Fin 10)} (h : Whole w) : w ≠ [] := by
  cases h <;> simp

def StopsDigits (r : List Char) : Prop := ∀ c ∈ r.head?, digit? c = none

def Stops (r : List Char) : Prop :=
  ∀ c ∈ r.head?, digit? c = none ∧ c ≠ '.' ∧ c ≠ 'e' ∧ c ≠ 'E'

theorem Stops.digits {r : List Char} (h : Stops r) : StopsDigits r := fun c hc => (h c hc).1

theorem digit?_digitChar (d : Fin 10) : digit? (digitChar d) = some d := by
  revert d
  decide

theorem takeDigits_append (ds : List (Fin 10)) {r : List Char} (hr : StopsDigits r) :
    takeDigits (ds.map digitChar ++ r) = (ds, r) := by
  induction ds with
  | nil =>
    cases r with
    | nil => rfl
    | cons c r =>
      have hc : digit? c = none := hr c rfl
      simp [takeDigits, hc]
  | cons d ds ih => simp [takeDigits, digit?_digitChar, ih]

theorem takeDigits?_append {ds : List (Fin 10)} (h : ds ≠ []) {r : List Char}
    (hr : StopsDigits r) : takeDigits? (ds.map digitChar ++ r) = some (ds, r) := by
  rw [takeDigits?, takeDigits_append ds hr, if_neg h]

theorem Whole.takeWhole?_append {w : List (Fin 10)} (h : Whole w) {r : List Char}
    (hr : StopsDigits r) : takeWhole? (w.map digitChar ++ r) = some (w, r) := by
  rw [takeWhole?, takeDigits?_append h.ne_nil hr]
  cases h with
  | zero => rfl
  | positive hd =>
    split
    · rename_i heq
      cases heq
      exact absurd rfl hd
    · rfl

theorem Fraction.takeFraction?_append {f : List (Fin 10)} {s : List Char} (h : Fraction f s)
    {r : List Char} (hr : StopsDigits r) (hp : ∀ c ∈ r.head?, c ≠ '.') :
    takeFraction? (s ++ r) = some (f, r) := by
  cases h with
  | none =>
    rw [List.nil_append, takeFraction?.eq_def]
    split
    · exact absurd rfl (hp '.' rfl)
    · rfl
  | digits hd => exact takeDigits?_append hd hr

theorem digitChar_ne (d : Fin 10) : digitChar d ≠ '-' ∧ digitChar d ≠ '+' := by
  revert d
  decide

theorem takePower?_of_head_ne {s : List Char} (h : ∀ c ∈ s.head?, c ≠ '-' ∧ c ≠ '+') :
    takePower? s = (takeDigits? s).map fun p => ((natOfDigits p.1 : Int), p.2) := by
  unfold takePower?
  split
  · exact absurd rfl (h _ rfl).1
  · exact absurd rfl (h _ rfl).2
  · rfl

theorem take?_of_head_ne {s : List Char} (h : ∀ c ∈ s.head?, c ≠ '-') :
    take? s = takeUnsigned? false s := by
  unfold take?
  split
  · exact absurd rfl (h _ rfl)
  · rfl

theorem head?_digits_append {ds : List (Fin 10)} (hd : ds ≠ []) (r : List Char) :
    ∀ c ∈ (ds.map digitChar ++ r).head?, c ≠ '-' ∧ c ≠ '+' := by
  obtain ⟨d, ds, rfl⟩ := List.exists_cons_of_ne_nil hd
  intro c hc
  cases hc
  exact digitChar_ne d

theorem Power.takePower?_append {e : Int} {s : List Char} (h : Power e s) {r : List Char}
    (hr : StopsDigits r) : takePower? (s ++ r) = some (e, r) := by
  cases h with
  | unsigned hd =>
    rw [takePower?_of_head_ne (head?_digits_append hd r), takeDigits?_append hd hr]
    rfl
  | plus hd => simp [takePower?, takeDigits?_append hd hr]
  | minus hd => simp [takePower?, takeDigits?_append hd hr]

theorem Exponent.takeExponent?_append {e : Option Int} {s : List Char} (h : Exponent e s)
    {r : List Char} (hr : Stops r) : takeExponent? (s ++ r) = some (e, r) := by
  cases h with
  | none =>
    cases r with
    | nil => rfl
    | cons c r =>
      obtain ⟨-, -, hlower, hupper⟩ := hr c rfl
      simp [takeExponent?, hlower, hupper]
  | @power c e s hc hp =>
    rw [List.cons_append, takeExponent?, if_pos hc, hp.takePower?_append hr.digits]
    rfl

theorem Exponent.stops_append {e : Option Int} {s : List Char} (h : Exponent e s)
    {r : List Char} (hr : Stops r) : StopsDigits (s ++ r) ∧ ∀ c ∈ (s ++ r).head?, c ≠ '.' := by
  cases h with
  | none => exact ⟨hr.digits, fun c hc => (hr c hc).2.1⟩
  | power hc hp =>
    obtain rfl | rfl := hc
    · exact ⟨fun c hc => by cases hc; rfl, fun c hc => by cases hc; decide⟩
    · exact ⟨fun c hc => by cases hc; rfl, fun c hc => by cases hc; decide⟩

theorem takeUnsigned?_append (negative : Bool) {w f : List (Fin 10)} {e : Option Int}
    {s t : List Char} (hw : Whole w) (hf : Fraction f s) (he : Exponent e t) {r : List Char}
    (hr : Stops r) :
    takeUnsigned? negative (w.map digitChar ++ (s ++ t) ++ r) = some (⟨negative, w, f, e⟩, r) := by
  obtain ⟨hdigits, hpoint⟩ := he.stops_append hr
  have hfraction : StopsDigits (s ++ (t ++ r)) := by
    cases hf with
    | none => exact hdigits
    | digits hd =>
      intro c hc
      cases hc
      rfl
  rw [List.append_assoc, List.append_assoc, takeUnsigned?, hw.takeWhole?_append hfraction]
  simp only [Option.bind_eq_bind, Option.bind_some, hf.takeFraction?_append hdigits hpoint,
    he.takeExponent?_append hr]
  rfl

theorem Written.take?_append {n : Numeral} {s : List Char} (h : Written n s) {r : List Char}
    (hr : Stops r) : take? (s ++ r) = some (n, r) := by
  cases h with
  | @positive w f e s t hw hf he =>
    have hsign : ∀ c ∈ (w.map digitChar ++ (s ++ t) ++ r).head?, c ≠ '-' := by
      intro c hc
      rw [List.append_assoc] at hc
      exact (head?_digits_append hw.ne_nil _ c hc).1
    rw [take?_of_head_ne hsign, takeUnsigned?_append false hw hf he hr]
  | negative hw hf he => exact takeUnsigned?_append true hw hf he hr

end NodeCost.Json.Numeral
