import MaterialInspection.Criterion.Reading
import MaterialInspection.Proofs.Number.Arithmetic
import MaterialInspection.Proofs.Number.Digits
import MaterialInspection.Proofs.Number.LeadingText

/-!
# Fixed decimals read back

A sample is judged by the number that its text starts with, not by the double it was drawn as.  The
two differ by the rounding to decimals and by the rounding of those decimals to a double again.

* `Numeral.leadingNumber?_append` — a literal reads back to its value, whatever unit follows it.
* `leadingNumber?_toFixed` — the text of a finite number reads back to a finite number, at the place
  `textRank`.
* `reads_toFixed_iff` — nothing else reads back.
* `textRank_mono` — with one number of decimals, a larger number does not read back smaller.
* `decimals_toFixed` — the text shows the decimals it was written with.
-/

set_option autoImplicit false

namespace MaterialInspection

open Number

/-! ## Literals -/

namespace Numeral

variable {n : Numeral}

/-- What may follow a number without becoming part of it: no digit of any script and no point. -/
def Stops (rest : List Char) : Prop :=
  ∀ c, rest.head? = some c → Text.isDecimalDigit c = false ∧ c ≠ '.'

theorem stops_nil : Stops [] := fun _ h => nomatch h

theorem Stops.clear {rest : List Char} (h : Stops rest) : Clear rest := by
  intro c hc
  obtain ⟨hdigit, hpoint⟩ := h c hc
  refine ⟨?_, hpoint⟩
  rw [← Bool.not_eq_true]
  intro hc
  rw [Text.isDecimalDigit_of_isDigit hc] at hdigit
  cases hdigit

/-- A literal without its sign is a decimal. -/
def decimal (hn : n.WellFormed) : DecimalText where
  whole := n.whole
  point := !n.fraction.isEmpty
  fraction := n.fraction
  isDigit_whole := hn.whole_digits
  isDigit_fraction := hn.fraction_digits
  fraction_eq_nil h := by simpa using h
  digits_ne_nil := List.append_ne_nil_of_left_ne_nil hn.whole_ne_nil _

theorem chars_decimal (hn : n.WellFormed) : (decimal hn).chars = n.magnitudeChars := by
  obtain ⟨negative, whole, fraction⟩ := n
  cases fraction <;> rfl

theorem readUnsigned?_magnitudeChars (hn : n.WellFormed) :
    readUnsigned? n.negative n.magnitudeChars = some n.value := by
  rw [← chars_decimal hn, DecimalText.readUnsigned?_chars]
  rfl

/-- **A literal that starts a text reads back**, unless it is too large for a double. -/
theorem leadingNumber?_append (hn : n.WellFormed) {rest : List Char} (hr : Stops rest) :
    leadingNumber? (n.chars ++ rest) = n.finite? := by
  have hnone : rest.head?.any Text.isDecimalDigit = false := by
    cases hstart : rest.head? with
    | none => rfl
    | some c => exact (hr c hstart).1
  have hfinite : (some n.value).filter Binary64.isFinite = n.finite? := by
    unfold finite?
    rw [Option.filter_some]
  have hread := fun sign =>
    leadingNumber?_signed (decimal hn) sign (List.forall_mem_nil _) hr.clear
  rw [hnone, chars_decimal] at hread
  rw [← hfinite]
  obtain ⟨negative, whole, fraction⟩ := n
  cases negative with
  | true => exact hread .minus
  | false => exact hread .none

/-- A literal that is a text of its own reads back. -/
theorem leadingNumber?_chars (hn : n.WellFormed) : leadingNumber? n.chars = n.finite? := by
  have := leadingNumber?_append hn stops_nil
  rwa [List.append_nil] at this

end Numeral

/-- The number that a text starts with is finite. -/
theorem finite_of_leadingNumber? {cs : List Char} {x : Binary64} (h : leadingNumber? cs = some x) :
    x.isFinite = true := by
  unfold leadingNumber? at h
  exact (Option.filter_eq_some_iff.1 h).2

/-! ## Fixed decimals -/

/-- The literal with a number of decimals, for a magnitude in steps of the last one. -/
def Numeral.fixed (negative : Bool) (places scaled : Nat) : Numeral where
  negative := negative
  whole := Nat.toDigits 10 (scaled / tenTo places)
  fraction := if places = 0 then [] else padded places (scaled % tenTo places)

namespace Numeral

theorem wellFormed_fixed (negative : Bool) (places scaled : Nat) :
    (fixed negative places scaled).WellFormed where
  whole_ne_nil := Nat.toDigits_ne_nil
  whole_digits := fun _ => isDigit_of_mem_toDigits
  fraction_digits := by
    intro c hc
    unfold fixed at hc
    dsimp only at hc
    split at hc
    · cases hc
    · exact isDigit_of_mem_padded hc

theorem magnitudeChars_fixed (negative : Bool) (places scaled : Nat) :
    (fixed negative places scaled).magnitudeChars = fixedChars places scaled := by
  unfold magnitudeChars fixed fixedChars
  dsimp only
  split
  · simp
  · have hne := padded_ne_nil places (scaled % tenTo places)
    simp [hne]

theorem length_fraction_fixed (negative : Bool) (places scaled : Nat) :
    (fixed negative places scaled).fraction.length = places := by
  unfold fixed
  dsimp only
  split
  · rename_i h
    exact h.symm
  · exact length_padded places (by omega) (Nat.mod_lt _ (tenTo_pos places))

theorem ofDigitChars_fixed (negative : Bool) (places scaled : Nat) :
    Nat.ofDigitChars 10 ((fixed negative places scaled).whole ++
      (fixed negative places scaled).fraction) 0 = scaled := by
  have hlen := length_fraction_fixed negative places scaled
  rw [Nat.ofDigitChars_append, Nat.ofDigitChars_eq_ofDigitChars_zero, hlen]
  unfold fixed
  dsimp only
  rw [Nat.ofDigitChars_ten_toDigits]
  split
  · rename_i h
    subst h
    simp [tenTo]
  · rw [ofDigitChars_padded]
    exact Nat.div_add_mod scaled (tenTo places)

theorem value_fixed (negative : Bool) (places scaled : Nat) :
    (fixed negative places scaled).value = .ofDecimal negative scaled (-(places : Int)) := by
  unfold value
  rw [ofDigitChars_fixed, length_fraction_fixed]
  rfl

end Numeral

namespace Binary64

seal unitsPerOne unitsLimit twoTo tenTo

theorem twoTo_le_tenTo (k : Nat) : twoTo (3 * k) ≤ tenTo k := by
  have height : twoTo (3 * k) = 8 ^ k := by
    rw [twoTo, Nat.pow_eq, Nat.pow_mul]
  rw [height, tenTo, Nat.pow_eq]
  exact Nat.pow_le_pow_left (by decide) k

/-- Digits that are small against their decimals are rounded to nothing. -/
theorem nearest_digits_eq_zero {digits k : Nat} (h : digits.log2 + 1081 ≤ 3 * k) :
    nearest (digits * unitsPerOne) (tenTo k) = 0 := by
  apply nearest_eq_zero
  have hdigits : digits * unitsPerOne < twoTo (digits.log2 + 1) * unitsPerOne :=
    Nat.mul_lt_mul_of_pos_right (lt_twoTo_log2_succ digits) unitsPerOne_pos
  calc 2 * (digits * unitsPerOne)
      < 2 * (twoTo (digits.log2 + 1) * unitsPerOne) := Nat.mul_lt_mul_of_pos_left hdigits (by decide)
    _ = twoTo (digits.log2 + 1076) := by
      rw [Nat.two_mul, unitsPerOne, ← twoTo_add, ← twoTo_succ]
    _ ≤ twoTo (3 * k) := twoTo_le_twoTo (by omega)
    _ ≤ tenTo k := twoTo_le_tenTo k

/-- A decimal is rounded once, whatever shortcut is taken. -/
theorem rank_ofDecimal (negative : Bool) (digits places : Nat) :
    (ofDecimal negative digits (-(places : Int))).rank =
      some (place (signed negative digits * unitsPerOne) (tenTo places)) := by
  rw [signed_mul_natCast]
  cases places with
  | zero =>
    show (ofDecimal negative digits (.ofNat 0)).rank = _
    unfold ofDecimal
    dsimp only
    split
    · rename_i hz
      subst hz
      rw [tenTo_zero, Nat.zero_mul, place_signed, nearest_zero, Nat.zero_min]
      rfl
    · rw [if_neg (by decide), tenTo_zero, Nat.mul_one, rank_ofRatio]
  | succ e =>
    show (ofDecimal negative digits (.negSucc e)).rank = _
    unfold ofDecimal
    dsimp only
    split
    · rename_i hsmall
      rw [place_signed, nearest_digits_eq_zero hsmall, Nat.zero_min]
      rfl
    · rw [rank_ofRatio]

/-- Digits with decimals are rounded between the whole numbers around them. -/
theorem place_digits_le {digits m places : Nat} (h : digits ≤ m * tenTo places) :
    place (digits * unitsPerOne : Nat) (tenTo places) ≤ place (m * unitsPerOne : Nat) 1 := by
  refine place_mono (tenTo_pos places) (by decide) ?_
  rw [Int.natCast_one, Int.mul_one, ← Int.natCast_mul, Nat.mul_right_comm]
  exact Int.ofNat_le.2 (Nat.mul_le_mul_right _ h)

theorem le_place_digits {digits m places : Nat} (h : m * tenTo places ≤ digits) :
    place (m * unitsPerOne : Nat) 1 ≤ place (digits * unitsPerOne : Nat) (tenTo places) := by
  refine place_mono (by decide) (tenTo_pos places) ?_
  rw [Int.natCast_one, Int.mul_one, ← Int.natCast_mul, Nat.mul_right_comm]
  exact Int.ofNat_le.2 (Nat.mul_le_mul_right _ h)

/-- The place of a number with decimals, between two whole numbers that a double holds. -/
theorem place_decimal_le {n k places : Nat} (hk : k ≤ twoTo 53) (h : n ≤ k * tenTo places) :
    place ((n * unitsPerOne : Nat) : Int) (tenTo places) ≤ (k * unitsPerOne : Nat) := by
  have hheld : place ((k * unitsPerOne : Nat) : Int) 1 = ((k * unitsPerOne : Nat) : Int) :=
    place_of_holds (holds_mul_unitsPerOne hk)
  rw [← hheld]
  exact place_digits_le h

theorem le_place_decimal {n k places : Nat} (hk : k ≤ twoTo 53) (h : k * tenTo places ≤ n) :
    (k * unitsPerOne : Nat) ≤ place ((n * unitsPerOne : Nat) : Int) (tenTo places) := by
  have hheld : place ((k * unitsPerOne : Nat) : Int) 1 = ((k * unitsPerOne : Nat) : Int) :=
    place_of_holds (holds_mul_unitsPerOne hk)
  rw [← hheld]
  exact le_place_digits h

/-- A number with decimals, as a literal writes it. -/
theorem at_ofDecimal {n : Nat} (hn : n ≤ twoTo 53) (places : Nat) :
    At (ofDecimal false n (-(places : Int)))
      (place ((n * unitsPerOne : Nat) : Int) (tenTo places)) := by
  have hrank := rank_ofDecimal false n places
  have hhigh := place_decimal_le hn (Nat.le_mul_of_pos_right n (tenTo_pos places))
  have hlow := place_nonneg (Int.natCast_nonneg (n * unitsPerOne)) (tenTo places)
  have hbelow := (holds_mul_unitsPerOne hn).below
  rw [signed_mul_natCast] at hrank
  exact at_of_rank hrank (by omega) (by omega)

/-- A place in steps of the last decimal. -/
def scaledRank (places : Nat) (r : Int) : Int :=
  signed (decide (r < 0)) (scaledUnits places r.natAbs)

/-- The place of what a text with a number of decimals reads back to. -/
def textRank (places : Nat) (r : Int) : Int :=
  place (scaledRank places r * unitsPerOne) (tenTo places)

theorem scaledUnits_zero (places : Nat) : scaledUnits places 0 = 0 := by
  unfold scaledUnits roundHalfEven
  simp [unitsPerOne_pos]

theorem scaledRank_signed (places : Nat) (s : Bool) (u : Nat) :
    scaledRank places (signed s u) = signed s (scaledUnits places u) := by
  unfold scaledRank
  rw [natAbs_signed]
  by_cases hu : u = 0
  · subst hu
    rw [scaledUnits_zero, signed_zero, signed_zero]
  · cases s with
    | true =>
      rw [decide_eq_true (show signed true u < 0 by simp only [signed, if_true]; omega)]
    | false =>
      rw [decide_eq_false (show ¬signed false u < 0 by
        simp only [signed, Bool.false_eq_true, if_false]; omega)]

theorem scaledRank_mono (places : Nat) {r s : Int} (h : r ≤ s) :
    scaledRank places r ≤ scaledRank places s := by
  have hmono : ∀ {u v : Nat}, u ≤ v → scaledUnits places u ≤ scaledUnits places v := fun huv =>
    roundHalfEven_mono unitsPerOne_pos unitsPerOne_pos
      (Nat.mul_le_mul_right _ (Nat.mul_le_mul_right _ huv))
  unfold scaledRank signed
  split
  · rename_i hr
    rw [decide_eq_true_eq] at hr
    split
    · rename_i hs
      rw [decide_eq_true_eq] at hs
      have := hmono (show s.natAbs ≤ r.natAbs by omega)
      omega
    · omega
  · rename_i hr
    rw [decide_eq_true_eq] at hr
    rw [if_neg (by rw [decide_eq_true_eq]; omega)]
    have := hmono (show r.natAbs ≤ s.natAbs by omega)
    omega

/-- Texts with one number of decimals read back in the order of what they write. -/
theorem textRank_mono (places : Nat) {r s : Int} (h : r ≤ s) :
    textRank places r ≤ textRank places s := by
  have hten : 0 < tenTo places := tenTo_pos places
  refine place_mono hten hten ?_
  have hs := Int.mul_le_mul_of_nonneg_right (scaledRank_mono places h)
    (Int.natCast_nonneg unitsPerOne)
  exact Int.mul_le_mul_of_nonneg_right hs (Int.natCast_nonneg _)

theorem place_scaledUnits_lt {u : Nat} (h : Holds u) (places : Nat) :
    place ((scaledUnits places u * unitsPerOne : Nat) : Int) (tenTo places) < unitsLimit := by
  have hone := unitsPerOne_pos
  have hten := tenTo_pos places
  rcases Nat.lt_or_ge u (twoTo 53 * unitsPerOne) with hu | hu
  · have hle : scaledUnits places u ≤ twoTo 53 * tenTo places := by
      refine roundHalfEven_le hone ?_
      have := Nat.mul_le_mul_right (tenTo places) (Nat.le_of_lt hu)
      rwa [Nat.mul_right_comm] at this
    have hheld : Holds (twoTo 53 * unitsPerOne) := holds_mul_unitsPerOne (Nat.le_refl _)
    have hm : place ((scaledUnits places u * unitsPerOne : Nat) : Int) (tenTo places) ≤
        place ((twoTo 53 * unitsPerOne : Nat) : Int) 1 := by
      refine place_mono hten (by decide) ?_
      have := Nat.mul_le_mul_right unitsPerOne hle
      rw [Nat.mul_right_comm] at this
      rw [Int.natCast_one, Int.mul_one, ← Int.natCast_mul]
      exact Int.ofNat_le.2 this
    rw [place_of_holds (n := ((twoTo 53 * unitsPerOne : Nat) : Int)) hheld] at hm
    have := hheld.below
    omega
  · obtain ⟨k, rfl⟩ := unitsPerOne_dvd h hu
    have hs : scaledUnits places (unitsPerOne * k) = k * tenTo places := by
      unfold scaledUnits
      rw [Nat.mul_assoc, Nat.mul_comm, roundHalfEven_mul _ hone]
    have hc : place ((k * tenTo places * unitsPerOne : Nat) : Int) (tenTo places) =
        place ((unitsPerOne * k : Nat) : Int) 1 := by
      refine place_congr hten (by decide) ?_
      rw [Int.natCast_one, Int.mul_one, ← Int.natCast_mul]
      congr 1
      rw [Nat.mul_right_comm, Nat.mul_comm k]
    rw [hs, hc, place_of_holds (n := ((unitsPerOne * k : Nat) : Int)) h]
    exact Int.ofNat_lt.2 h.below

theorem textRank_bounds {x : Binary64} {r : Int} (h : At x r) (places : Nat) :
    -(unitsLimit : Int) < textRank places r ∧ textRank places r < unitsLimit := by
  obtain ⟨s, u, hu, rfl, rfl⟩ := h.eq_finite
  have hlt := place_scaledUnits_lt hu places
  have hnonneg := place_nonneg (Int.natCast_nonneg (scaledUnits places u * unitsPerOne)) (tenTo places)
  unfold textRank
  rw [scaledRank_signed, signed_mul_natCast]
  cases s with
  | false =>
    have hpos : ∀ n, signed false n = (n : Int) := fun _ => rfl
    rw [hpos]
    omega
  | true =>
    have hneg : ∀ n, signed true n = -(n : Int) := fun _ => rfl
    rw [hneg, place_neg]
    omega

theorem signed_neg_iff (s : Bool) (n : Nat) : decide (signed s n < 0) = (s && n != 0) := by
  cases s with
  | false => exact decide_eq_false (by simp [signed])
  | true =>
    by_cases hn : n = 0
    · simp [signed, hn]
    · have hneg : signed true n < 0 := by
        simp only [signed, if_true]
        omega
      simp [hneg, hn]

/-- The text of a finite number is a literal for its place in steps of the last decimal. -/
theorem toFixedChars_eq {x : Binary64} {r : Int} (h : At x r) (places : Nat) :
    x.toFixedChars places =
      (Numeral.fixed (decide (scaledRank (min places maxPlaces) r < 0)) (min places maxPlaces)
        (scaledRank (min places maxPlaces) r).natAbs).chars := by
  obtain ⟨s, u, hu, rfl, rfl⟩ := h.eq_finite
  rw [scaledRank_signed, natAbs_signed, signed_neg_iff]
  unfold toFixedChars Numeral.chars
  rw [Numeral.magnitudeChars_fixed]
  rfl

/-- The two zeros are written alike. -/
theorem toFixed_congr {x y : Binary64} {r : Int} (hx : At x r) (hy : At y r) (places : Nat) :
    x.toFixed places = y.toFixed places := by
  unfold toFixed
  rw [toFixedChars_eq hx, toFixedChars_eq hy]

/-- **The text of a finite number reads back**, to a finite number again. -/
theorem leadingNumber?_toFixed {x : Binary64} {r : Int} (h : At x r) (places : Nat) :
    ∃ y, leadingNumber? (x.toFixed places).toList = some y ∧
      At y (textRank (min places maxPlaces) r) := by
  obtain ⟨hlow, hhigh⟩ := textRank_bounds h (min places maxPlaces)
  have hrank := rank_ofDecimal (decide (scaledRank (min places maxPlaces) r < 0))
    (scaledRank (min places maxPlaces) r).natAbs (min places maxPlaces)
  rw [← Numeral.value_fixed, signed_natAbs] at hrank
  have hat := at_of_rank hrank hlow hhigh
  refine ⟨_, ?_, hat⟩
  unfold toFixed
  rw [String.toList_ofList, toFixedChars_eq h,
    Numeral.leadingNumber?_chars (Numeral.wellFormed_fixed _ _ _)]
  unfold Numeral.finite?
  rw [if_pos hat.finite]

/-- A text with a number of decimals reads back exactly when it writes a finite number. -/
theorem reads_toFixed_iff {x : Binary64} {places : Nat} :
    (∃ y, leadingNumber? (x.toFixed places).toList = some y) ↔ x.isFinite = true := by
  constructor
  · rintro ⟨y, hy⟩
    unfold toFixed at hy
    rw [String.toList_ofList] at hy
    cases x with
    | nan =>
      have hnone : leadingNumber? ['N', 'a', 'N'] = none := by decide
      exact absurd (hnone.symm.trans hy) (by simp)
    | infinite s =>
      cases s with
      | true =>
        have hnone : leadingNumber? ['-', 'i', 'n', 'f'] = none := by decide
        exact absurd (hnone.symm.trans hy) (by simp)
      | false =>
        have hnone : leadingNumber? ['i', 'n', 'f'] = none := by decide
        exact absurd (hnone.symm.trans hy) (by simp)
    | finite s u hu => rfl
  · intro hf
    obtain ⟨r, hr⟩ := at_of_finite hf
    obtain ⟨y, hy, _⟩ := leadingNumber?_toFixed hr places
    exact ⟨y, hy⟩

end Binary64

/-! ## Decimals shown -/

/-- The number of decimals that a text shows. -/
def decimals (text : String) : Nat :=
  (Text.leftmost Criterion.fractionDigitsAt? text.toList).getD 0

theorem fractionDigitsAt?_of_ne {c : Char} (h : c ≠ '.') (rest : List Char) :
    Criterion.fractionDigitsAt? (c :: rest) = none := by
  unfold Criterion.fractionDigitsAt?
  split
  · rename_i he
    exact absurd (List.cons.inj he).1 h
  · rfl

theorem fractionDigitsAt?_point {ds : List Char} (hd : ∀ c ∈ ds, c.isDigit = true) (hne : ds ≠ []) :
    Criterion.fractionDigitsAt? ('.' :: ds) = some ds.length := by
  have htake : ds.takeWhile Char.isDigit = ds := by
    rw [← List.append_nil ds, List.takeWhile_append_of_pos hd, List.takeWhile_nil, List.append_nil]
  simp [Criterion.fractionDigitsAt?, htake, hne]

theorem leftmost_fraction {before fraction : List Char} (hb : ∀ c ∈ before, c ≠ '.')
    (hf : ∀ c ∈ fraction, c.isDigit = true) :
    (Text.leftmost Criterion.fractionDigitsAt?
      (before ++ if fraction.isEmpty then [] else '.' :: fraction)).getD 0 = fraction.length := by
  rw [Text.leftmost_skip fun c hc => fractionDigitsAt?_of_ne (hb c hc)]
  cases fraction with
  | nil => rfl
  | cons f fs =>
    simp only [List.isEmpty_cons, Bool.false_eq_true, if_false]
    rw [Text.leftmost_here (fractionDigitsAt?_point hf (by simp))]
    rfl

theorem Numeral.leftmost_fraction_chars {n : Numeral} (hn : n.WellFormed) :
    (Text.leftmost Criterion.fractionDigitsAt? n.chars).getD 0 = n.fraction.length := by
  have hpoint : ∀ c ∈ n.whole, c ≠ '.' :=
    fun c hc => ne_of_isDigit (hn.whole_digits c hc) (by decide)
  have hsign : ∀ c ∈ '-' :: n.whole, c ≠ '.' := by
    intro c hc
    rcases List.mem_cons.1 hc with rfl | hc
    · decide
    · exact hpoint c hc
  unfold chars magnitudeChars
  split
  · rw [← List.cons_append]
    exact leftmost_fraction hsign hn.fraction_digits
  · exact leftmost_fraction hpoint hn.fraction_digits

/-- A finite number is written with the decimals asked for, at most ten. -/
theorem Binary64.decimals_toFixed {x : Binary64} {r : Int} (h : At x r) (places : Nat) :
    decimals (x.toFixed places) = min places maxPlaces := by
  unfold decimals toFixed
  rw [String.toList_ofList, toFixedChars_eq h,
    Numeral.leftmost_fraction_chars (Numeral.wellFormed_fixed _ _ _), Numeral.length_fraction_fixed]

end MaterialInspection
