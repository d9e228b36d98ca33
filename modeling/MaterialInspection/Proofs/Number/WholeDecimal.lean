import MaterialInspection.Proofs.Number.Fixed
import MaterialInspection.Proofs.Number.WholeText

/-!
# Whole numbers with a fraction of zeros

A whole number in decimal may have a point and zeros behind it.  Then it is no text of a whole number any
more, but the double nearest to the number, and a double knows its whole part and its magnitude.

* `readInt?_of_point`, `readDouble?_of_writes` — no whole number, but the nearest double.
* `wholePart?_of_rank`, `abs_le_ofInt` — what the double says about the number.
-/

set_option autoImplicit false

namespace MaterialInspection

open Number Binary64

seal unitsPerOne unitsLimit twoTo tenTo

/-! ## With a point -/

/-- What may stand behind a whole number: a point and zeros, or nothing. -/
def zeroFraction (zeros : Nat) : List Char :=
  if zeros = 0 then [] else '.' :: List.replicate zeros '0'

variable {text ds : List Char} {n : Int}

/-- A text with a point is no whole number. -/
theorem readInt?_of_point (h : '.' ∈ text) (low high : Int) : readInt? low high text = none := by
  have hnone : ∀ tail : List Char, '.' ∈ tail → tail.all Char.isDigit = false := fun tail hmem =>
    List.all_eq_false.2 ⟨'.', hmem, by decide⟩
  unfold readInt?
  dsimp only
  split
  · simp [hnone _ ((List.mem_cons.1 h).resolve_left (by decide))]
  · simp [hnone _ ((List.mem_cons.1 h).resolve_left (by decide))]
  · simp [hnone _ h]

/-! ## As doubles -/

/-- Digits with a fraction of zeros are read as the double nearest to the number. -/
theorem readUnsigned?_digits (hne : ds ≠ []) (hdigits : ∀ c ∈ ds, c.isDigit = true) (negative : Bool)
    (zeros : Nat) :
    ∃ x, readUnsigned? negative (ds ++ zeroFraction zeros) = some x ∧
      x.rank = some (place (signed negative (Nat.ofDigitChars 10 ds 0) * unitsPerOne) 1) := by
  let numeral : Numeral := ⟨negative, ds, List.replicate zeros '0'⟩
  have hwell : numeral.WellFormed := by
    refine ⟨hne, hdigits, fun c hc => ?_⟩
    rw [(List.mem_replicate.1 hc).2]
    decide
  have hchars : numeral.magnitudeChars = ds ++ zeroFraction zeros := by
    unfold Numeral.magnitudeChars zeroFraction
    cases zeros with
    | zero => rfl
    | succ k => rfl
  have hread := Numeral.readUnsigned?_magnitudeChars hwell
  rw [hchars] at hread
  refine ⟨numeral.value, hread, ?_⟩
  have hpow : 10 ^ zeros = tenTo zeros := by rw [tenTo, Nat.pow_eq]
  have hvalue : Nat.ofDigitChars 10 (ds ++ List.replicate zeros '0') 0 =
      Nat.ofDigitChars 10 ds 0 * tenTo zeros := by
    rw [Nat.ofDigitChars_append, Nat.ofDigitChars_replicate_zero, hpow, Nat.mul_comm]
  unfold Numeral.value
  rw [hvalue, List.length_replicate, rank_ofDecimal]
  refine congrArg some (place_congr (tenTo_pos zeros) (by decide) ?_)
  rw [← signed_mul_natCast, Int.natCast_one, Int.mul_one, Int.mul_right_comm]

theorem readDouble?_of_digits (hne : ds ≠ []) (hdigits : ∀ c ∈ ds, c.isDigit = true)
    (rest : List Char) : readDouble? (ds ++ rest) = readUnsigned? false (ds ++ rest) := by
  obtain ⟨c, cs, rfl⟩ := List.exists_cons_of_ne_nil hne
  have hc : c.isDigit = true := hdigits c List.mem_cons_self
  exact readDouble?_of_ne (ne_of_isDigit hc (by decide)) (ne_of_isDigit hc (by decide)) (cs ++ rest)

/-- A whole number is read as the nearest double, with a fraction of zeros or without. -/
theorem readDouble?_of_writes (h : WritesWhole text n) (zeros : Nat) :
    ∃ x, readDouble? (text ++ zeroFraction zeros) = some x ∧
      x.rank = some (place (n * unitsPerOne) 1) := by
  cases h with
  | digits hne hdigits =>
    rw [readDouble?_of_digits hne hdigits]
    exact readUnsigned?_digits hne hdigits false zeros
  | plus hne hdigits => exact readUnsigned?_digits hne hdigits false zeros
  | minus hne hdigits => exact readUnsigned?_digits hne hdigits true zeros

/-! ## What the double says -/

namespace Binary64

/-- The double of a whole number has that number as its whole part, up to `2 ^ 53`. -/
theorem wholePart?_of_rank {x : Binary64} (hn : n.natAbs ≤ twoTo 53)
    (h : x.rank = some (place (n * unitsPerOne) 1)) : x.isWhole = true ∧ x.wholePart? = some n := by
  have hholds := holds_mul_unitsPerOne hn
  have habs : (n * unitsPerOne).natAbs = n.natAbs * unitsPerOne := by
    rw [Int.natAbs_mul, Int.natAbs_natCast]
  rw [place_of_holds (habs ▸ hholds)] at h
  have hbelow := hholds.below
  obtain ⟨s, u, hu, rfl, hs⟩ := (at_of_rank h (by omega) (by omega)).eq_finite
  have hunits : u = n.natAbs * unitsPerOne := by rw [← habs, hs, natAbs_signed]
  subst hunits
  refine ⟨beq_iff_eq.2 (Nat.mul_mod_left _ _), ?_⟩
  unfold wholePart?
  dsimp only
  rw [Nat.mul_div_cancel _ unitsPerOne_pos]
  rw [← signed_mul_natCast] at hs
  have hone : (unitsPerOne : Int) ≠ 0 := Int.natCast_ne_zero.2 (Nat.ne_of_gt unitsPerOne_pos)
  exact congrArg some (Int.eq_of_mul_eq_mul_right hone hs).symm

theorem natAbs_place (num : Int) (den : Nat) : ((place num den).natAbs : Int) = place num.natAbs den := by
  rw [place_of_nonneg (Int.natCast_nonneg _), Int.natAbs_natCast]
  unfold place
  rw [natAbs_signed]

/-- The magnitude of the double of a whole number is compared as that of the whole number is. -/
theorem abs_le_ofInt {x : Binary64} {k : Nat} (hk : k < twoTo 53)
    (h : x.rank = some (place (n * unitsPerOne) 1)) :
    x.abs.le (.ofInt k) = decide (n.natAbs ≤ k) := by
  have habs : x.abs.rank = some (place (n.natAbs * unitsPerOne : Nat) 1) := by
    rw [rank_abs h, natAbs_place, Int.natAbs_mul, Int.natAbs_natCast]
  have hrank := (at_ofInt (n := k) (by omega)).rank
  rw [← Int.natCast_mul] at hrank
  rw [Bool.eq_iff_iff, decide_eq_true_eq]
  refine (le_iff habs hrank).trans ⟨fun hle => Nat.not_lt.1 fun hgt => ?_, fun hle => ?_⟩
  · -- the next whole number is a double too, so nothing above it is rounded down to this one
    have hnext := le_place_decimal (show k + 1 ≤ twoTo 53 from hk) (show (k + 1) * tenTo 0 ≤ n.natAbs by
      rwa [tenTo_zero, Nat.mul_one])
    rw [tenTo_zero] at hnext
    have hstep : k * unitsPerOne < (k + 1) * unitsPerOne :=
      Nat.mul_lt_mul_of_pos_right (Nat.lt_succ_self k) unitsPerOne_pos
    omega
  · have hheld := place_decimal_le (Nat.le_of_lt hk) (show n.natAbs ≤ k * tenTo 0 by
      rwa [tenTo_zero, Nat.mul_one])
    rwa [tenTo_zero] at hheld

end Binary64

end MaterialInspection
