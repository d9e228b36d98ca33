import MaterialInspection.Exchange
import MaterialInspection.Proofs.Number.Arithmetic

/-!
# Numbers in JSON texts are finite

A JSON text has no way to write an infinity, and a numeral too large for a double is refused.  Between
the two a numeral is read by multiplying or dividing a whole number of 64 bits by powers of ten, in
several steps where one cannot reach, and no step leaves the finite doubles.

* `Json.Number.finite_scaleDown`, `Json.Number.finite_of_scale?` — the steps stay finite.
* `Json.Tree.finite_of_double?` — so does every number that is read as a double.
* `Delivery.read_fits` — the numbers of a delivery that is read fit their columns.
-/

set_option autoImplicit false

namespace MaterialInspection

open Number

seal unitsPerOne unitsLimit twoTo tenTo

namespace Binary64

theorem finite_neg (x : Binary64) : (-x).isFinite = x.isFinite := by
  cases x with
  | nan => rfl
  | infinite s => rfl
  | finite s u hu => rfl

/-- Whole numbers of 64 bits are within the range of doubles. -/
theorem finite_ofInt {n : Int} (h : n.natAbs ≤ wordCount) : (ofInt n).isFinite = true := by
  have hpower : twoTo 64 * unitsPerOne = twoTo 1138 := by
    rw [unitsPerOne, ← twoTo_add]
  have hheld : nearest (twoTo 1138) 1 = twoTo 1138 := by
    have hdvd := spacing_dvd_mul (m := 1) (k := 1138) (twoTo_pos 53)
    rw [Nat.one_mul] at hdvd
    exact nearest_of_dvd hdvd
  have hle : nearest (n * unitsPerOne).natAbs 1 ≤ twoTo 1138 := by
    rw [← hheld]
    apply nearest_mono (by decide) (by decide)
    rw [Int.natAbs_mul, Int.natAbs_natCast, ← hpower, twoTo_64]
    exact Nat.mul_le_mul_right 1 (Nat.mul_le_mul_right unitsPerOne h)
  have hlimit : twoTo 1138 < unitsLimit := by
    rw [unitsLimit]
    exact twoTo_lt_twoTo (by decide)
  unfold ofInt ofUnits ofRatio
  rw [dif_pos (Nat.lt_of_le_of_lt hle hlimit)]
  rfl

/-- A finite number times zero is finite. -/
theorem finite_mul_zero {x : Binary64} (h : x.isFinite = true) : (x * 0).isFinite = true := by
  obtain ⟨r, hr⟩ := at_of_finite h
  have hrank := rank_mul hr at_zero
  rw [Int.mul_zero, place_zero] at hrank
  have hpos := unitsLimit_pos
  exact (at_of_rank hrank (by omega) (by omega)).finite

/-- Dividing by one or more stays finite. -/
theorem finite_div {x y : Binary64} {n : Nat} (hx : x.isFinite = true) (hy : At y n)
    (hn : unitsPerOne ≤ n) : (x / y).isFinite = true := by
  have hpos : 0 < n := Nat.lt_of_lt_of_le unitsPerOne_pos hn
  obtain ⟨r, hr⟩ := at_of_finite hx
  have hrank := rank_div hr hy hpos
  have hheld : place (r.natAbs : Int) 1 = r.natAbs := by
    apply place_of_holds
    rw [Int.natAbs_natCast]
    exact hr.holds
  have hstep : (r.natAbs : Int) * unitsPerOne ≤ r.natAbs * n :=
    Int.mul_le_mul_of_nonneg_left (Int.ofNat_le.2 hn) (Int.natCast_nonneg _)
  have hup : r * unitsPerOne ≤ r.natAbs * unitsPerOne :=
    Int.mul_le_mul_of_nonneg_right (by omega) (Int.natCast_nonneg _)
  have hdown : -r * unitsPerOne ≤ r.natAbs * unitsPerOne :=
    Int.mul_le_mul_of_nonneg_right (by omega) (Int.natCast_nonneg _)
  have hhigh := @place_mono (r * unitsPerOne) r.natAbs n 1 hpos (by decide) (by omega)
  have hlow := @place_mono (-r * unitsPerOne) r.natAbs n 1 hpos (by decide) (by omega)
  rw [Int.neg_mul, place_neg] at hlow
  have hbelow := hr.holds.below
  exact (at_of_rank hrank (by omega) (by omega)).finite

end Binary64

namespace Json

open Binary64

namespace Number

/-! ## Scaling -/

/-- A power of ten is at least one, or beyond the largest double. -/
theorem powerOfTen_cases (e : Nat) :
    powerOfTen e = .infinite false ∨ ∃ n : Nat, At (powerOfTen e) n ∧ unitsPerOne ≤ n := by
  have hpower : powerOfTen e = if 310 ≤ e then .infinite false
      else ofRatio false (1 * tenTo e * unitsPerOne) 1 := by
    show ofDecimal false 1 (.ofNat e) = _
    unfold ofDecimal
    exact if_neg Nat.one_ne_zero
  have hone : unitsPerOne ≤ 1 * tenTo e * unitsPerOne := by
    rw [Nat.one_mul]
    exact Nat.le_mul_of_pos_left _ (tenTo_pos e)
  have hle : unitsPerOne ≤ nearest (1 * tenTo e * unitsPerOne) 1 := by
    have hmono := nearest_mono (b := 1) (d := 1) (by decide) (by decide)
      (Nat.mul_le_mul_right 1 hone)
    rwa [nearest_of_dvd holds_unitsPerOne.significant] at hmono
  rw [hpower]
  split
  · exact Or.inl rfl
  · unfold ofRatio
    split
    · exact Or.inr ⟨_, at_finite false _ _, hle⟩
    · exact Or.inl rfl

/-- Dividing by a power of ten stays finite. -/
theorem finite_div_powerOfTen {x : Binary64} (h : x.isFinite = true) (e : Nat) :
    (x / powerOfTen e).isFinite = true := by
  rcases powerOfTen_cases e with hinfinite | ⟨n, hn, hone⟩
  · rw [hinfinite]
    cases x with
    | nan => cases h
    | infinite s => cases h
    | finite s u hu => rfl
  · exact finite_div h hn hone

theorem finite_scaleDown (steps : Nat) {x : Binary64} (h : x.isFinite = true) (e : Nat) :
    (scaleDown steps x e).isFinite = true := by
  induction steps generalizing x e with
  | zero => exact finite_mul_zero h
  | succ steps ih =>
    unfold scaleDown
    split
    · exact finite_div_powerOfTen h e
    · split
      · exact h
      · exact ih (finite_div_powerOfTen h 308) (e - 308)

theorem finite_of_scale? {x y : Binary64} (h : x.isFinite = true) {e : Int}
    (hy : scale? x e = some y) : y.isFinite = true := by
  unfold scale? at hy
  split at hy
  · split at hy
    · exact (Option.filter_eq_some_iff.1 hy).2
    · split at hy
      · cases hy
        exact h
      · cases hy
  · cases hy
    exact finite_scaleDown 4 h _

theorem finite_withSign (negative : Bool) (x : Binary64) :
    (withSign negative x).isFinite = x.isFinite := by
  unfold withSign
  split
  · exact finite_neg x
  · rfl

/-! ## Numerals -/

/-- What is taken of a numeral's digits fits 64 bits. -/
theorem absorb_lt {significand : Nat} (h : significand < wordCount) (cs : List Char) :
    (absorb significand cs).1 < wordCount := by
  induction cs generalizing significand with
  | nil => exact h
  | cons c rest ih =>
    unfold absorb
    dsimp only
    split
    · rename_i hnext
      exact ih hnext
    · exact h

theorem finite_of_double? {n : NumeralText} {x : Binary64} (h : double? n = some x) :
    x.isFinite = true := by
  have hwhole := absorb_lt (show 0 < wordCount by decide) n.whole
  have hall := absorb_lt hwhole n.fraction
  have hscaled : ∀ e : Int, (scale? (.ofInt (absorb (absorb 0 n.whole).1 n.fraction).1) e).map
      (withSign n.negative) = some x → x.isFinite = true := by
    intro e he
    obtain ⟨y, hy, rfl⟩ := Option.map_eq_some_iff.1 he
    rw [finite_withSign]
    exact finite_of_scale? (finite_ofInt (by omega)) hy
  unfold double? at h
  dsimp only at h
  split at h
  · exact hscaled _ h
  · split at h
    · exact hscaled _ h
    · split at h
      · cases h
      · cases h
        rfl

theorem finite_toDouble {n : NumeralText} {number : Number} (h : ofText? n = some number) :
    number.toDouble.isFinite = true := by
  have hdouble : ∀ number, (double? n).map Number.double = some number →
      number.toDouble.isFinite = true := by
    intro number hn
    obtain ⟨x, hx, rfl⟩ := Option.map_eq_some_iff.1 hn
    exact finite_of_double? hx
  have hmin : minInt64 = -9223372036854775808 := rfl
  have hwords : wordCount = 18446744073709551616 := rfl
  unfold ofText? at h
  dsimp only at h
  split at h
  · split at h
    · rename_i hsize
      cases h
      rw [Bool.and_eq_true, decide_eq_true_eq] at hsize
      exact finite_ofInt (by omega)
    · split at h
      · rename_i hsize
        cases h
        rw [Bool.and_eq_true, Bool.and_eq_true, decide_eq_true_eq] at hsize
        exact finite_ofInt (by omega)
      · exact hdouble _ h
  · exact hdouble _ h

end Number

/-- **Every number that is read as a double is finite.** -/
theorem Tree.finite_of_double? {t : Tree} {x : Binary64} (h : t.double? = some x) :
    x.isFinite = true := by
  unfold Tree.double? at h
  split at h
  · obtain ⟨number, hnumber, rfl⟩ := Option.map_eq_some_iff.1 h
    exact Number.finite_toDouble hnumber
  · cases h

end Json

theorem Json.Tree.int?_bounds {low high n : Int} {t : Tree} (h : t.int? low high = some n) :
    low ≤ n ∧ n ≤ high := by
  unfold Tree.int? at h
  split at h
  · split at h
    · split at h
      · rename_i hbounds
        cases h
        rwa [Bool.and_eq_true, decide_eq_true_eq, decide_eq_true_eq] at hbounds
      · cases h
    · cases h
  · cases h

/-- The numbers of a delivery that is read fit their columns: the quantity is a number, and the
packages have 32 bits. -/
theorem Delivery.read_fits {t : Json.Tree} {d : Delivery} (h : Delivery.ofTree? t = some d) :
    d.quantity.isNaN = false ∧ minInt32 ≤ d.packages ∧ d.packages ≤ maxInt32 := by
  unfold Delivery.ofTree? at h
  simp only [Option.bind_eq_bind, Option.bind_eq_some_iff] at h
  obtain ⟨r, _, _, _, _, _, _, _, _, _, quantity, hquantity, packages, hpackages, _, _, _, _, h⟩ := h
  cases h
  unfold Json.Record.required? at hquantity hpackages
  constructor
  · split at hquantity
    · exact Binary64.isNaN_of_finite (Json.Tree.finite_of_double? hquantity)
    · cases hquantity
  · split at hpackages
    · exact Json.Tree.int?_bounds hpackages
    · cases hpackages

end MaterialInspection
