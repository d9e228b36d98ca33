import MaterialInspection.Number.Binary64
import MaterialInspection.Number.Width
import MaterialInspection.Proofs.Number.Nearest

/-!
# Magnitudes that doubles hold

Magnitudes are whole numbers of the smallest units, so what a double holds is a question of
divisibility.  Whole numbers up to `2 ^ 53` are held, and beyond that everything held is whole.

* `holds_mul_unitsPerOne`, `unitsPerOne_dvd` — whole numbers and doubles.
* `nearest_close` — rounding a magnitude below `k * 2 ^ 53` is off by at most `k`.
* `Holds.le_greatest` — the largest magnitude.
-/

set_option autoImplicit false

namespace MaterialInspection.Binary64

open Number

theorem twoTo_lt_twoTo {m n : Nat} (h : m < n) : twoTo m < twoTo n :=
  Nat.pow_lt_pow_right (by decide) h

theorem twoTo_succ (n : Nat) : twoTo (n + 1) = twoTo n + twoTo n := by
  rw [twoTo_add]
  exact Nat.mul_two (twoTo n)

theorem twoTo_53 : twoTo 53 = 9007199254740992 := rfl

theorem twoTo_64 : twoTo 64 = wordCount := rfl

theorem unitsPerOne_eq : unitsPerOne = twoTo (53 + 1021) := rfl

-- the constants have thousands of bits, and no proof here needs them
seal unitsPerOne unitsLimit twoTo

/-! ## Whole numbers -/

theorem twoTo_mul_unitsPerOne : twoTo 53 * unitsPerOne = twoTo 1127 := by
  rw [unitsPerOne, ← twoTo_add]

theorem twoTo_lt_unitsLimit : twoTo 1127 < unitsLimit := by
  rw [unitsLimit]
  exact twoTo_lt_twoTo (by decide)

theorem holds_mul_unitsPerOne {n : Nat} (h : n ≤ twoTo 53) : Holds (n * unitsPerOne) := by
  have hle := Nat.mul_le_mul_right unitsPerOne h
  rw [twoTo_mul_unitsPerOne] at hle
  refine ⟨Nat.lt_of_le_of_lt hle twoTo_lt_unitsLimit, ?_⟩
  rw [unitsPerOne]
  exact spacing_dvd_mul h

theorem holds_unitsPerOne : Holds unitsPerOne := by
  have h := holds_mul_unitsPerOne (n := 1) (by rw [twoTo_53]; decide)
  rwa [Nat.one_mul] at h

/-- From `2 ^ 53` on, doubles are whole numbers. -/
theorem unitsPerOne_dvd {u : Nat} (h : Holds u) (hu : twoTo 53 * unitsPerOne ≤ u) :
    unitsPerOne ∣ u := by
  refine Nat.dvd_trans ?_ h.significant
  rw [twoTo_mul_unitsPerOne] at hu
  have hne : u ≠ 0 := Nat.ne_of_gt (Nat.lt_of_lt_of_le (twoTo_pos 1127) hu)
  have hlog : ¬u.log2 < 1127 := fun hlt => Nat.not_lt.2 hu ((log2_lt_iff hne).1 hlt)
  rw [unitsPerOne, spacing]
  exact twoTo_dvd_twoTo (by omega)

theorem mul_add_pred_div {n k : Nat} (h : 0 < n) : (n * k + (n - 1)) / n = k := by
  rw [Nat.add_comm, Nat.add_mul_div_left _ _ h, Nat.div_eq_of_lt (by omega), Nat.zero_add]

theorem add_pred_div_le {u n k : Nat} (h : 0 < n) (hu : u < k * n) : (u + (n - 1)) / n ≤ k := by
  apply Nat.le_of_lt_succ
  rw [Nat.div_lt_iff_lt_mul h, Nat.succ_mul]
  omega

/-- The whole numbers next to a magnitude that a double holds are held by doubles. -/
theorem holds_whole {u : Nat} (h : Holds u) :
    Holds (u / unitsPerOne * unitsPerOne) ∧
      Holds ((u + (unitsPerOne - 1)) / unitsPerOne * unitsPerOne) := by
  have hpos := unitsPerOne_pos
  rcases Nat.lt_or_ge u (twoTo 53 * unitsPerOne) with hu | hu
  · refine ⟨holds_mul_unitsPerOne ?_, holds_mul_unitsPerOne (add_pred_div_le hpos hu)⟩
    exact Nat.le_of_lt ((Nat.div_lt_iff_lt_mul hpos).2 hu)
  · obtain ⟨k, rfl⟩ := unitsPerOne_dvd h hu
    rw [mul_add_pred_div hpos, Nat.mul_div_cancel_left k hpos, Nat.mul_comm]
    exact ⟨h, h⟩

/-- A magnitude lies within one step above its multiple from below. -/
theorem div_mul_bounds (u : Nat) {n : Nat} (h : 0 < n) : u / n * n ≤ u ∧ u < u / n * n + n := by
  have hdiv := Nat.div_add_mod u n
  rw [Nat.mul_comm] at hdiv
  have hmod := Nat.mod_lt u h
  omega

/-! ## Rounding -/

theorem nearest_zero (den : Nat) : nearest 0 den = 0 := by
  unfold nearest roundHalfEven
  simp

theorem nearest_eq_zero {num den : Nat} (h : 2 * num < den) : nearest num den = 0 := by
  have hquot : num / den = 0 := Nat.div_eq_of_lt (by omega)
  have hmod : num % den = num := Nat.mod_eq_of_lt (by omega)
  have hone : twoTo 0 = 1 := by rw [twoTo, Nat.pow_eq, Nat.pow_zero]
  unfold nearest spacing roundHalfEven
  dsimp only
  rw [hquot, show Nat.log2 0 - 52 = 0 by decide, hone, Nat.mul_one, Nat.mul_one, hquot, hmod, if_pos h]

theorem nearest_le_limit {num den : Nat} (hden : 0 < den) (h : num ≤ unitsLimit * den) :
    nearest num den ≤ unitsLimit := by
  have hm := nearest_mono (a := num) (c := unitsLimit) (d := 1) hden (by decide) (by rwa [Nat.mul_one])
  have hheld : nearest unitsLimit 1 = unitsLimit := by
    apply nearest_of_dvd
    have := spacing_dvd_mul (m := 1) (k := 2098) (twoTo_pos 53)
    rwa [Nat.one_mul, ← unitsLimit] at this
  rwa [hheld] at hm

/-- Rounding a magnitude below `k * 2 ^ 53` is off by at most `k`. -/
theorem nearest_close {num den k : Nat} (hden : 0 < den) (hk : 0 < k)
    (h : num ≤ k * twoTo 53 * den) :
    nearest num den * den ≤ num + k * den ∧ num ≤ nearest num den * den + k * den := by
  have hquot : num / den ≤ k * twoTo 53 := by
    have := Nat.div_le_div_right (c := den) h
    rwa [Nat.mul_div_cancel _ hden] at this
  have hspacing : spacing (num / den) ≤ 2 * k := by
    rcases spacing_cases (num / den) with hone | hmul
    · omega
    · have hpow : k * twoTo 53 = 2 * k * twoTo 52 := by
        rw [twoTo_succ 52, Nat.mul_add, Nat.mul_comm 2 k, Nat.mul_assoc, Nat.two_mul, Nat.mul_add]
      exact Nat.le_of_mul_le_mul_right (by omega) (twoTo_pos 52)
  have herror := nearest_error num hden
  have hstep : den * spacing (num / den) ≤ 2 * (k * den) := by
    have := Nat.mul_le_mul_left den hspacing
    rwa [Nat.mul_left_comm, Nat.mul_comm den k] at this
  omega

/-- Below `2 ^ 53` rounding is off by at most half of one. -/
theorem nearest_close_of_lt {num : Nat} (h : num < twoTo 53 * unitsPerOne) :
    2 * num ≤ 2 * nearest num 1 + unitsPerOne := by
  have herror := (@nearest_error num 1 (by decide)).2
  have hspacing : spacing num ≤ unitsPerOne := by
    unfold spacing
    rw [unitsPerOne]
    refine twoTo_le_twoTo ?_
    by_cases hzero : num = 0
    · subst hzero
      decide
    · rw [unitsPerOne, ← twoTo_add, ← log2_lt_iff hzero] at h
      omega
  rw [Nat.mul_one, Nat.one_mul, Nat.div_one] at herror
  omega

/-! ## The largest double -/

/-- The largest magnitude of a double. -/
def greatest : Nat := (twoTo 53 - 1) * twoTo 2045

theorem greatest_eq : greatest + twoTo 2045 = unitsLimit := by
  have hpow : twoTo 53 * twoTo 2045 = unitsLimit := by rw [unitsLimit, ← twoTo_add]
  have hpos := twoTo_pos 53
  have hone : 1 * twoTo 2045 ≤ twoTo 53 * twoTo 2045 := Nat.mul_le_mul_right _ hpos
  rw [greatest, Nat.sub_mul, Nat.one_mul, ← hpow]
  omega

theorem holds_greatest : Holds greatest := by
  have heq := greatest_eq
  have hpos := twoTo_pos 2045
  refine ⟨by omega, ?_⟩
  rw [greatest]
  exact spacing_dvd_mul (Nat.sub_le _ _)

theorem Holds.le_greatest {u : Nat} (h : Holds u) : u ≤ greatest := by
  have hbelow := h.below
  have heq := greatest_eq
  by_cases hu : u < twoTo 2097
  · have htwice : twoTo 2097 + twoTo 2097 = unitsLimit := by
      rw [unitsLimit, ← twoTo_succ]
    have hle : twoTo 2045 ≤ twoTo 2097 := twoTo_le_twoTo (by decide)
    omega
  · have hne : u ≠ 0 := by
      have := twoTo_pos 2097
      omega
    have hlog : ¬u.log2 < 2097 := fun hlt => hu ((log2_lt_iff hne).1 hlt)
    have hdvd : twoTo 2045 ∣ u := by
      refine Nat.dvd_trans ?_ h.significant
      rw [spacing]
      exact twoTo_dvd_twoTo (by omega)
    obtain ⟨k, rfl⟩ := hdvd
    have hk : k < twoTo 53 := by
      rw [unitsLimit, show 2098 = 2045 + 53 from rfl, twoTo_add] at hbelow
      exact Nat.lt_of_mul_lt_mul_left hbelow
    rw [greatest, Nat.mul_comm]
    exact Nat.mul_le_mul_right _ (by omega)

/-- Half of the largest magnitude. -/
def halfGreatest : Nat := (twoTo 53 - 1) * twoTo 2044

theorem two_halfGreatest : halfGreatest + halfGreatest = greatest := by
  rw [halfGreatest, greatest, twoTo_succ 2044, Nat.mul_add]

theorem holds_halfGreatest : Holds halfGreatest := by
  have htwo := two_halfGreatest
  have heq := greatest_eq
  have hpos := twoTo_pos 2045
  refine ⟨by omega, ?_⟩
  rw [halfGreatest]
  exact spacing_dvd_mul (Nat.sub_le _ _)

end MaterialInspection.Binary64
