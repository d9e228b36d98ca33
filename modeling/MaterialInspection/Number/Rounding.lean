import MaterialInspection.Number.Power

/-!
# Rounding a quotient

Two roundings of an exact quotient `num / den`, both to the nearest with a half going to the even
neighbour: to a whole number (`roundHalfEven`), and to a whole number of at most 53 significant
bits (`nearest`).  The second is what binary64 arithmetic does to every exact result, once
magnitudes are counted in the smallest unit a double can hold.

Principal statements: `roundHalfEven_bounds` (the result is one of the two neighbours of the
quotient), `roundHalfEven_mul` (a whole quotient is kept), `spacing_dvd_nearest` (a rounded
magnitude has at most 53 significant bits) and `nearest_of_dvd` (a magnitude that already has is
kept).
-/

set_option autoImplicit false

namespace MaterialInspection.Number

/-- The whole number nearest to `num / den`; a half goes to the even neighbour. -/
def roundHalfEven (num den : Nat) : Nat :=
  let below := num / den
  let twice := 2 * (num % den)
  if twice < den then below
  else if den < twice then below + 1
  else if below % 2 = 0 then below
  else below + 1

/-- The rounded quotient is the floor of the quotient or the number after it. -/
theorem roundHalfEven_bounds (num den : Nat) :
    num / den ≤ roundHalfEven num den ∧ roundHalfEven num den ≤ num / den + 1 := by
  unfold roundHalfEven
  dsimp only
  split
  · omega
  · split
    · omega
    · split <;> omega

/-- A quotient without remainder is its own rounding. -/
theorem roundHalfEven_mul {den : Nat} (n : Nat) (h : 0 < den) : roundHalfEven (n * den) den = n := by
  simp [roundHalfEven, Nat.mul_div_cancel n h, h]

/-- The distance between neighbouring magnitudes of at most 53 significant bits around `n`. -/
def spacing (n : Nat) : Nat := twoTo (n.log2 - 52)

theorem spacing_pos (n : Nat) : 0 < spacing n := twoTo_pos _

/-- The magnitude of at most 53 significant bits nearest to `num / den`; a half goes to the
neighbour with the even significand. -/
def nearest (num den : Nat) : Nat :=
  let step := spacing (num / den)
  roundHalfEven num (den * step) * step

/-- A magnitude `m * 2 ^ k` with `m ≤ 2 ^ 53` has at most 53 significant bits. -/
theorem spacing_dvd_mul {m k : Nat} (h : m ≤ twoTo 53) :
    spacing (m * twoTo k) ∣ m * twoTo k := by
  unfold spacing
  by_cases hm : m = 0
  · simp [hm]
  · rcases Nat.lt_or_eq_of_le h with h | h
    · have hlog : (m * twoTo k).log2 < 53 + k := by
        rw [log2_lt_iff (Nat.mul_ne_zero hm (Nat.ne_of_gt (twoTo_pos k))), twoTo_add]
        exact Nat.mul_lt_mul_of_pos_right h (twoTo_pos k)
      exact Nat.dvd_trans (twoTo_dvd_twoTo (by omega)) (Nat.dvd_mul_left _ _)
    · rw [h, ← twoTo_add, log2_twoTo]
      exact twoTo_dvd_twoTo (by omega)

/-- A quotient cut at its spacing has at most 53 bits. -/
theorem div_spacing_lt (q : Nat) : q / spacing q < twoTo 53 := by
  unfold spacing
  rw [Nat.div_lt_iff_lt_mul (twoTo_pos _), ← twoTo_add]
  exact Nat.lt_of_lt_of_le (lt_twoTo_log2_succ q) (twoTo_le_twoTo (by omega))

/-- A rounded magnitude has at most 53 significant bits. -/
theorem spacing_dvd_nearest (num den : Nat) : spacing (nearest num den) ∣ nearest num den := by
  unfold nearest
  dsimp only
  have hb := (roundHalfEven_bounds num (den * spacing (num / den))).2
  have hq := div_spacing_lt (num / den)
  rw [Nat.div_div_eq_div_mul] at hq
  exact spacing_dvd_mul (by omega)

/-- A magnitude of at most 53 significant bits is its own rounding. -/
theorem nearest_of_dvd {n : Nat} (h : spacing n ∣ n) : nearest n 1 = n := by
  unfold nearest
  simp only [Nat.div_one, Nat.one_mul]
  obtain ⟨m, hm⟩ := h
  have hr : roundHalfEven n (spacing n) = m := by
    conv => lhs; arg 1; rw [hm, Nat.mul_comm]
    exact roundHalfEven_mul m (spacing_pos n)
  rw [hr, Nat.mul_comm]
  exact hm.symm

end MaterialInspection.Number
