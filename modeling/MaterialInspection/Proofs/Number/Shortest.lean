import MaterialInspection.Number.Shortest
import MaterialInspection.Proofs.Number.Digits
import MaterialInspection.Proofs.Number.Magnitude

/-!
# The shortest decimal of a double

`Shortest.rounds` asks of a decimal whether it lies between the two halves around a magnitude.  A
decimal that does is rounded to the magnitude, and the search for the shortest one goes from coarse
grids to fine ones, so it stops at the first grid that has such a decimal.

A grid is fine when two of its steps fit between a magnitude and the one below.  A fine grid always has
a decimal, so the search succeeds within its steps, and the grid above the one it stops at is not fine,
which bounds the digits.

* `nearest_of_rounds` — what lies in the rounding interval of a magnitude is rounded to it.
* `Shortest.digits_spec` — the shortest decimal lies in the interval, and is not zero.
* `Shortest.digits_lt` — its digits fit 64 bits.
-/

set_option autoImplicit false

namespace MaterialInspection

open Number Binary64

seal unitsPerOne unitsLimit twoTo tenTo

/-! ## Rounding intervals -/

namespace Number

/-- The steps below a magnitude are those above it, or half as wide. -/
theorem spacing_pred_dvd (units : Nat) : spacing (units - 1) ∣ spacing units :=
  twoTo_dvd_twoTo (Nat.sub_le_sub_right (log2_mono (Nat.sub_le units 1)) 52)

theorem spacing_le (n : Nat) : spacing n ≤ n + 1 := by
  rcases spacing_cases n with h | h
  · omega
  · have hpos := twoTo_pos 52
    have := Nat.le_mul_of_pos_right (spacing n) hpos
    omega

/-- A number between a power of two and the next has the spacing of the power. -/
theorem spacing_of_between {q k : Nat} (hlow : twoTo k ≤ q) (hhigh : q < twoTo (k + 1)) :
    spacing q = twoTo (k - 52) := by
  have hpos := twoTo_pos k
  have hne : q ≠ 0 := by omega
  have hlt := (log2_lt_iff hne).2 hhigh
  have hle : ¬q.log2 < k := fun h => by
    have := (log2_lt_iff hne).1 h
    omega
  unfold spacing
  rw [show q.log2 = k by omega]

variable {units num den : Nat}

/-- The rounding interval of a magnitude, with its ends where the significand is even. -/
theorem rounds_iff : Shortest.rounds units num den = true ↔
    (2 * units - spacing (units - 1)) * den ≤ 2 * num ∧
      2 * num ≤ (2 * units + spacing units) * den ∧
      ((2 * units - spacing (units - 1)) * den = 2 * num ∨
        2 * num = (2 * units + spacing units) * den → units / spacing units % 2 = 0) := by
  unfold Shortest.rounds
  dsimp only
  split
  · rw [Bool.and_eq_true, decide_eq_true_eq, decide_eq_true_eq]
    omega
  · rw [Bool.and_eq_true, decide_eq_true_eq, decide_eq_true_eq]
    omega

/-- A quotient from a magnitude up to its next half has the spacing of the magnitude. -/
theorem spacing_above (hden : 0 < den) (hu : 0 < units) (hs : spacing units ∣ units)
    (hlow : units * den ≤ num) (hhigh : 2 * num ≤ 2 * (units * den) + spacing units * den) :
    spacing (num / den) = spacing units := by
  have hne : units ≠ 0 := by omega
  have hstep := spacing_pos units
  have hq : units ≤ num / den := (Nat.le_div_iff_mul_le hden).2 hlow
  have hlt : num / den < units + spacing units := by
    rw [Nat.div_lt_iff_lt_mul hden, Nat.add_mul]
    have := Nat.mul_pos hstep hden
    omega
  -- the next power of two is a whole number of steps away
  have hpower : spacing units ∣ twoTo (units.log2 + 1) := twoTo_dvd_twoTo (by omega)
  have hroom : units + spacing units ≤ twoTo (units.log2 + 1) := by
    have hself := lt_twoTo_log2_succ units
    have hle := Nat.le_of_dvd (by omega) (Nat.dvd_sub hpower hs)
    omega
  exact spacing_of_between (Nat.le_trans (twoTo_log2_le hne) hq) (Nat.lt_of_lt_of_le hlt hroom)

/-- A quotient from the last half up to a magnitude has the spacing below the magnitude. -/
theorem spacing_below (hden : 0 < den) (hs : spacing units ∣ units)
    (hlow : 2 * (units * den) ≤ 2 * num + spacing (units - 1) * den) (hhigh : num < units * den) :
    spacing (num / den) = spacing (units - 1) := by
  have hstep := spacing_pos (units - 1)
  have hlt : num / den < units := (Nat.div_lt_iff_lt_mul hden).2 hhigh
  have hq : 2 * units < 2 * (num / den) + 2 + spacing (units - 1) := by
    apply Nat.lt_of_mul_lt_mul_right (a := den)
    have hdiv := Nat.lt_mul_div_succ num hden
    rw [Nat.mul_comm den, Nat.succ_mul] at hdiv
    rw [Nat.add_mul, Nat.add_mul, Nat.mul_assoc, Nat.mul_assoc]
    omega
  by_cases hone : units - 1 = 0
  · rw [Nat.le_antisymm (Nat.le_sub_one_of_lt hlt) (by rw [hone]; exact Nat.zero_le _)]
  · have hbelow := twoTo_log2_le hone
    have hroom : twoTo (units - 1).log2 + spacing (units - 1) ≤ units := by
      have hpower : spacing (units - 1) ∣ twoTo (units - 1).log2 := twoTo_dvd_twoTo (by omega)
      have hdvd := Nat.dvd_trans (spacing_pred_dvd units) hs
      have hle := Nat.le_of_dvd (by omega) (Nat.dvd_sub hdvd hpower)
      omega
    refine spacing_of_between (by omega) ?_
    have hself := lt_twoTo_log2_succ (units - 1)
    omega

/-- **What lies in the rounding interval of a magnitude is rounded to it.** -/
theorem nearest_of_rounds (hden : 0 < den) (hu : 0 < units) (hs : spacing units ∣ units)
    (h : Shortest.rounds units num den = true) : nearest num den = units := by
  have hsub : (2 * units - spacing (units - 1)) * den + spacing (units - 1) * den =
      2 * (units * den) := by
    have hle := spacing_le (units - 1)
    rw [← Nat.add_mul, Nat.sub_add_cancel (by omega), Nat.mul_assoc]
  have hadd : (2 * units + spacing units) * den = 2 * (units * den) + spacing units * den := by
    rw [Nat.add_mul, Nat.mul_assoc]
  have hends : 2 * (units * den) ≤ 2 * num + spacing (units - 1) * den ∧
      2 * num ≤ 2 * (units * den) + spacing units * den ∧
      (2 * (units * den) = 2 * num + spacing (units - 1) * den ∨
        2 * num = 2 * (units * den) + spacing units * den → units / spacing units % 2 = 0) := by
    obtain ⟨hlow, hhigh, htie⟩ := rounds_iff.1 h
    rw [hadd] at hhigh htie
    exact ⟨by omega, hhigh, fun hend => htie (by omega)⟩
  obtain ⟨hlow, hhigh, htie⟩ := hends
  unfold nearest
  dsimp only
  rcases Nat.lt_or_ge num (units * den) with hlt | hge
  · -- below the magnitude the steps may be half as wide, and then it is an even number of them
    obtain ⟨j, hj⟩ := spacing_pred_dvd units
    have hwhole := Nat.div_mul_cancel hs
    rw [spacing_below hden hs hlow hlt]
    generalize units / spacing units = m at hwhole htie
    generalize spacing (units - 1) = step at hj hlow htie ⊢
    have hunits : m * j * step = units := by rw [← hwhole, hj, Nat.mul_assoc, Nat.mul_comm j]
    have hover : m * j * (den * step) = units * den := by
      rw [← hunits, Nat.mul_comm den, Nat.mul_assoc, Nat.mul_assoc, Nat.mul_assoc]
    have hpos : 0 < step := Nat.pos_of_ne_zero fun h0 => by
      rw [h0, Nat.mul_zero] at hunits
      omega
    rw [Nat.mul_comm step den] at hlow htie
    have hround : roundHalfEven num (den * step) = m * j := by
      refine roundHalfEven_eq (Nat.mul_pos hden hpos) ?_ ?_ fun h => ?_
      · rw [hover]
        exact hlow
      · rw [hover]
        omega
      · rw [hover] at h
        have heven := htie (Or.inl (by omega))
        rw [Nat.mul_mod, heven, Nat.zero_mul, Nat.zero_mod]
    rw [hround, hunits]
  · have hwhole := Nat.div_mul_cancel hs
    have hpos := spacing_pos units
    rw [spacing_above hden hu hs hge hhigh]
    generalize units / spacing units = m at hwhole htie
    generalize spacing units = step at hwhole hpos hhigh htie ⊢
    have hover : m * (den * step) = units * den := by
      rw [← hwhole, Nat.mul_comm den, Nat.mul_assoc]
    rw [Nat.mul_comm step den] at hhigh htie
    have hround : roundHalfEven num (den * step) = m := by
      refine roundHalfEven_eq (Nat.mul_pos hden hpos) ?_ ?_ fun h => ?_
      · rw [hover]
        omega
      · rw [hover]
        exact hhigh
      · rw [hover] at h
        exact htie (Or.inr (by omega))
    rw [hround, hwhole]

end Number

/-! ## Grids -/

namespace Shortest

/-- The step of a grid of decimals in units, over `gridDen`. -/
def gridStep (exponent : Int) : Nat := unitsPerOne * tenTo exponent.toNat

/-- The denominator of a grid's steps. -/
def gridDen (exponent : Int) : Nat := tenTo (-exponent).toNat

/-- Two steps of the grid fit between a magnitude and the one below it. -/
def Fine (units : Nat) (exponent : Int) : Prop :=
  2 * gridStep exponent ≤ spacing (units - 1) * gridDen exponent

theorem gridStep_pos (exponent : Int) : 0 < gridStep exponent :=
  Nat.mul_pos unitsPerOne_pos (tenTo_pos _)

theorem gridDen_pos (exponent : Int) : 0 < gridDen exponent := tenTo_pos _

/-- The steps of a grid are ten times those of the next finer one. -/
theorem gridStep_succ (exponent : Int) :
    gridStep (exponent + 1) * gridDen exponent = 10 * gridStep exponent * gridDen (exponent + 1) := by
  unfold gridStep gridDen
  rcases Int.lt_or_le exponent 0 with h | h
  · rw [show (exponent + 1).toNat = 0 by omega, show exponent.toNat = 0 by omega,
      show (-exponent).toNat = (-(exponent + 1)).toNat + 1 by omega, tenTo_add, tenTo_one]
    simp only [Nat.mul_comm, Nat.mul_left_comm, Nat.mul_assoc]
  · rw [show (exponent + 1).toNat = exponent.toNat + 1 by omega,
      show (-exponent).toNat = 0 by omega, show (-(exponent + 1)).toNat = 0 by omega, tenTo_add,
      tenTo_one]
    simp only [Nat.mul_comm, Nat.mul_left_comm, Nat.mul_assoc]

variable {tie : Halfway} {units : Nat} {exponent : Int}

/-- On a fine grid the last decimal that is not above a magnitude lies in its rounding interval. -/
theorem rounds_of_fine (hu : 0 < units) (h : Fine units exponent) :
    rounds units (units * gridDen exponent / gridStep exponent * gridStep exponent)
      (gridDen exponent) = true := by
  have hden := gridDen_pos exponent
  have hwide := Nat.mul_pos (spacing_pos units) hden
  have hnarrow : spacing (units - 1) * gridDen exponent ≤ units * gridDen exponent := by
    have hle := spacing_le (units - 1)
    exact Nat.mul_le_mul_right _ (by omega)
  obtain ⟨hle, hlt⟩ := div_mul_bounds (units * gridDen exponent) (gridStep_pos exponent)
  unfold Fine at h
  have hlow : (2 * units - spacing (units - 1)) * gridDen exponent <
      2 * (units * gridDen exponent / gridStep exponent * gridStep exponent) := by
    rw [Nat.sub_mul, Nat.mul_assoc]
    omega
  have hhigh : 2 * (units * gridDen exponent / gridStep exponent * gridStep exponent) <
      (2 * units + spacing units) * gridDen exponent := by
    rw [Nat.add_mul, Nat.mul_assoc]
    omega
  exact rounds_iff.2 ⟨Nat.le_of_lt hlow, Nat.le_of_lt hhigh, fun hend => by omega⟩

/-- A fine grid has a decimal. -/
theorem onGrid?_of_fine (hu : 0 < units) (h : Fine units exponent) :
    onGrid? tie units exponent ≠ none := by
  have hrounds := rounds_of_fine hu h
  unfold gridStep gridDen at hrounds
  unfold onGrid?
  dsimp only
  rw [hrounds]
  split
  · rename_i hfalse _
    cases hfalse
  · nofun
  · nofun
  · split
    · nofun
    · split
      · nofun
      · cases tie <;> nofun

/-- What is found on a grid lies in the rounding interval. -/
theorem rounds_of_onGrid? {digits : Nat} (h : onGrid? tie units exponent = some digits) :
    rounds units (digits * gridStep exponent) (gridDen exponent) = true := by
  unfold onGrid? at h
  unfold gridStep gridDen
  dsimp only at h
  split at h
  · cases h
  · rename_i hbelow _
    cases h
    exact hbelow
  · rename_i _ habove
    cases h
    exact habove
  · rename_i hbelow habove
    -- one of the two is taken
    have htaken : digits = units * tenTo (-exponent).toNat / (unitsPerOne * tenTo exponent.toNat) ∨
        digits = units * tenTo (-exponent).toNat / (unitsPerOne * tenTo exponent.toNat) + 1 := by
      split at h
      · cases h
        exact Or.inl rfl
      · split at h
        · cases h
          exact Or.inr rfl
        · cases tie with
          | larger =>
            cases h
            exact Or.inr rfl
          | even =>
            dsimp only at h
            split at h
            · cases h
              exact Or.inl rfl
            · cases h
              exact Or.inr rfl
    rcases htaken with rfl | rfl
    · exact hbelow
    · exact habove

/-- **The search stops at the first grid with a decimal**, if the grid above its first one is not fine
and its last one is. -/
theorem search_spec (hu : 0 < units) {fuel : Nat} (hcoarse : ¬Fine units (exponent + 1))
    (hfine : Fine units (exponent + 1 - fuel)) {d : Decimal}
    (hd : search tie units fuel exponent = d) :
    rounds units (d.digits * gridStep d.exponent) (gridDen d.exponent) = true ∧
      ¬Fine units (d.exponent + 1) ∧ exponent + 1 - fuel ≤ d.exponent ∧ d.exponent ≤ exponent := by
  induction fuel generalizing exponent with
  | zero => exact absurd (by simpa using hfine) hcoarse
  | succ fuel ih =>
    rw [search] at hd
    split at hd
    · rename_i digits hgrid
      subst hd
      exact ⟨rounds_of_onGrid? hgrid, hcoarse, by dsimp only; omega, Int.le_refl exponent⟩
    · rename_i hgrid
      have hnext : ¬Fine units (exponent - 1 + 1) := by
        rw [Int.sub_add_cancel]
        exact fun h => onGrid?_of_fine hu h hgrid
      have hlast : exponent - 1 + 1 - (fuel : Int) = exponent + 1 - ((fuel + 1 : Nat) : Int) := by
        omega
      obtain ⟨hrounds, hgreat, hlow, hhigh⟩ := ih hnext (by rw [hlast]; exact hfine) hd
      exact ⟨hrounds, hgreat, by omega, by omega⟩

/-! ## The shortest decimal -/

/-- The grid above the first one is not fine for a magnitude of so many bits, and the last one is. -/
theorem grids_reach : ∀ log < 2098,
    twoTo (log - 52) * gridDen (((log : Int) - 1074) * 30103 / 100000 + 1 + 1) <
      2 * gridStep (((log : Int) - 1074) * 30103 / 100000 + 1 + 1) ∧
    2 * gridStep (((log : Int) - 1074) * 30103 / 100000 + 1 - 23) ≤
      twoTo (log - 53) * gridDen (((log : Int) - 1074) * 30103 / 100000 + 1 - 23) := by
  decide +kernel

/-- The steps below a magnitude are at least half as wide as its bits say. -/
theorem spacing_pred_bounds (hu : 0 < units) :
    twoTo (units.log2 - 53) ≤ spacing (units - 1) ∧ spacing (units - 1) ≤ twoTo (units.log2 - 52) := by
  have hmono := log2_mono (Nat.sub_le units 1)
  have hlog : units.log2 ≤ (units - 1).log2 + 1 := by
    by_cases hone : units.log2 = 0
    · omega
    · have hself := twoTo_log2_le (Nat.pos_iff_ne_zero.1 hu)
      have hhalf : twoTo units.log2 = twoTo (units.log2 - 1) + twoTo (units.log2 - 1) := by
        rw [← twoTo_succ, Nat.sub_add_cancel (by omega)]
      have hpos := twoTo_pos (units.log2 - 1)
      have hle : twoTo (units.log2 - 1) ≤ units - 1 := by omega
      have := log2_mono hle
      rw [log2_twoTo] at this
      omega
  exact ⟨twoTo_le_twoTo (by omega), twoTo_le_twoTo (by omega)⟩

/-- **The shortest decimal lies in the rounding interval**, and the grid above its own is not fine. -/
theorem digits_spec (tie : Halfway) (hu : 0 < units) (hlimit : units < unitsLimit) :
    rounds units ((digits tie units).digits * gridStep (digits tie units).exponent)
        (gridDen (digits tie units).exponent) = true ∧
      ¬Fine units ((digits tie units).exponent + 1) ∧
      -346 ≤ (digits tie units).exponent ∧ (digits tie units).exponent ≤ 308 := by
  have hlog : units.log2 < 2098 := by
    rw [unitsLimit] at hlimit
    exact (log2_lt_iff (Nat.pos_iff_ne_zero.1 hu)).2 hlimit
  obtain ⟨hcoarse, hfine⟩ := grids_reach units.log2 hlog
  obtain ⟨hlow, hhigh⟩ := spacing_pred_bounds hu
  have htop : topExponent units = ((units.log2 : Int) - 1074) * 30103 / 100000 + 1 := rfl
  rw [← htop] at hcoarse hfine
  have hfirst : ¬Fine units (topExponent units + 1) := by
    have hle := Nat.mul_le_mul_right (gridDen (topExponent units + 1)) hhigh
    unfold Fine
    omega
  have hlast : Fine units (topExponent units + 1 - (24 : Nat)) := by
    have hle := Nat.mul_le_mul_right (gridDen (topExponent units - 23)) hlow
    rw [show topExponent units + 1 - (24 : Nat) = topExponent units - 23 by omega]
    unfold Fine
    omega
  obtain ⟨hrounds, hgreat, hfrom, hto⟩ := search_spec hu hfirst hlast (rfl : _ = digits tie units)
  exact ⟨hrounds, hgreat, by omega, by omega⟩

/-- The shortest decimal of a magnitude is not zero. -/
theorem digits_ne_zero (tie : Halfway) (hu : 0 < units) (hlimit : units < unitsLimit) :
    (digits tie units).digits ≠ 0 := by
  intro hzero
  have hrounds := (digits_spec tie hu hlimit).1
  have hnarrow := spacing_le (units - 1)
  have hlow : 0 < (2 * units - spacing (units - 1)) * gridDen (digits tie units).exponent :=
    Nat.mul_pos (by omega) (gridDen_pos _)
  rw [hzero, Nat.zero_mul] at hrounds
  have hle := (rounds_iff.1 hrounds).1
  omega

/-- **The digits of the shortest decimal fit 64 bits**: were there more of them, the grid above would
be fine. -/
theorem digits_lt (tie : Halfway) (hu : 0 < units) (hlimit : units < unitsLimit) :
    (digits tie units).digits < wordCount := by
  obtain ⟨hrounds, hcoarse, _⟩ := digits_spec tie hu hlimit
  have hle := (rounds_iff.1 hrounds).2.1
  generalize (digits tie units).digits = n at hle ⊢
  generalize (digits tie units).exponent = e at hle hcoarse
  -- the steps of the grid are more than a twentieth of those below the magnitude
  have hstep : spacing (units - 1) * gridDen e < 20 * gridStep e := by
    apply Nat.lt_of_mul_lt_mul_right (a := gridDen (e + 1))
    have hover := Nat.mul_lt_mul_of_pos_right (Nat.lt_of_not_le hcoarse) (gridDen_pos e)
    have hgrids := gridStep_succ e
    rw [Nat.mul_assoc] at hgrids
    rw [Nat.mul_right_comm, Nat.mul_assoc 2, hgrids] at hover
    rw [Nat.mul_assoc 20]
    omega
  -- and the magnitude has at most 53 bits
  have hwide : 2 * units + spacing units ≤ (twoTo 55 + 2) * spacing (units - 1) := by
    have hbits := (Nat.div_lt_iff_lt_mul (spacing_pos units)).1 (div_spacing_lt units)
    have htwice : spacing units ≤ 2 * spacing (units - 1) := by
      have hlow := (spacing_pred_bounds hu).1
      have hdouble : spacing units ≤ twoTo (units.log2 - 53 + 1) := twoTo_le_twoTo (by omega)
      rw [twoTo_succ] at hdouble
      omega
    have hbound := Nat.mul_le_mul_left (twoTo 53) htwice
    have hpower : twoTo 54 = twoTo 53 + twoTo 53 := twoTo_succ 53
    have hnext : twoTo 55 = twoTo 54 + twoTo 54 := twoTo_succ 54
    rw [hnext, hpower, Nat.add_mul, Nat.add_mul, Nat.add_mul]
    rw [Nat.mul_left_comm] at hbound
    omega
  have hscaled : n * gridStep e < 10 * (twoTo 55 + 2) * gridStep e := by
    have hdens := Nat.mul_le_mul_right (gridDen e) hwide
    have hsteps := Nat.mul_lt_mul_of_pos_left hstep (show 0 < twoTo 55 + 2 by omega)
    rw [Nat.mul_assoc] at hdens
    rw [Nat.mul_left_comm _ 20] at hsteps
    rw [Nat.mul_assoc 10]
    omega
  have hlt := Nat.lt_of_mul_lt_mul_right hscaled
  have hwords : 10 * (twoTo 55 + 2) < wordCount := by decide +kernel
  omega

end Shortest

end MaterialInspection
