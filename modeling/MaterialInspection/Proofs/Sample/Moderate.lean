import MaterialInspection.Proofs.Sample.Grid

/-!
# Grids of moderate ranges

Between -200000 and 200000 a double is precise enough for ten decimals.  The steps of every grid are
whole numbers well below `2 ^ 52`, so a grid point is read back as the double it was written from,
and the errors of scaling a bound are small against the tolerance.

* `textRank_gridPlace` — a grid point reads back to itself.
* `gridExtent_moderate` — the samples of a moderate range read back to numbers that miss the range by
  no more than the tolerance.
-/

set_option autoImplicit false

namespace MaterialInspection

open Number

seal unitsPerOne unitsLimit twoTo tenTo

namespace Sample

open Binary64

variable {lo hi : Binary64} {l h : Int}

/-! ## Grid points read back -/

/-- The number of units in `2 ^ -53`. -/
def fine : Nat := twoTo 1021

theorem fine_pos : 0 < fine := twoTo_pos 1021

theorem unitsPerOne_eq_mul : unitsPerOne = twoTo 53 * fine := by
  rw [unitsPerOne_eq, twoTo_add, fine]

theorem unitsPerOne_eq_fine : unitsPerOne = 9007199254740992 * fine := by
  rw [unitsPerOne_eq_mul, twoTo_53]

/-- Everything here stays far below the overflow bound. -/
theorem fine_limit {k : Nat} (h : k ≤ twoTo 53) : k * fine * twoTo 53 ≤ unitsLimit := by
  have hle := Nat.mul_le_mul_right (fine * twoTo 53) h
  have hpow : twoTo 53 * (fine * twoTo 53) = twoTo 1127 := by
    rw [fine, ← twoTo_add, ← twoTo_add]
  rw [hpow, ← Nat.mul_assoc] at hle
  exact Nat.le_trans hle (Nat.le_of_lt twoTo_lt_unitsLimit)

theorem tenTo_bounds {places : Nat} (h : places ≤ maxPlaces) :
    0 < tenTo places ∧ tenTo places ≤ 10000000000 := by
  have hten : tenTo 10 = 10000000000 := by rw [tenTo]
  exact ⟨tenTo_pos places, hten ▸ tenTo_le_tenTo h⟩

/-- The double nearest to a whole number of steps rounds to these steps again. -/
theorem scaledUnits_nearest {places k : Nat} (hp : places ≤ maxPlaces) (hk : k ≤ 3000000000000000) :
    scaledUnits places (min (nearest (k * unitsPerOne) (tenTo places)) unitsLimit) = k := by
  obtain ⟨hten, hmax⟩ := tenTo_bounds hp
  have hfine := fine_pos
  have hone := unitsPerOne_eq_fine
  have hlimit : unitsPerOne ≤ unitsLimit := Nat.le_of_lt holds_unitsPerOne.below
  generalize hs : tenTo places = s at hten hmax ⊢
  -- the quotient is below `c * 2 ^ 53`, and `c` parts of the divisor are less than half a unit
  generalize hc : k * fine / s + 1 = c
  have hclow : k * fine ≤ c * s := by
    have := Nat.div_add_mod (k * fine) s
    have := Nat.mod_lt (k * fine) hten
    rw [← hc, Nat.add_mul, Nat.one_mul, Nat.mul_comm _ s]
    omega
  have hchigh : c * s ≤ k * fine + s := by
    have := Nat.div_mul_le_self (k * fine) s
    rw [← hc, Nat.add_mul, Nat.one_mul]
    omega
  have hkfine : k * fine ≤ 3000000000000000 * fine := Nat.mul_le_mul_right _ hk
  have hnum : k * unitsPerOne ≤ c * twoTo 53 * s := by
    rw [hone, twoTo_53, Nat.mul_left_comm, Nat.mul_right_comm, Nat.mul_comm (c * s)]
    exact Nat.mul_le_mul_left _ hclow
  have hclose := nearest_close hten (hc ▸ Nat.succ_pos _) hnum
  have hbelow := (holds_mul_unitsPerOne (n := k) (by rw [twoTo_53]; omega)).below
  have hnle : nearest (k * unitsPerOne) s ≤ unitsLimit :=
    nearest_le_limit hten (Nat.le_trans (Nat.le_of_lt hbelow) (Nat.le_mul_of_pos_right _ hten))
  rw [Nat.min_eq_left hnle, scaledUnits, hs]
  obtain ⟨hrlow, hrhigh⟩ :=
    roundHalfEven_error (nearest (k * unitsPerOne) s * s) unitsPerOne_pos
  generalize nearest (k * unitsPerOne) s * s = n at hclose hrlow hrhigh ⊢
  generalize roundHalfEven n unitsPerOne = r at hrlow hrhigh ⊢
  have hlt : r * unitsPerOne < (k + 1) * unitsPerOne := by
    rw [Nat.add_mul, Nat.one_mul]
    omega
  have hgt : k * unitsPerOne < (r + 1) * unitsPerOne := by
    rw [Nat.add_mul, Nat.one_mul]
    omega
  have hr := Nat.lt_of_mul_lt_mul_right hlt
  have hk := Nat.lt_of_mul_lt_mul_right hgt
  omega

theorem gridPlace_whole (places : Nat) (n : Int) :
    gridPlace places (n * unitsPerOne) = place (n * unitsPerOne) (tenTo places) := by
  refine place_congr (Nat.mul_pos (tenTo_pos places) unitsPerOne_pos) (tenTo_pos places) ?_
  rw [Int.natCast_mul, Int.mul_assoc, Int.mul_comm unitsPerOne]

/-- **A grid point reads back to itself.** -/
theorem textRank_gridPlace {places : Nat} (hp : places ≤ maxPlaces) {n : Int}
    (hn : n.natAbs ≤ 3000000000000000) :
    textRank places (gridPlace places (n * unitsPerOne)) = gridPlace places (n * unitsPerOne) := by
  have hscaled : scaledRank places (place (n * unitsPerOne) (tenTo places)) = n := by
    rw [← signed_natAbs n, signed_mul_natCast, place_signed, scaledRank_signed,
      scaledUnits_nearest hp hn]
  rw [gridPlace_whole, textRank, hscaled]

/-! ## Steps of moderate bounds -/

theorem holds_mul_fine {k : Nat} (h : k ≤ twoTo 53) : Holds (k * fine) := by
  have hle := Nat.mul_le_mul_right fine h
  have hone := holds_unitsPerOne.below
  rw [unitsPerOne_eq, twoTo_add] at hone
  exact ⟨Nat.lt_of_le_of_lt hle hone, spacing_dvd_mul h⟩

/-- The tolerance is not far below `1e-9`. -/
theorem le_toleranceRank : ((8388608 * fine : Nat) : Int) ≤ toleranceRank := by
  have hheld : place ((8388608 * fine : Nat) : Int) 1 = ((8388608 * fine : Nat) : Int) :=
    place_of_holds (holds_mul_fine (by rw [twoTo_53]; decide))
  have hten : tenTo 9 = 1000000000 := by rw [tenTo]
  have hm := place_mono (x := (8388608 * fine : Nat)) (y := unitsPerOne) (b := 1) (by decide)
    (tenTo_pos 9) (by
      rw [unitsPerOne_eq_fine, hten, Int.natCast_one, Int.mul_one]
      omega)
  rwa [hheld] at hm

/-- A bound in steps. -/
theorem place_scaled (places : Nat) (r : Int) :
    place (r * (tenTo places * unitsPerOne : Nat)) unitsPerOne = place (r * tenTo places) 1 := by
  refine place_congr unitsPerOne_pos (by decide) ?_
  rw [Int.natCast_one, Int.mul_one, Int.natCast_mul, Int.mul_assoc]

/-- Bounds that ten decimals leave below `2 ^ 52` steps. -/
def ModerateRank (r : Int) : Prop := r.natAbs ≤ 200000 * unitsPerOne

theorem ModerateRank.neg {r : Int} (hr : ModerateRank r) : ModerateRank (-r) := by
  unfold ModerateRank at hr ⊢
  omega

theorem ModerateRank.scaled {r : Int} (hr : ModerateRank r) (places : Nat) :
    (r * tenTo places).natAbs ≤ 200000 * tenTo places * unitsPerOne := by
  rw [Int.natAbs_mul, Int.natAbs_natCast, Nat.mul_right_comm]
  exact Nat.mul_le_mul_right _ hr

/-- The place of a bound in steps, moved by a tolerance. -/
def movedSteps (places : Nat) (r t : Int) : Int := place (place (r * tenTo places) 1 + t) 1

theorem movedSteps_neg (places : Nat) (r t : Int) :
    movedSteps places (-r) (-t) = -movedSteps places r t := by
  rw [movedSteps, movedSteps, Int.neg_mul, place_neg, ← Int.neg_add, place_neg]

theorem at_moved {x y : Binary64} {r t : Int} (hx : At x r) (hr : ModerateRank r) (hy : At y t)
    (ht : t.natAbs ≤ unitsPerOne) {places : Nat} (hp : places ≤ maxPlaces) :
    At (x * gridScale places + y) (movedSteps places r t) ∧
      (movedSteps places r t).natAbs ≤ (200000 * tenTo places + 1) * unitsPerOne := by
  have hten := tenTo_bounds hp
  have hscaled := hr.scaled places
  have hbound := place_within (k := 200000 * tenTo places) (by rw [twoTo_53]; omega) hscaled
  have hmoved : (place (r * tenTo places) 1 + t).natAbs ≤
      (200000 * tenTo places + 1) * unitsPerOne := by
    rw [Nat.add_mul, Nat.one_mul]
    omega
  have hrank := rank_mul hx (at_gridScale hp)
  rw [place_scaled] at hrank
  have hproduct := at_within (by rw [twoTo_53]; omega) hrank hscaled
  exact ⟨at_within (by rw [twoTo_53]; omega) (rank_add hproduct hy) hmoved,
    place_within (by rw [twoTo_53]; omega) hmoved⟩

/-- Whole numbers within one of a moved bound are not many. -/
theorem steps_within {n d : Int} {places : Nat} (hp : places ≤ maxPlaces)
    (hd : d.natAbs ≤ (200000 * tenTo places + 1) * unitsPerOne)
    (hlow : d - unitsPerOne ≤ n * unitsPerOne) (hhigh : n * unitsPerOne ≤ d + unitsPerOne) :
    n.natAbs ≤ 3000000000000000 := by
  have hten := tenTo_bounds hp
  have hsteps : n.natAbs ≤ 200000 * tenTo places + 2 := by
    apply Nat.le_of_mul_le_mul_right _ unitsPerOne_pos
    rw [← Int.natAbs_natCast unitsPerOne, ← Int.natAbs_mul, Int.natAbs_natCast]
    rw [Nat.add_mul] at hd ⊢
    omega
  omega

theorem firstStep_moderate (hlo : At lo l) (hl : ModerateRank l) {places : Nat}
    (hp : places ≤ maxPlaces) :
    ∃ n : Int, At (firstStep places lo) (n * unitsPerOne) ∧
      movedSteps places l (-toleranceRank) ≤ n * unitsPerOne ∧ n.natAbs ≤ 3000000000000000 := by
  have htol := toleranceRank_bounds
  obtain ⟨hat, hwithin⟩ := at_moved hlo hl (at_neg at_tolerance) (by omega) hp
  obtain ⟨n, hn, _, hlow, hhigh⟩ := ceil_spec hat
  exact ⟨n, hn, hlow, steps_within hp hwithin (by omega) (by omega)⟩

theorem lastStep_moderate (hhi : At hi h) (hh : ModerateRank h) {places : Nat}
    (hp : places ≤ maxPlaces) :
    ∃ n : Int, At (lastStep places hi) (n * unitsPerOne) ∧
      n * unitsPerOne ≤ movedSteps places h toleranceRank ∧ n.natAbs ≤ 3000000000000000 := by
  have htol := toleranceRank_bounds
  obtain ⟨hat, hwithin⟩ := at_moved hhi hh at_tolerance (by omega) hp
  obtain ⟨n, hn, _, hlow, hhigh⟩ := floor_spec hat
  exact ⟨n, hn, hlow, steps_within hp hwithin (by omega) (by omega)⟩

/-- Scaling a bound loses less than the scaled tolerance exceeds the tolerance by. -/
theorem le_movedSteps (hl : ModerateRank l) {places : Nat} (hp : places + 1 ≤ maxPlaces) :
    (l - toleranceRank) * tenTo (places + 1) ≤ movedSteps (places + 1) l (-toleranceRank) := by
  obtain ⟨_, hmax⟩ := tenTo_bounds hp
  have hten : 10 ≤ tenTo (places + 1) := by
    have := tenTo_pos places
    rw [tenTo_add, tenTo_one]
    omega
  have hfine := fine_pos
  have htol := toleranceRank_bounds
  have htolfine := le_toleranceRank
  have hscaled := hl.scaled (places + 1)
  have hlimit := fine_limit (k := 200001 * tenTo (places + 1) + 1) (by rw [twoTo_53]; omega)
  have hslack := Int.mul_le_mul_of_nonneg_right htolfine
    (show (0 : Int) ≤ (tenTo (places + 1) : Int) - 1 by omega)
  rw [movedSteps, Int.sub_mul]
  generalize tenTo (places + 1) = s at *
  rw [Int.mul_sub, Int.mul_sub, ← Int.natCast_mul, Nat.mul_assoc, Nat.mul_comm fine] at hslack
  -- everything is counted in `fine` units, in `s` times as many, and in both times `2 ^ 53`
  have hsf : 10 * fine ≤ s * fine := Nat.mul_le_mul_right fine hten
  have hunits : 200000 * s * unitsPerOne = 200000 * (s * fine * twoTo 53) := by
    rw [unitsPerOne_eq_mul, Nat.mul_comm (twoTo 53), ← Nat.mul_assoc, Nat.mul_assoc 200000 s,
      Nat.mul_assoc 200000]
  have hlimits : (200001 * s + 1) * fine * twoTo 53 = 200001 * (s * fine * twoTo 53) + unitsPerOne := by
    rw [unitsPerOne_eq_mul, Nat.add_mul, Nat.add_mul, Nat.one_mul, Nat.mul_assoc 200001 s,
      Nat.mul_assoc 200001, Nat.mul_comm fine]
  have hwide : 200001 * (s * fine) ≤ s * fine * twoTo 53 := by
    rw [Nat.mul_comm]
    exact Nat.mul_le_mul_left _ (by rw [twoTo_53]; decide)
  rw [hunits] at hscaled
  rw [hlimits] at hlimit
  have hfirst : 200000 * (s * fine) * twoTo 53 = 200000 * (s * fine * twoTo 53) := Nat.mul_assoc _ _ _
  have hsecond : (200001 * (s * fine) + fine) * twoTo 53 =
      200001 * (s * fine * twoTo 53) + unitsPerOne := by
    rw [unitsPerOne_eq_mul, Nat.add_mul, Nat.mul_assoc, Nat.mul_comm fine]
  generalize s * fine * twoTo 53 = g at *
  generalize s * fine = sf at *
  have hx := @place_close (l * s) 1 (200000 * sf) (by decide) (by omega)
    (by omega) (by omega)
  generalize place (l * s) 1 = x at *
  have hy := @place_close (x + -toleranceRank) 1 (200001 * sf + fine) (by decide)
    (by omega) (by omega) (by omega)
  omega

theorem gridPlace_neg (places : Nat) (r : Int) : gridPlace places (-r) = -gridPlace places r := by
  rw [gridPlace, gridPlace, Int.neg_mul, place_neg]

/-- Steps that are not below a bound make a grid point that misses it by no more than the tolerance. -/
theorem le_gridPlace (hplace : place l 1 = l) (hl : ModerateRank l) {places : Nat}
    (hp : places ≤ maxPlaces) {n : Int} (hn : place (n * unitsPerOne) 1 = n * unitsPerOne)
    (hle : movedSteps places l (-toleranceRank) ≤ n * unitsPerOne) :
    place (l - toleranceRank) 1 ≤ gridPlace places (n * unitsPerOne) := by
  rw [gridPlace_whole]
  cases places with
  | zero =>
    rw [movedSteps, tenTo_zero, Int.natCast_one, Int.mul_one, hplace] at hle
    rw [tenTo_zero, hn]
    exact hle
  | succ places =>
    refine place_mono (by decide) (tenTo_pos _) ?_
    rw [Int.natCast_one, Int.mul_one]
    exact Int.le_trans (le_movedSteps hl hp) hle

theorem gridPlace_le (hplace : place h 1 = h) (hh : ModerateRank h) {places : Nat}
    (hp : places ≤ maxPlaces) {n : Int} (hn : place (n * unitsPerOne) 1 = n * unitsPerOne)
    (hle : n * unitsPerOne ≤ movedSteps places h toleranceRank) :
    gridPlace places (n * unitsPerOne) ≤ place (h + toleranceRank) 1 := by
  have hmoved := movedSteps_neg places h toleranceRank
  have hneg := le_gridPlace (l := -h) (n := -n) (by rw [place_neg, hplace]) hh.neg hp
    (by rw [Int.neg_mul, place_neg, hn]) (by rw [Int.neg_mul]; omega)
  rw [Int.neg_mul, gridPlace_neg, show -h - toleranceRank = -(h + toleranceRank) by omega,
    place_neg] at hneg
  omega

/-! ## Ranges without a grid point -/

theorem signed_roundHalfEven_close (r : Int) (ten : Nat) {den : Nat} (hden : 0 < den) :
    2 * (signed (decide (r < 0)) (roundHalfEven (r.natAbs * ten) den) * den) ≤ 2 * (r * ten) + den ∧
      2 * (r * ten) ≤ 2 * (signed (decide (r < 0)) (roundHalfEven (r.natAbs * ten) den) * den) + den := by
  obtain ⟨hlow, hhigh⟩ := roundHalfEven_error (r.natAbs * ten) hden
  have hproduct : r * ten = signed (decide (r < 0)) (r.natAbs * ten) := by
    rw [← signed_mul_natCast, signed_natAbs]
  rw [hproduct, signed_mul_natCast]
  generalize roundHalfEven (r.natAbs * ten) den * den = n at *
  generalize r.natAbs * ten = m at *
  cases decide (r < 0) with
  | false =>
    have hm : signed false m = m := rfl
    have hn : signed false n = n := rfl
    omega
  | true =>
    have hm : signed true m = -(m : Int) := rfl
    have hn : signed true n = -(n : Int) := rfl
    omega

theorem scaledRank_close (places : Nat) (r : Int) :
    2 * (scaledRank places r * unitsPerOne) ≤ 2 * (r * tenTo places) + unitsPerOne ∧
      2 * (r * tenTo places) ≤ 2 * (scaledRank places r * unitsPerOne) + unitsPerOne := by
  rw [scaledRank, scaledUnits]
  exact signed_roundHalfEven_close r (tenTo places) unitsPerOne_pos

theorem textRank_neg (places : Nat) (r : Int) : textRank places (-r) = -textRank places r := by
  have hneg : scaledRank places (-r) = -scaledRank places r := by
    rw [← signed_natAbs r, scaledRank_signed]
    generalize decide (r < 0) = s
    cases s with
    | false => exact scaledRank_signed places true r.natAbs
    | true =>
      have hpos := scaledRank_signed places false r.natAbs
      have hback : -signed true r.natAbs = signed false r.natAbs := Int.neg_neg _
      rw [hback, hpos]
      exact (Int.neg_neg _).symm
  rw [textRank, textRank, hneg, Int.neg_mul, place_neg]

/-- With all decimals the text of a number misses it by less than the tolerance. -/
theorem le_textRank (r : Int) : place (r - toleranceRank) 1 ≤ textRank maxPlaces r := by
  have hclose := (scaledRank_close maxPlaces r).2
  have htol := le_toleranceRank
  have hone := unitsPerOne_eq_fine
  have hten : tenTo maxPlaces = 10000000000 := by rw [tenTo, maxPlaces]
  refine place_mono (by decide) (tenTo_pos _) ?_
  rw [Int.natCast_one, Int.mul_one, Int.sub_mul]
  rw [hten] at hclose ⊢
  omega

theorem textRank_le (r : Int) : textRank maxPlaces r ≤ place (r + toleranceRank) 1 := by
  have hneg := le_textRank (-r)
  rw [textRank_neg, show -r - toleranceRank = -(r + toleranceRank) by omega, place_neg] at hneg
  omega

/-! ## Extents -/

theorem lt_stepLimit {x : Binary64} {n : Int} (hx : At x (n * unitsPerOne))
    (hn : n.natAbs ≤ 3000000000000000) : ¬stepLimit ≤ x.abs := by
  have hlt : n.natAbs < twoTo 63 :=
    Nat.lt_of_lt_of_le (by rw [twoTo_53]; omega) (twoTo_le_twoTo (show 53 ≤ 63 by decide))
  have hunits := Nat.mul_lt_mul_of_pos_right hlt unitsPerOne_pos
  rw [le_iff at_stepLimit.rank (rank_abs hx.rank), Int.natAbs_mul, Int.natAbs_natCast]
  omega

/-- The steps of a moderate range can be drawn, and its first and last grid point read back to
themselves, missing the range by no more than the tolerance. -/
theorem steps_moderate (hlo : At lo l) (hhi : At hi h) (hl : ModerateRank l) (hh : ModerateRank h)
    {places : Nat} (hp : places ≤ maxPlaces) :
    ¬Coarse lo hi places ∧ ∃ a b, At (firstStep places lo / gridScale places) a ∧
      At (lastStep places hi / gridScale places) b ∧
      place (l - toleranceRank) 1 ≤ textRank places a ∧
      textRank places b ≤ place (h + toleranceRank) 1 := by
  obtain ⟨n, hn, hnl, hnm⟩ := firstStep_moderate hlo hl hp
  obtain ⟨m, hm, hmh, hmm⟩ := lastStep_moderate hhi hh hp
  refine ⟨?_, _, _, at_gridPoint hn hp, at_gridPoint hm hp, ?_, ?_⟩
  · rintro (hcoarse | hcoarse)
    · exact lt_stepLimit hn hnm hcoarse
    · exact lt_stepLimit hm hmm hcoarse
  · rw [textRank_gridPlace hp hnm]
    exact le_gridPlace hlo.place_eq hl hp hn.place_eq hnl
  · rw [textRank_gridPlace hp hmm]
    exact gridPlace_le hhi.place_eq hh hp hm.place_eq hmh

/-- **The samples of a moderate range read back to numbers that miss it by no more than the
tolerance.** -/
theorem gridExtent_moderate (hlo : At lo l) (hhi : At hi h) (hle : l ≤ h) (hl : ModerateRank l)
    (hh : ModerateRank h) {finer places : Nat} (hp : places + finer = maxPlaces) :
    ∃ a b, At (gridExtent lo hi finer places).least a ∧
      At (gridExtent lo hi finer places).greatest b ∧
      place (l - toleranceRank) 1 ≤ textRank (gridExtent lo hi finer places).places a ∧
      textRank (gridExtent lo hi finer places).places b ≤ place (h + toleranceRank) 1 := by
  induction finer generalizing places with
  | zero =>
    obtain ⟨hfine, hsteps⟩ := steps_moderate hlo hhi hl hh (show places ≤ maxPlaces by omega)
    rw [gridExtent_eq, if_neg hfine]
    split
    · exact hsteps
    · rw [show places = maxPlaces by omega]
      exact ⟨l, l, hlo, hlo, le_textRank l,
        Int.le_trans (textRank_le l) (place_le_place (by decide) (by omega))⟩
  | succ finer ih =>
    obtain ⟨hfine, hsteps⟩ := steps_moderate hlo hhi hl hh (show places ≤ maxPlaces by omega)
    rw [gridExtent_eq, if_neg hfine]
    split
    · exact hsteps
    · exact ih (show places + 1 + finer = maxPlaces by omega)

end Sample

end MaterialInspection
