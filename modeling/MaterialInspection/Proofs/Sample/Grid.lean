import MaterialInspection.Proofs.Number.Fixed
import MaterialInspection.Proofs.Sample.Uniform

/-!
# Samples on a grid

`gridText` takes one of three ways: steps of the grid, a finer grid, or, where the steps are too
large to be drawn, any number in the range.  On each of them the samples have one number of decimals
and lie between two that are drawn for some words, which `gridExtent` computes without drawing.

* `drawStep_spans` — drawn steps are the whole numbers from the first to the last.
* `gridText_written` — a grid draw writes numbers from its extent, and both ends of it.
-/

set_option autoImplicit false

namespace MaterialInspection

open Number

seal unitsPerOne unitsLimit twoTo tenTo

namespace Sample

open Binary64

variable {lo hi : Binary64} {l h : Int}

/-! ## Steps -/

theorem at_gridScale {places : Nat} (h : places ≤ maxPlaces) :
    At (gridScale places) ((tenTo places * unitsPerOne : Nat) : Int) := by
  have hle : tenTo places ≤ tenTo 10 := tenTo_le_tenTo h
  have hten : tenTo 10 ≤ twoTo 53 := by
    rw [twoTo_53, tenTo]
    decide
  rw [Int.natCast_mul]
  exact at_ofInt (n := (tenTo places : Int)) (by rw [Int.natAbs_natCast]; omega)

/-- The place of the double nearest to `1e-9`. -/
def toleranceRank : Int := place unitsPerOne (tenTo 9)

theorem toleranceRank_eq : toleranceRank = place ((1 * unitsPerOne : Nat) : Int) (tenTo 9) := by
  rw [toleranceRank, Nat.one_mul]

theorem toleranceRank_bounds : 0 ≤ toleranceRank ∧ toleranceRank ≤ unitsPerOne := by
  have hhigh := place_decimal_le (n := 1) (k := 1) (twoTo_pos 53)
    (Nat.le_mul_of_pos_right 1 (tenTo_pos 9))
  rw [← toleranceRank_eq, Nat.one_mul] at hhigh
  exact ⟨place_nonneg (Int.natCast_nonneg _) _, hhigh⟩

theorem at_tolerance : At 1e-9 toleranceRank := by
  rw [toleranceRank_eq]
  exact at_ofDecimal (twoTo_pos 53) 9

/-- A bound in steps, moved by a tolerance, is a number, and finite only where the bound is. -/
theorem ranked_moved {x y : Binary64} {r t : Int} (hx : x.rank = some r) (hy : At y t) {places : Nat}
    (hp : places ≤ maxPlaces) :
    ∃ d, (x * gridScale places + y).rank = some d ∧
      ((x * gridScale places + y).isFinite = true → x.isFinite = true) := by
  have hpos : (0 : Int) < (tenTo places * unitsPerOne : Nat) :=
    Int.ofNat_lt.2 (Nat.mul_pos (tenTo_pos places) unitsPerOne_pos)
  obtain ⟨q, hq, hqf⟩ := ranked_mul hx (at_gridScale hp) hpos
  obtain ⟨d, hd, hdf⟩ := ranked_add hq hy
  exact ⟨d, hd, fun hf => hqf (hdf hf)⟩

/-- A step is a number, and where it is finite it is whole and its bound is finite. -/
structure IsStep (step bound : Binary64) (r : Int) : Prop where
  rank : step.rank = some r
  finite : step.isFinite = true → bound.isFinite = true
  whole : step.isFinite = true → ∃ n : Int, r = n * unitsPerOne ∧ step.wholePart? = some n

theorem firstStep_spec (hlo : lo.rank = some l) {places : Nat} (hp : places ≤ maxPlaces) :
    ∃ r, IsStep (firstStep places lo) lo r := by
  obtain ⟨d, hd, hdf⟩ := ranked_moved hlo (at_neg at_tolerance) hp
  rcases ceil_cases hd with ⟨hf, n, hn, hwhole, _⟩ | ⟨hf, heq⟩
  · exact ⟨_, hn.rank, fun _ => hdf hf, fun _ => ⟨n, rfl, hwhole⟩⟩
  · have hstep : firstStep places lo = lo * gridScale places + -1e-9 := heq
    have hnot : ¬(firstStep places lo).isFinite = true := by
      rw [hstep, hf]
      exact Bool.false_ne_true
    rw [← hstep] at hd
    exact ⟨d, hd, fun h => absurd h hnot, fun h => absurd h hnot⟩

theorem lastStep_spec (hhi : hi.rank = some h) {places : Nat} (hp : places ≤ maxPlaces) :
    ∃ r, IsStep (lastStep places hi) hi r := by
  obtain ⟨d, hd, hdf⟩ := ranked_moved hhi at_tolerance hp
  rcases floor_cases hd with ⟨hf, n, hn, hwhole, _⟩ | ⟨hf, heq⟩
  · exact ⟨_, hn.rank, fun _ => hdf hf, fun _ => ⟨n, rfl, hwhole⟩⟩
  · have hstep : lastStep places hi = hi * gridScale places + 1e-9 := heq
    have hnot : ¬(lastStep places hi).isFinite = true := by
      rw [hstep, hf]
      exact Bool.false_ne_true
    rw [← hstep] at hd
    exact ⟨d, hd, fun h => absurd h hnot, fun h => absurd h hnot⟩

/-! ## Steps that can be drawn -/

theorem at_stepLimit : At stepLimit ((twoTo 63 * unitsPerOne : Nat) : Int) := by
  have hpow : twoTo 63 * unitsPerOne = 1 * twoTo (63 + 1074) := by
    rw [Nat.one_mul, twoTo_add, unitsPerOne]
  refine at_ofUnits (n := (twoTo 63 : Int) * unitsPerOne) ?_
  rw [← Int.natCast_mul, Int.natAbs_natCast, hpow]
  refine ⟨?_, spacing_dvd_mul (twoTo_pos 53)⟩
  rw [Nat.one_mul, unitsLimit]
  exact twoTo_lt_twoTo (by decide)

/-- Below the limit steps are finite. -/
theorem at_of_lt_stepLimit {x : Binary64} {r : Int} (hx : x.rank = some r)
    (h : ¬stepLimit ≤ x.abs) : At x r ∧ r.natAbs < twoTo 63 * unitsPerOne := by
  have hbelow := at_stepLimit.holds.below
  rw [le_iff at_stepLimit.rank (rank_abs hx)] at h
  have hlt : r.natAbs < twoTo 63 * unitsPerOne := by omega
  rw [Int.natAbs_natCast] at hbelow
  exact ⟨at_of_rank hx (by omega) (by omega), hlt⟩

/-- A whole number between two that are doubles. -/
theorem at_ofInt_between {n m k : Int} (hn : At (ofInt n) (n * unitsPerOne))
    (hm : At (ofInt m) (m * unitsPerOne)) (hnk : n ≤ k) (hkm : k ≤ m) :
    ∃ r, At (ofInt k) r ∧ n * unitsPerOne ≤ r ∧ r ≤ m * unitsPerOne := by
  have hone : (0 : Int) ≤ unitsPerOne := Int.natCast_nonneg _
  have hlow := place_le_place (d := 1) (by decide) (Int.mul_le_mul_of_nonneg_right hnk hone)
  have hhigh := place_le_place (d := 1) (by decide) (Int.mul_le_mul_of_nonneg_right hkm hone)
  rw [hn.place_eq] at hlow
  rw [hm.place_eq] at hhigh
  have hnb := hn.bounds
  have hmb := hm.bounds
  exact ⟨_, at_of_rank (rank_ofInt k) (by omega) (by omega), hlow, hhigh⟩

/-- Drawn steps are the whole numbers between the first and the last. -/
theorem drawStep_spans {first last : Binary64} {n m : Int} (hfirst : At first (n * unitsPerOne))
    (hlast : At last (m * unitsPerOne)) (hn : first.wholePart? = some n)
    (hm : last.wholePart? = some m) (hle : n ≤ m) (hwidth : m - n < wordCount) :
    Draw.Spans (drawStep first last) (n * unitsPerOne) (m * unitsPerOne) := by
  have hwhole : ∀ {x : Binary64} {k : Int}, At x (k * unitsPerOne) →
      At (ofInt k) (k * unitsPerOne) := fun hx => at_ofUnits hx.holds
  unfold drawStep
  split
  · rename_i hsame
    rw [same_iff_of_rank hfirst.rank hlast.rank] at hsame
    rw [← hsame]
    exact Draw.spans_certain hfirst
  · rw [hn, hm, Option.getD_some, Option.getD_some]
    have hyields := fun k => Draw.yields_between (n := k) hle hwidth
    refine ⟨?_, ?_, ?_⟩
    · intro x hx
      obtain ⟨k, hk, rfl⟩ := Draw.yields_map.1 hx
      rw [hyields] at hk
      exact at_ofInt_between (hwhole hfirst) (hwhole hlast) hk.1 hk.2
    · exact ⟨_, Draw.yields_map.2 ⟨n, (hyields n).2 ⟨Int.le_refl n, hle⟩, rfl⟩, hwhole hfirst⟩
    · exact ⟨_, Draw.yields_map.2 ⟨m, (hyields m).2 ⟨hle, Int.le_refl m⟩, rfl⟩, hwhole hlast⟩

/-- The place of the grid point at a place in steps. -/
def gridPlace (places : Nat) (r : Int) : Int :=
  place (r * unitsPerOne) (tenTo places * unitsPerOne)

theorem gridPlace_mono (places : Nat) {r s : Int} (h : r ≤ s) :
    gridPlace places r ≤ gridPlace places s :=
  place_le_place (Nat.mul_pos (tenTo_pos places) unitsPerOne_pos)
    (Int.mul_le_mul_of_nonneg_right h (Int.natCast_nonneg _))

theorem at_gridPoint {step : Binary64} {r : Int} (hstep : At step r) {places : Nat}
    (hp : places ≤ maxPlaces) :
    At (step / gridScale places) (gridPlace places r) := by
  have hone := unitsPerOne_pos
  have hpos := Nat.mul_pos (tenTo_pos places) hone
  have hbounds := hstep.bounds
  -- dividing by a whole number moves a place toward zero
  have htoward : ∀ a : Int, 0 ≤ a →
      a * unitsPerOne * (1 : Nat) ≤ a * (tenTo places * unitsPerOne : Nat) := by
    intro a ha
    rw [Int.natCast_one, Int.mul_one]
    exact Int.mul_le_mul_of_nonneg_left
      (Int.ofNat_le.2 (Nat.le_mul_of_pos_left _ (tenTo_pos places))) ha
  have hrank := rank_div hstep (at_gridScale hp) hpos
  unfold gridPlace
  rcases Int.le_total 0 r with hr | hr
  · have hm := place_mono hpos (by decide) (htoward r hr)
    have hn := place_nonneg (Int.mul_nonneg hr (Int.natCast_nonneg unitsPerOne))
      (tenTo places * unitsPerOne)
    rw [hstep.place_eq] at hm
    exact at_of_rank hrank (by omega) (by omega)
  · have hm := place_mono hpos (by decide) (htoward (-r) (by omega))
    have hn := place_nonpos (Int.mul_nonpos_of_nonpos_of_nonneg hr (Int.natCast_nonneg unitsPerOne))
      (tenTo places * unitsPerOne)
    rw [Int.neg_mul, place_neg, place_neg, hstep.place_eq] at hm
    exact at_of_rank hrank (by omega) (by omega)

/-! ## Extents of grid draws -/

/-- The decimals of the samples that a grid draw writes, and the least and the greatest number that
it writes. -/
structure GridExtent where
  places : Nat
  least : Binary64
  greatest : Binary64

/-- The extent of `gridText`. -/
def gridExtent (lo hi : Binary64) (finer places : Nat) : GridExtent :=
  let first := firstStep places lo
  let last := lastStep places hi
  if stepLimit ≤ first.abs ∨ stepLimit ≤ last.abs then
    ⟨places, (uniform lo hi leastWords).1, (uniform lo hi greatestWords).1⟩
  else if first ≤ last then ⟨places, first / gridScale places, last / gridScale places⟩
  else
    match finer with
    | 0 => ⟨places, lo, lo⟩
    | finer + 1 => gridExtent lo hi finer (places + 1)

/-- Whether the steps of a range are too large to be drawn. -/
def Coarse (lo hi : Binary64) (places : Nat) : Prop :=
  stepLimit ≤ (firstStep places lo).abs ∨ stepLimit ≤ (lastStep places hi).abs

instance (lo hi : Binary64) (places : Nat) : Decidable (Coarse lo hi places) :=
  inferInstanceAs (Decidable (_ ∨ _))

theorem gridText_eq (lo hi : Binary64) (finer places : Nat) :
    gridText lo hi finer places =
      if Coarse lo hi places then Draw.map (fun x => x.toFixed places) (uniform lo hi)
      else if firstStep places lo ≤ lastStep places hi then
        Draw.map (fun step => (step / gridScale places).toFixed places)
          (drawStep (firstStep places lo) (lastStep places hi))
      else
        match finer with
        | 0 => Draw.certain (lo.toFixed places)
        | finer + 1 => gridText lo hi finer (places + 1) := by
  cases finer <;> rfl

theorem gridExtent_eq (lo hi : Binary64) (finer places : Nat) :
    gridExtent lo hi finer places =
      if Coarse lo hi places then
        ⟨places, (uniform lo hi leastWords).1, (uniform lo hi greatestWords).1⟩
      else if firstStep places lo ≤ lastStep places hi then
        ⟨places, firstStep places lo / gridScale places, lastStep places hi / gridScale places⟩
      else
        match finer with
        | 0 => ⟨places, lo, lo⟩
        | finer + 1 => gridExtent lo hi finer (places + 1) := by
  cases finer <;> rfl

/-- Steps that can be drawn are whole, and their range has a finite lower end. -/
structure Drawable (lo hi : Binary64) (l : Int) (places : Nat) (n m : Int) : Prop where
  at_lo : At lo l
  at_first : At (firstStep places lo) (n * unitsPerOne)
  at_last : At (lastStep places hi) (m * unitsPerOne)
  whole_first : (firstStep places lo).wholePart? = some n
  whole_last : (lastStep places hi).wholePart? = some m
  width : m - n < wordCount

theorem natAbs_lt_of_mul {n : Int} {k : Nat} (h : (n * unitsPerOne).natAbs < k * unitsPerOne) :
    n.natAbs < k := by
  rw [Int.natAbs_mul, Int.natAbs_natCast] at h
  exact Nat.lt_of_mul_lt_mul_right h

theorem drawable_of_not_coarse (hlo : lo.rank = some l) (hhi : hi.rank = some h) {places : Nat}
    (hp : places ≤ maxPlaces) (hfine : ¬Coarse lo hi places) :
    ∃ n m, Drawable lo hi l places n m := by
  obtain ⟨hfirst, hlast⟩ := not_or.1 hfine
  obtain ⟨r, hr⟩ := firstStep_spec hlo hp
  obtain ⟨s, hs⟩ := lastStep_spec hhi hp
  obtain ⟨hra, hrn⟩ := at_of_lt_stepLimit hr.rank hfirst
  obtain ⟨hsa, hsn⟩ := at_of_lt_stepLimit hs.rank hlast
  obtain ⟨n, rfl, hn⟩ := hr.whole hra.finite
  obtain ⟨m, rfl, hm⟩ := hs.whole hsa.finite
  have hn63 := natAbs_lt_of_mul hrn
  have hm63 := natAbs_lt_of_mul hsn
  have hcount : twoTo 63 + twoTo 63 = wordCount := by rw [← twoTo_succ, twoTo_64]
  exact ⟨n, m, ⟨hr.finite hra.finite, hlo⟩, hra, hsa, hn, hm, by omega⟩

theorem Drawable.spans {places : Nat} {n m : Int} (d : Drawable lo hi l places n m)
    (hp : places ≤ maxPlaces) (hle : firstStep places lo ≤ lastStep places hi) :
    Draw.Spans (Draw.map (fun step => step / gridScale places)
        (drawStep (firstStep places lo) (lastStep places hi)))
      (gridPlace places (n * unitsPerOne)) (gridPlace places (m * unitsPerOne)) := by
  rw [le_iff d.at_first.rank d.at_last.rank] at hle
  have hnm : n ≤ m := Int.le_of_mul_le_mul_right hle (Int.ofNat_lt.2 unitsPerOne_pos)
  have hsteps := drawStep_spans d.at_first d.at_last d.whole_first d.whole_last hnm d.width
  exact hsteps.map (g := gridPlace places) (fun x r hx _ _ => at_gridPoint hx hp)
    fun r s _ hrs _ => gridPlace_mono places hrs

/-- A text that is drawn with the decimals of an extent, from the extent. -/
def Written (text : Draw String) (extent : GridExtent) : Prop :=
  ∃ draw a b, text = Draw.map (fun x => x.toFixed extent.places) draw ∧ Draw.Spans draw a b ∧
    At extent.least a ∧ At extent.greatest b

/-- What is written from an extent reads back between what its ends read back to, and the texts of
the ends are among it. -/
theorem Written.reads {text : Draw String} {extent : GridExtent} (h : Written text extent)
    (hp : extent.places ≤ maxPlaces) :
    Draw.Yields text (extent.least.toFixed extent.places) ∧
      Draw.Yields text (extent.greatest.toFixed extent.places) ∧
      ∃ a b, At extent.least a ∧ At extent.greatest b ∧
        ∀ t, Draw.Yields text t → decimals t = extent.places ∧
          ∃ y q, leadingNumber? t.toList = some y ∧ At y q ∧ textRank extent.places a ≤ q ∧
            q ≤ textRank extent.places b := by
  obtain ⟨draw, a, b, rfl, hspans, ha, hb⟩ := h
  obtain ⟨x, hx, hxa⟩ := hspans.attains_least
  obtain ⟨y, hy, hyb⟩ := hspans.attains_greatest
  refine ⟨Draw.yields_map.2 ⟨x, hx, toFixed_congr hxa ha _⟩,
    Draw.yields_map.2 ⟨y, hy, toFixed_congr hyb hb _⟩, a, b, ha, hb, ?_⟩
  intro t ht
  obtain ⟨z, hz, rfl⟩ := Draw.yields_map.1 ht
  obtain ⟨r, hr, har, hrb⟩ := hspans.within z hz
  obtain ⟨w, hw, hwat⟩ := leadingNumber?_toFixed hr extent.places
  have hdecimals := decimals_toFixed hr extent.places
  rw [Nat.min_eq_left hp] at hdecimals hwat
  exact ⟨hdecimals, w, _, hw, hwat, textRank_mono _ har, textRank_mono _ hrb⟩

theorem written_uniform (hlo : lo.rank = some l) (hhi : hi.rank = some h) (hle : l ≤ h)
    (places : Nat) :
    Written (Draw.map (fun x => x.toFixed places) (uniform lo hi))
      ⟨places, (uniform lo hi leastWords).1, (uniform lo hi greatestWords).1⟩ := by
  obtain ⟨a, b, hspans, hleast, hgreatest⟩ := uniform_spans hlo hhi hle
  exact ⟨_, a, b, rfl, hspans, hleast, hgreatest⟩

theorem Drawable.written {places : Nat} {n m : Int} (d : Drawable lo hi l places n m)
    (hp : places ≤ maxPlaces) (hle : firstStep places lo ≤ lastStep places hi) :
    Written (Draw.map (fun step => (step / gridScale places).toFixed places)
        (drawStep (firstStep places lo) (lastStep places hi)))
      ⟨places, firstStep places lo / gridScale places, lastStep places hi / gridScale places⟩ :=
  ⟨_, _, _, rfl, d.spans hp hle, at_gridPoint d.at_first hp, at_gridPoint d.at_last hp⟩

/-- **A grid draw writes numbers from its extent, and both ends of it.** -/
theorem gridText_written (hlo : lo.rank = some l) (hhi : hi.rank = some h) (hle : l ≤ h)
    {finer places : Nat} (hp : places + finer ≤ maxPlaces) :
    Written (gridText lo hi finer places) (gridExtent lo hi finer places) ∧
      places ≤ (gridExtent lo hi finer places).places ∧
      (gridExtent lo hi finer places).places ≤ maxPlaces := by
  induction finer generalizing places with
  | zero =>
    rw [gridText_eq, gridExtent_eq]
    split
    · exact ⟨written_uniform hlo hhi hle places, Nat.le_refl _, hp⟩
    · rename_i hfine
      obtain ⟨n, m, d⟩ := drawable_of_not_coarse hlo hhi hp hfine
      split
      · rename_i hsteps
        exact ⟨d.written hp hsteps, Nat.le_refl _, hp⟩
      · exact ⟨⟨_, l, l, rfl, Draw.spans_certain d.at_lo, d.at_lo, d.at_lo⟩, Nat.le_refl _, hp⟩
  | succ finer ih =>
    have hplaces : places ≤ maxPlaces := by omega
    rw [gridText_eq, gridExtent_eq]
    split
    · exact ⟨written_uniform hlo hhi hle places, Nat.le_refl _, hplaces⟩
    · rename_i hfine
      obtain ⟨n, m, d⟩ := drawable_of_not_coarse hlo hhi hplaces hfine
      split
      · rename_i hsteps
        exact ⟨d.written hplaces hsteps, Nat.le_refl _, hplaces⟩
      · obtain ⟨hw, hlow, hhigh⟩ := ih (show places + 1 + finer ≤ maxPlaces by omega)
        exact ⟨hw, Nat.le_trans (Nat.le_succ places) hlow, hhigh⟩

end Sample

end MaterialInspection
