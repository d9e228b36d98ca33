import MaterialInspection.Proofs.Chance
import MaterialInspection.Proofs.Number.Arithmetic
import MaterialInspection.Sample.Spread

/-!
# Numbers drawn between two others

Every step from a fraction to the number at it keeps the order, also where the width of the range
overflows and the halves are used, so the draws are spanned by those for the least and the greatest
fraction.

* `interpolate_spec` — the point at a fraction is finite, lies in the range and moves with the
  fraction.
* `uniform_extent` — between any two numbers, `uniform` gives nothing outside the two that the words
  without and with all bits set give.
* `uniform_within_of_le` — and nothing outside the range.
* `uniform_any` — all of it for any two doubles in either order, infinities and NaN among them.
-/

set_option autoImplicit false

namespace MaterialInspection

open Number

seal unitsPerOne unitsLimit twoTo tenTo

/-! ## Extents of draws -/

/-- A draw gives finite numbers with places between two, and a number at each of these. -/
structure Draw.Spans (draw : Draw Binary64) (least greatest : Int) : Prop where
  within : ∀ x, Draw.Yields draw x → ∃ r, Binary64.At x r ∧ least ≤ r ∧ r ≤ greatest
  attains_least : ∃ x, Draw.Yields draw x ∧ Binary64.At x least
  attains_greatest : ∃ x, Draw.Yields draw x ∧ Binary64.At x greatest

namespace Draw

theorem spans_certain {x : Binary64} {r : Int} (h : Binary64.At x r) : Spans (certain x) r r where
  within := by
    intro y hy
    rw [yields_certain.1 hy]
    exact ⟨r, h, Int.le_refl r, Int.le_refl r⟩
  attains_least := ⟨x, yields_certain.2 rfl, h⟩
  attains_greatest := ⟨x, yields_certain.2 rfl, h⟩

/-- A function that keeps the order of places keeps the extent. -/
theorem Spans.map {draw : Draw Binary64} {a b : Int} (h : Spans draw a b) {f : Binary64 → Binary64}
    {g : Int → Int} (hf : ∀ x r, Binary64.At x r → a ≤ r → r ≤ b → Binary64.At (f x) (g r))
    (hg : ∀ r s, a ≤ r → r ≤ s → s ≤ b → g r ≤ g s) : Spans (map f draw) (g a) (g b) := by
  obtain ⟨x, hx, hax⟩ := h.attains_least
  obtain ⟨y, hy, hby⟩ := h.attains_greatest
  have hab : a ≤ b := by
    obtain ⟨r, _, har, hrb⟩ := h.within x hx
    exact Int.le_trans har hrb
  refine ⟨?_, ⟨f x, yields_map.2 ⟨x, hx, rfl⟩, hf x a hax (Int.le_refl a) hab⟩,
    ⟨f y, yields_map.2 ⟨y, hy, rfl⟩, hf y b hby hab (Int.le_refl b)⟩⟩
  intro z hz
  obtain ⟨w, hw, rfl⟩ := yields_map.1 hz
  obtain ⟨r, hr, har, hrb⟩ := h.within w hw
  exact ⟨g r, hf w r hr har hrb, hg a r (Int.le_refl a) har hrb, hg r b har hrb (Int.le_refl b)⟩

end Draw

namespace Binary64

/-! ## Halves -/

theorem place_half {r : Int} (hlow : -(greatest : Int) ≤ r) (hhigh : r ≤ greatest) :
    -(halfGreatest : Int) ≤ place (r * unitsPerOne) (2 * unitsPerOne) ∧
      place (r * unitsPerOne) (2 * unitsPerOne) ≤ halfGreatest := by
  have hone := unitsPerOne_pos
  have htwo := two_halfGreatest
  have hheld : place (halfGreatest : Int) 1 = halfGreatest := place_of_holds holds_halfGreatest
  have hmono : ∀ a b : Int, a ≤ b + b →
      a * unitsPerOne * (1 : Nat) ≤ b * (2 * unitsPerOne : Nat) := by
    intro a b h
    have hm := Int.mul_le_mul_of_nonneg_right h (Int.natCast_nonneg unitsPerOne)
    rw [Int.add_mul] at hm
    rwa [Int.natCast_one, Int.mul_one, Nat.two_mul, Int.natCast_add, Int.mul_add]
  constructor
  · have hm := place_mono (by omega) (by decide) (hmono (-r) halfGreatest (by omega))
    rw [Int.neg_mul, place_neg, hheld] at hm
    omega
  · have hm := place_mono (by omega) (by decide) (hmono r halfGreatest (by omega))
    rwa [hheld] at hm

/-- Half of a finite number. -/
theorem at_half {x : Binary64} {r : Int} (h : At x r) :
    At (x / 2) (place (r * unitsPerOne) (2 * unitsPerOne)) := by
  have hheld := h.holds.le_greatest
  have hhalf := place_half (r := r) (by omega) (by omega)
  have hlimit := holds_halfGreatest.below
  refine at_of_rank (rank_div h at_two (Nat.mul_pos (by decide) unitsPerOne_pos)) ?_ ?_
  · omega
  · omega

/-! ## Points at a fraction -/

/-- A part of a width is no wider. -/
theorem place_part {f w : Int} (hf : 0 ≤ f) (hone : f ≤ unitsPerOne) (hw : 0 ≤ w)
    (hplace : place w 1 = w) :
    0 ≤ place (f * w) unitsPerOne ∧ place (f * w) unitsPerOne ≤ w := by
  refine ⟨place_nonneg (Int.mul_nonneg hf hw) _, ?_⟩
  have hm := place_mono (x := f * w) (y := w) (d := 1) unitsPerOne_pos (by decide) (by
    have := Int.mul_le_mul_of_nonneg_right hone hw
    rwa [Int.natCast_one, Int.mul_one, Int.mul_comm w])
  rwa [hplace] at hm

theorem place_part_mono {f g w : Int} (h : f ≤ g) (hw : 0 ≤ w) :
    place (f * w) unitsPerOne ≤ place (g * w) unitsPerOne :=
  place_le_place unitsPerOne_pos (Int.mul_le_mul_of_nonneg_right h hw)

/-- The point at a fraction by the width, where the width does not overflow. -/
def stepBy (l w f : Int) : Int := place (l + place (f * w) unitsPerOne) 1

theorem stepBy_mono {l w f g : Int} (hw : 0 ≤ w) (h : f ≤ g) : stepBy l w f ≤ stepBy l w g :=
  place_le_place (by decide) (by have := place_part_mono h hw; omega)

theorem rank_stepBy {x y z : Binary64} {l w f : Int} (hx : At x l) (hy : At y w) (hz : At z f)
    (hf : 0 ≤ f) (hone : f ≤ unitsPerOne) (hw : 0 ≤ w) :
    (x + z * y).rank = some (stepBy l w f) := by
  have hpart := place_part hf hone hw hy.place_eq
  have hbounds := hy.bounds
  exact rank_add hx (at_of_rank (rank_mul hz hy) (by omega) (by omega))

end Binary64

namespace Sample

open Binary64

variable {lo hi : Binary64} {l h : Int}

/-- Only a range that starts below zero is too wide for a double. -/
theorem neg_of_wide (hlo : At lo l) (hhi : At hi h) (hle : l ≤ h)
    (hwide : (hi - lo).isFinite = false) : l < 0 := by
  apply Int.not_le.1
  intro hnonneg
  have hbounds := hhi.bounds
  have hplace := hhi.place_eq
  have hlow := place_nonneg (show 0 ≤ h - l by omega) 1
  have hhigh := place_le_place (d := 1) (by decide) (show h - l ≤ h by omega)
  have hfinite := (at_of_rank (rank_sub hhi hlo) (by omega) (by omega)).finite
  rw [hwide] at hfinite
  cases hfinite

/-- The point at a fraction, before it is moved into the range. -/
def pointBy (lo hi fraction : Binary64) : Binary64 :=
  if (hi - lo).isFinite then lo + fraction * (hi - lo)
  else (lo / 2 + fraction * (hi / 2 - lo / 2)) * 2

theorem interpolate_eq (lo hi fraction : Binary64) :
    interpolate lo hi fraction = (pointBy lo hi fraction).clamp lo hi := rfl

/-- Halves of the ends are a finite width apart, and the points between them are finite. -/
theorem at_halves (hlo : At lo l) (hhi : At hi h) (hle : l ≤ h) (hneg : l < 0) :
    ∃ a w : Int, 0 ≤ w ∧ At (lo / 2) a ∧ At (hi / 2 - lo / 2) w ∧
      ∀ f : Int, 0 ≤ f → f ≤ unitsPerOne →
        -(unitsLimit : Int) < stepBy a w f ∧ stepBy a w f < unitsLimit := by
  have hone := unitsPerOne_pos
  have htwo := two_halfGreatest
  have hgreatest := greatest_eq
  have hpow := twoTo_pos 2045
  have hheld : place (greatest : Int) 1 = greatest := place_of_holds holds_greatest
  have hl := hlo.holds.le_greatest
  have hh := hhi.holds.le_greatest
  obtain ⟨halow, hahigh⟩ := place_half (r := l) (by omega) (by omega)
  obtain ⟨hblow, hbhigh⟩ := place_half (r := h) (by omega) (by omega)
  have hanonpos : place (l * unitsPerOne) (2 * unitsPerOne) ≤ 0 :=
    place_nonpos (Int.mul_nonpos_of_nonpos_of_nonneg (Int.le_of_lt hneg) (by omega)) _
  have hab : place (l * unitsPerOne) (2 * unitsPerOne) ≤ place (h * unitsPerOne) (2 * unitsPerOne) :=
    place_le_place (by omega) (Int.mul_le_mul_of_nonneg_right hle (by omega))
  have ha := at_half hlo
  have hb := at_half hhi
  generalize place (l * unitsPerOne) (2 * unitsPerOne) = a at *
  generalize place (h * unitsPerOne) (2 * unitsPerOne) = b at *
  have hw0 := place_nonneg (show 0 ≤ b - a by omega) 1
  have hwle := place_le_place (d := 1) (by decide) (show b - a ≤ greatest by omega)
  rw [hheld] at hwle
  have hw := at_of_rank (rank_sub hb ha) (by omega) (by omega)
  refine ⟨a, place (b - a) 1, hw0, ha, hw, ?_⟩
  intro f hf hfone
  obtain ⟨hpart0, hpartle⟩ := place_part hf hfone hw0 hw.place_eq
  unfold stepBy
  have hlow := place_le_place (d := 1) (by decide)
    (show a ≤ a + place (f * place (b - a) 1) unitsPerOne by omega)
  have hhigh := place_le_place (d := 1) (by decide)
    (show a + place (f * place (b - a) 1) unitsPerOne ≤ greatest by omega)
  rw [ha.place_eq] at hlow
  rw [hheld] at hhigh
  have habounds := ha.bounds
  omega

/-- The point at a fraction moves with the fraction. -/
theorem pointBy_spec (hlo : At lo l) (hhi : At hi h) (hle : l ≤ h) :
    ∃ q : Int → Int, (∀ f g, f ≤ g → q f ≤ q g) ∧
      ∀ x f, At x f → 0 ≤ f → f ≤ unitsPerOne → (pointBy lo hi x).rank = some (q f) := by
  unfold pointBy
  split
  · rename_i hfinite
    have hw := At.mk hfinite (rank_sub hhi hlo)
    have hw0 := place_nonneg (show 0 ≤ h - l by omega) 1
    exact ⟨stepBy l (place (h - l) 1), fun f g => stepBy_mono hw0,
      fun x f hx hf hone => rank_stepBy hlo hw hx hf hone hw0⟩
  · rename_i hwide
    obtain ⟨a, w, hw0, ha, hw, hbounds⟩ :=
      at_halves hlo hhi hle (neg_of_wide hlo hhi hle (by simpa using hwide))
    refine ⟨fun f => place (stepBy a w f * (2 * unitsPerOne : Nat)) unitsPerOne, ?_, ?_⟩
    · intro f g hfg
      exact place_le_place unitsPerOne_pos
        (Int.mul_le_mul_of_nonneg_right (stepBy_mono hw0 hfg) (Int.natCast_nonneg _))
    · intro x f hx hf hone
      obtain ⟨hlow, hhigh⟩ := hbounds f hf hone
      have hpoint := at_of_rank (rank_stepBy ha hw hx hf hone hw0) hlow hhigh
      exact rank_mul hpoint at_two

/-- **The point at a fraction lies in the range and moves with the fraction.** -/
theorem interpolate_spec (hlo : At lo l) (hhi : At hi h) (hle : l ≤ h) :
    ∃ q : Int → Int, (∀ f g, f ≤ g → q f ≤ q g) ∧
      ∀ x f, At x f → 0 ≤ f → f ≤ unitsPerOne → At (interpolate lo hi x) (q f) := by
  obtain ⟨q, hmono, hrank⟩ := pointBy_spec hlo hhi hle
  have hlow := hlo.bounds
  have hhigh := hhi.bounds
  refine ⟨fun f => max l (min h (q f)), ?_, ?_⟩
  · intro f g hfg
    have := hmono f g hfg
    dsimp only
    omega
  · intro x f hx hf hone
    have hrank := rank_clamp (hrank x f hx hf hone) hlo.rank hhi.rank hle
    rw [interpolate_eq]
    exact at_of_rank hrank (by dsimp only; omega) (by dsimp only; omega)

/-! ## Fractions -/

/-- The place of the fraction that a word gives. -/
def fractionRank (w : UInt64) : Int := (w.toNat / twoTo 11 * twoTo 1021 : Nat)

theorem fractionRank_mono {v w : UInt64} (h : v.toNat ≤ w.toNat) :
    fractionRank v ≤ fractionRank w :=
  Int.ofNat_le.2 (Nat.mul_le_mul_right _ (Nat.div_le_div_right h))

theorem fractionSteps_le (w : UInt64) : w.toNat / twoTo 11 ≤ twoTo 53 := by
  have hlt := Draw.toNat_lt_wordCount w
  rw [← twoTo_64, show 64 = 53 + 11 from rfl, twoTo_add] at hlt
  exact Nat.le_of_lt ((Nat.div_lt_iff_lt_mul (twoTo_pos 11)).2 hlt)

theorem fractionRank_bounds (w : UInt64) : 0 ≤ fractionRank w ∧ fractionRank w ≤ unitsPerOne := by
  have hmul := Nat.mul_le_mul_right (twoTo 1021) (fractionSteps_le w)
  rw [← twoTo_add, ← unitsPerOne_eq] at hmul
  exact ⟨Int.natCast_nonneg _, Int.ofNat_le.2 hmul⟩

theorem holds_fractionRank (w : UInt64) : Holds (fractionRank w).natAbs := by
  have hbounds := fractionRank_bounds w
  have hone := holds_unitsPerOne.below
  refine ⟨by omega, ?_⟩
  rw [fractionRank, Int.natAbs_natCast]
  exact spacing_dvd_mul (fractionSteps_le w)

theorem at_unitFraction (s : WordStream) : At (Draw.unitFraction s).1 (fractionRank s.next.1) :=
  at_ofUnits (holds_fractionRank s.next.1)

/-- The words without and with all bits set. -/
def leastWords : WordStream := .constant 0

def greatestWords : WordStream := .constant 18446744073709551615

theorem unitFraction_spans :
    Draw.Spans Draw.unitFraction (fractionRank 0) (fractionRank 18446744073709551615) where
  within := by
    rintro x ⟨s, rfl⟩
    refine ⟨_, at_unitFraction s, fractionRank_mono (Nat.zero_le _), fractionRank_mono ?_⟩
    exact Nat.le_of_lt_succ (Draw.toNat_lt_wordCount s.next.1)
  attains_least := ⟨_, ⟨leastWords, rfl⟩, at_unitFraction leastWords⟩
  attains_greatest := ⟨_, ⟨greatestWords, rfl⟩, at_unitFraction greatestWords⟩

/-! ## The whole draw -/

/-- **`uniform` gives what the least and the greatest words give, and numbers between.** -/
theorem uniform_spans (hlo : lo.rank = some l) (hhi : hi.rank = some h) (hle : l ≤ h) :
    ∃ a b, Draw.Spans (uniform lo hi) a b ∧ At (uniform lo hi leastWords).1 a ∧
      At (uniform lo hi greatestWords).1 b := by
  have certain : ∀ {x r}, At x r → ∃ a b, Draw.Spans (Draw.certain x) a b ∧
      At (Draw.certain x leastWords).1 a ∧ At (Draw.certain x greatestWords).1 b :=
    fun hx => ⟨_, _, Draw.spans_certain hx, hx, hx⟩
  unfold uniform
  split
  · rename_i hfinite
    rw [Bool.and_eq_true] at hfinite
    have hlo' := At.mk hfinite.1 hlo
    have hhi' := At.mk hfinite.2 hhi
    obtain ⟨q, hmono, hat⟩ := interpolate_spec hlo' hhi' hle
    have hpoint : ∀ s, At (interpolate lo hi (Draw.unitFraction s).1) (q (fractionRank s.next.1)) :=
      fun s => hat _ _ (at_unitFraction s) (fractionRank_bounds _).1 (fractionRank_bounds _).2
    rw [if_pos ((le_iff hlo hhi).2 hle)]
    dsimp only
    split
    · exact certain hlo'
    · refine ⟨_, _, unitFraction_spans.map (g := q) ?_ fun r s _ hrs _ => hmono r s hrs,
        hpoint leastWords, hpoint greatestWords⟩
      intro x r hx hleast hgreatest
      have hzero := (fractionRank_bounds 0).1
      have hone := (fractionRank_bounds 18446744073709551615).2
      exact hat x r hx (Int.le_trans hzero hleast) (Int.le_trans hgreatest hone)
  · split
    · rename_i hf
      exact certain ⟨hf, hlo⟩
    · split
      · rename_i hf
        exact certain ⟨hf, hhi⟩
      · exact certain (at_ofInt (n := 0) (Nat.zero_le _))

/-! ## Any two numbers -/

/-- Where `uniform` draws between two finite numbers in order. -/
theorem uniform_within_of_le (hlo : At lo l) (hhi : At hi h) (hle : l ≤ h) {x : Binary64}
    (hx : Draw.Yields (uniform lo hi) x) : ∃ r, At x r ∧ l ≤ r ∧ r ≤ h := by
  have hlow := hlo.bounds
  have hhigh := hhi.bounds
  unfold uniform at hx
  rw [hlo.finite, hhi.finite, if_pos ((le_iff hlo.rank hhi.rank).2 hle)] at hx
  simp only [Bool.and_self, if_true] at hx
  split at hx
  · rw [Draw.yields_certain.1 hx]
    exact ⟨l, hlo, Int.le_refl l, hle⟩
  · obtain ⟨f, ⟨s, rfl⟩, rfl⟩ := Draw.yields_map.1 hx
    obtain ⟨q, _, hrank⟩ := pointBy_spec hlo hhi hle
    have hpoint := hrank _ _ (at_unitFraction s) (fractionRank_bounds _).1 (fractionRank_bounds _).2
    have hclamp := rank_clamp hpoint hlo.rank hhi.rank hle
    rw [← interpolate_eq] at hclamp
    exact ⟨_, at_of_rank hclamp (by omega) (by omega), by omega, by omega⟩

/-- The order of two numbers does not matter to `uniform`. -/
theorem uniform_swap (hlo : At lo l) (hhi : At hi h) (hlt : h < l) : uniform lo hi = uniform hi lo := by
  have hnot : ¬lo ≤ hi := by
    rw [le_iff hlo.rank hhi.rank]
    omega
  have hle : hi ≤ lo := (le_iff hhi.rank hlo.rank).2 (Int.le_of_lt hlt)
  unfold uniform
  rw [hlo.finite, hhi.finite, if_neg hnot, if_pos hle]
  simp only [Bool.and_self, if_true]

/-- Between two numbers at one place there is nothing to draw. -/
theorem uniform_tie (hlo : At lo l) (hhi : At hi l) : uniform lo hi = Draw.certain lo := by
  have hwidth : (hi - lo).rank = some (place (l - l) 1) := rank_sub hhi hlo
  have hresolution : resolution.rank = some (place (twoTo 1022 : Int) 1) := rank_ofUnits _
  have hnarrow : hi - lo ≤ resolution := by
    rw [le_iff hwidth hresolution, Int.sub_self, place_zero]
    exact place_nonneg (Int.natCast_nonneg _) 1
  unfold uniform
  rw [hlo.finite, hhi.finite, if_pos ((le_iff hlo.rank hhi.rank).2 (Int.le_refl l))]
  simp only [Bool.and_self, if_true, if_pos hnarrow]

section Infinite

variable {a b : Binary64}

theorem uniform_of_finite_left (ha : a.isFinite = true) (hb : b.isFinite = false) :
    uniform a b = Draw.certain a := by
  unfold uniform
  rw [ha, hb]
  rfl

theorem uniform_of_finite_right (ha : a.isFinite = false) (hb : b.isFinite = true) :
    uniform a b = Draw.certain b := by
  unfold uniform
  rw [ha, hb]
  rfl

theorem uniform_of_infinite (ha : a.isFinite = false) (hb : b.isFinite = false) :
    uniform a b = Draw.certain 0 := by
  unfold uniform
  rw [ha, hb]
  rfl

end Infinite

/-- **Between any two numbers, `uniform` draws what the least and the greatest words give, and
numbers between.** -/
theorem uniform_extent (lo hi : Binary64) :
    ∃ a b, Draw.Spans (uniform lo hi) a b ∧ At (uniform lo hi leastWords).1 a ∧
      At (uniform lo hi greatestWords).1 b := by
  have certain : ∀ {x r}, uniform lo hi = Draw.certain x → At x r →
      ∃ a b, Draw.Spans (uniform lo hi) a b ∧ At (uniform lo hi leastWords).1 a ∧
        At (uniform lo hi greatestWords).1 b := by
    intro x r hdraw hx
    rw [hdraw]
    exact ⟨r, r, Draw.spans_certain hx, hx, hx⟩
  cases hlo : lo.isFinite with
  | false =>
    cases hhi : hi.isFinite with
    | false => exact certain (uniform_of_infinite hlo hhi) at_zero
    | true =>
      obtain ⟨h, hh⟩ := at_of_finite hhi
      exact certain (uniform_of_finite_right hlo hhi) hh
  | true =>
    obtain ⟨l, hl⟩ := at_of_finite hlo
    cases hhi : hi.isFinite with
    | false => exact certain (uniform_of_finite_left hlo hhi) hl
    | true =>
      obtain ⟨h, hh⟩ := at_of_finite hhi
      rcases Int.lt_or_le h l with hlt | hle
      · rw [uniform_swap hl hh hlt]
        exact uniform_spans hh.rank hl.rank (Int.le_of_lt hlt)
      · exact uniform_spans hl.rank hh.rank hle

/-- What is drawn is finite. -/
theorem finite_uniform (a b : Binary64) (s : WordStream) : (uniform a b s).1.isFinite = true := by
  obtain ⟨_, _, hspans, _⟩ := uniform_extent a b
  obtain ⟨_, hdrawn, _⟩ := hspans.within _ ⟨s, rfl⟩
  exact hdrawn.finite

/-- A number lies between two others, whichever of them is the smaller. -/
def Between (a b x : Binary64) : Prop := (a ≤ x ∧ x ≤ b) ∨ (b ≤ x ∧ x ≤ a)

section Any

variable {a b : Binary64} {r t : Int}

/-- Two finite numbers have what is drawn between them, whatever their order. -/
theorem uniform_between (ha : At a r) (hb : At b t) (s : WordStream) :
    Between a b (uniform a b s).1 := by
  rcases Int.lt_or_le t r with hlt | hle
  · rw [uniform_swap ha hb hlt]
    obtain ⟨q, hq, hlow, hhigh⟩ := uniform_within_of_le hb ha (Int.le_of_lt hlt) ⟨s, rfl⟩
    exact .inr ⟨(le_iff hb.rank hq.rank).2 hlow, (le_iff hq.rank ha.rank).2 hhigh⟩
  · obtain ⟨q, hq, hlow, hhigh⟩ := uniform_within_of_le ha hb hle ⟨s, rfl⟩
    exact .inl ⟨(le_iff ha.rank hq.rank).2 hlow, (le_iff hq.rank hb.rank).2 hhigh⟩

/-- Two finite numbers in the other order give an equal number and take the same words.  The numbers are
not always one: of the two zeros the first is given. -/
theorem uniform_comm (ha : At a r) (hb : At b t) (s : WordStream) :
    (uniform b a s).1.same (uniform a b s).1 = true ∧ (uniform b a s).2 = (uniform a b s).2 := by
  have hself : (uniform a b s).1.same (uniform a b s).1 = true :=
    same_self (isNaN_of_finite (finite_uniform a b s))
  rcases Int.lt_trichotomy r t with hlt | rfl | hlt
  · rw [uniform_swap hb ha hlt]
    exact ⟨hself, rfl⟩
  · rw [uniform_tie ha hb, uniform_tie hb ha]
    exact ⟨same_iff.2 ⟨r, hb.rank, ha.rank⟩, rfl⟩
  · rw [← uniform_swap ha hb hlt]
    exact ⟨hself, rfl⟩

end Any

/-- **What `uniform` gives for any two doubles.**  It is a finite number: one between the two if both are
finite, the finite one if only one is, and zero if none is.  Exchanging the two gives a number equal to it
and takes the same words from the stream. -/
theorem uniform_any (a b : Binary64) (s : WordStream) :
    (uniform a b s).1.isFinite = true ∧
    (match a.isFinite, b.isFinite with
      | true, true => Between a b (uniform a b s).1
      | true, false => (uniform a b s).1 = a
      | false, true => (uniform a b s).1 = b
      | false, false => (uniform a b s).1 = 0) ∧
    (uniform b a s).1.same (uniform a b s).1 = true ∧ (uniform b a s).2 = (uniform a b s).2 := by
  have hfinite := finite_uniform a b s
  have hself := same_self (isNaN_of_finite hfinite)
  refine ⟨hfinite, ?_⟩
  cases ha : a.isFinite with
  | false =>
    cases hb : b.isFinite with
    | false =>
      rw [uniform_of_infinite ha hb] at hself ⊢
      rw [uniform_of_infinite hb ha]
      exact ⟨rfl, hself, rfl⟩
    | true =>
      rw [uniform_of_finite_right ha hb] at hself ⊢
      rw [uniform_of_finite_left hb ha]
      exact ⟨rfl, hself, rfl⟩
  | true =>
    obtain ⟨r, hr⟩ := at_of_finite ha
    cases hb : b.isFinite with
    | false =>
      rw [uniform_of_finite_left ha hb] at hself ⊢
      rw [uniform_of_finite_right hb ha]
      exact ⟨rfl, hself, rfl⟩
    | true =>
      obtain ⟨t, ht⟩ := at_of_finite hb
      exact ⟨uniform_between hr ht s, uniform_comm hr ht s⟩

end Sample

end MaterialInspection
