import MaterialInspection.Proofs.Criterion
import MaterialInspection.Proofs.Sample.Moderate
import MaterialInspection.Sample.Values

/-!
# The range that samples of a criterion are drawn from

A range is drawn from itself; a minimum from what lies up to a fifth above it, and a maximum from
what lies up to a fifth below, counted by magnitude.

* `drawnRange_ordered` — the ends of the drawn range are numbers, in order.
* `drawnRange_moderate` — what misses the drawn range of a moderate criterion by no more than the
  tolerance satisfies the criterion.
-/

set_option autoImplicit false

namespace MaterialInspection.Sample

open Number Binary64

seal unitsPerOne unitsLimit twoTo tenTo

/-- The ends of the range that samples of a criterion are drawn from. -/
def drawnRange : Criterion → Binary64 × Binary64
  | .range min max => (min, max)
  | .minimum bound => (bound, bound + (if bound.same 0 then 1 else bound.abs) * 0.2)
  | .maximum bound => (if 0 < bound then bound * 0.8 else bound * 1.2, bound)
  | .free => (0, 0)

theorem criterionSample_eq {c : Criterion} (hc : c.isBound = true) (places : Nat) :
    criterionSample c places = onGrid (drawnRange c).1 (drawnRange c).2 places := by
  cases c with
  | range min max => rfl
  | minimum bound => rfl
  | maximum bound => rfl
  | free => cases hc

/-! ## Fifths -/

variable {bound : Binary64} {r : Int}

/-- The place of a fraction that is written with one decimal. -/
def tenths (n : Nat) : Int := place ((n * unitsPerOne : Nat) : Int) (tenTo 1)

theorem at_tenths {n : Nat} (h : n ≤ twoTo 53) :
    At (ofDecimal false n (-((1 : Nat) : Int))) (tenths n) :=
  at_ofDecimal h 1

/-- What the headroom above a minimum is a fifth of. -/
theorem headroom_base (hb : At bound r) :
    ∃ k : Int, 0 ≤ k ∧ k ≤ max unitsPerOne r.natAbs ∧
      At (if bound.same 0 then 1 else bound.abs) k := by
  split
  · exact ⟨unitsPerOne, Int.natCast_nonneg _, by omega, at_one⟩
  · refine ⟨r.natAbs, Int.natCast_nonneg _, by omega, ?_⟩
    have hbounds := hb.bounds
    exact at_of_rank (rank_abs hb.rank) (by omega) (by omega)

/-- The upper end for a minimum. -/
theorem rank_minimum (hb : At bound r) :
    ∃ m : Int, 0 ≤ m ∧ m ≤ max unitsPerOne r.natAbs ∧
      (bound + (if bound.same 0 then 1 else bound.abs) * 0.2).rank = some (place (r + m) 1) := by
  obtain ⟨k, hk0, hkle, hk⟩ := headroom_base hb
  have hfifth := at_tenths (n := 2) (by rw [twoTo_53]; decide)
  have hlow : 0 ≤ tenths 2 := place_nonneg (Int.natCast_nonneg _) _
  have hhigh : tenths 2 ≤ (1 * unitsPerOne : Nat) :=
    place_decimal_le (twoTo_pos 53) (by rw [tenTo_one]; decide)
  rw [Nat.one_mul] at hhigh
  obtain ⟨hm0, hmle⟩ := place_part hlow hhigh hk0 hk.place_eq
  have hbounds := hk.bounds
  rw [Int.mul_comm] at hm0 hmle
  exact ⟨_, hm0, Int.le_trans hmle hkle,
    rank_add hb (at_of_rank (rank_mul hk hfifth) (by omega) (by omega))⟩

/-- The lower end for a maximum. -/
theorem rank_maximum (hb : At bound r) :
    ∃ m : Int, m ≤ r ∧ place (-(2 * r.natAbs : Int)) 1 ≤ m ∧
      (if 0 < bound then bound * 0.8 else bound * 1.2).rank = some m := by
  have hplace := hb.place_eq
  split
  · rename_i hpos
    rw [lt_iff at_zero.rank hb.rank] at hpos
    have hlow : 0 ≤ tenths 8 := place_nonneg (Int.natCast_nonneg _) _
    have hhigh : tenths 8 ≤ (1 * unitsPerOne : Nat) :=
      place_decimal_le (twoTo_pos 53) (by rw [tenTo_one]; decide)
    rw [Nat.one_mul] at hhigh
    obtain ⟨hm0, hmle⟩ := place_part hlow hhigh (Int.le_of_lt hpos) hplace
    have hneg := place_nonpos (show -(2 * r.natAbs : Int) ≤ 0 by omega) 1
    rw [Int.mul_comm] at hm0 hmle
    exact ⟨_, hmle, by omega, rank_mul hb (at_tenths (n := 8) (by rw [twoTo_53]; decide))⟩
  · rename_i hnonpos
    rw [lt_iff at_zero.rank hb.rank, Int.not_lt] at hnonpos
    have hlow : (1 * unitsPerOne : Nat) ≤ tenths 12 :=
      le_place_decimal (twoTo_pos 53) (by rw [tenTo_one]; decide)
    have hhigh : tenths 12 ≤ (2 * unitsPerOne : Nat) :=
      place_decimal_le (by rw [twoTo_53]; decide) (by rw [tenTo_one]; decide)
    refine ⟨_, ?_, ?_, rank_mul hb (at_tenths (n := 12) (by rw [twoTo_53]; decide))⟩
    · have hm := place_mono (x := r * tenths 12) (y := r) (d := 1) unitsPerOne_pos (by decide) (by
        rw [Int.natCast_one, Int.mul_one]
        rw [Nat.one_mul] at hlow
        exact Int.mul_le_mul_of_nonpos_left hnonpos hlow)
      rwa [hplace] at hm
    · refine place_mono (by decide) unitsPerOne_pos ?_
      have hm := Int.mul_le_mul_of_nonpos_left hnonpos hhigh
      rw [Int.natCast_one, Int.mul_one, show -(2 * r.natAbs : Int) = r * 2 by omega, Int.mul_assoc]
      exact hm

/-- The ends of the drawn range are numbers, in order. -/
theorem drawnRange_ordered {c : Criterion} (hc : c.Ordered) (hbound : c.isBound = true) :
    (drawnRange c).1 ≤ (drawnRange c).2 := by
  cases c with
  | range min max => exact hc
  | minimum bound =>
    obtain ⟨r, hr⟩ := at_of_finite hc
    obtain ⟨m, hm0, _, hm⟩ := rank_minimum hr
    have hle := place_le_place (d := 1) (by decide) (show r ≤ r + m by omega)
    rw [hr.place_eq] at hle
    exact (le_iff hr.rank hm).2 hle
  | maximum bound =>
    obtain ⟨r, hr⟩ := at_of_finite hc
    obtain ⟨m, hle, _, hm⟩ := rank_maximum hr
    exact (le_iff hm hr.rank).2 hle
  | free => cases hbound

/-! ## Moderate criteria -/

/-- The bounds of a criterion lie between -100000 and 100000. -/
def Moderate : Criterion → Prop
  | .range min max => -100000 ≤ min ∧ max ≤ 100000
  | .minimum bound => -100000 ≤ bound ∧ bound ≤ 100000
  | .maximum bound => -100000 ≤ bound ∧ bound ≤ 100000
  | .free => True

instance (c : Criterion) : Decidable (Moderate c) := by
  cases c <;> unfold Moderate <;> infer_instance

theorem at_hundredThousand : At 100000 ((100000 * unitsPerOne : Nat) : Int) :=
  at_ofInt (n := 100000) (by rw [twoTo_53]; decide)

theorem moderate_bounds {x y : Binary64} {r s : Int} (hx : x.rank = some r) (hy : y.rank = some s)
    (hlow : -100000 ≤ x) (hle : x ≤ y) (hhigh : y ≤ 100000) :
    At x r ∧ At y s ∧ r.natAbs ≤ 100000 * unitsPerOne ∧ s.natAbs ≤ 100000 * unitsPerOne := by
  rw [le_iff (rank_neg at_hundredThousand.rank) hx] at hlow
  rw [le_iff hx hy] at hle
  rw [le_iff hy at_hundredThousand.rank] at hhigh
  have hbelow := at_hundredThousand.bounds
  exact ⟨at_of_rank hx (by omega) (by omega), at_of_rank hy (by omega) (by omega), by omega, by omega⟩

theorem tolerance_le (hb : At bound r) {y : Binary64} {q : Int} (hy : At y q)
    (h : place (r - toleranceRank) 1 ≤ q) : (bound - Criterion.tolerance).le y = true :=
  (le_iff (rank_sub hb at_tolerance) hy.rank).2 h

theorem le_tolerance (hb : At bound r) {y : Binary64} {q : Int} (hy : At y q)
    (h : q ≤ place (r + toleranceRank) 1) : y.le (bound + Criterion.tolerance) = true :=
  (le_iff hy.rank (rank_add hb at_tolerance)).2 h

/-- What misses the drawn range of a moderate criterion by no more than the tolerance satisfies the
criterion. -/
theorem drawnRange_moderate {c : Criterion} (hc : c.Ordered) (hbound : c.isBound = true)
    (hm : Moderate c) :
    ∃ l h, At (drawnRange c).1 l ∧ At (drawnRange c).2 h ∧ l ≤ h ∧ ModerateRank l ∧
      ModerateRank h ∧ ∀ y q, At y q → place (l - toleranceRank) 1 ≤ q →
        q ≤ place (h + toleranceRank) 1 → c.contains y = true := by
  have hmax : 200000 ≤ twoTo 53 := by rw [twoTo_53]; decide
  cases c with
  | range min max =>
    obtain ⟨l, h, hl, hh, hle⟩ := le_iff_rank.1 hc
    obtain ⟨hmin, hmax, hlm, hhm⟩ := moderate_bounds hl hh hm.1 hc hm.2
    refine ⟨l, h, hmin, hmax, hle, ?_, ?_, ?_⟩
    · unfold ModerateRank
      omega
    · unfold ModerateRank
      omega
    · intro y q hy hlow hhigh
      exact Bool.and_eq_true_iff.2 ⟨tolerance_le hmin hy hlow, le_tolerance hmax hy hhigh⟩
  | minimum bound =>
    obtain ⟨r, hr⟩ := at_of_finite hc
    have hle := (le_iff hr.rank hr.rank).2 (Int.le_refl r)
    obtain ⟨_, _, hrm, _⟩ := moderate_bounds hr.rank hr.rank hm.1 hle hm.2
    obtain ⟨m, hm0, hmle, hrank⟩ := rank_minimum hr
    have hone := unitsPerOne_pos
    have hwithin : (r + m).natAbs ≤ 200000 * unitsPerOne := by omega
    have hup := place_le_place (d := 1) (by decide) (show r ≤ r + m by omega)
    rw [hr.place_eq] at hup
    refine ⟨r, _, hr, at_within hmax hrank hwithin, hup, ?_, place_within hmax hwithin, ?_⟩
    · unfold ModerateRank
      omega
    · intro y q hy hlow _
      exact tolerance_le hr hy hlow
  | maximum bound =>
    obtain ⟨r, hr⟩ := at_of_finite hc
    have hle := (le_iff hr.rank hr.rank).2 (Int.le_refl r)
    obtain ⟨_, _, hrm, _⟩ := moderate_bounds hr.rank hr.rank hm.1 hle hm.2
    obtain ⟨m, hmle, hmlow, hrank⟩ := rank_maximum hr
    have hwithin := place_within (x := -(2 * r.natAbs : Int)) hmax (by omega)
    have hbelow := (holds_mul_unitsPerOne hmax).below
    refine ⟨m, r, at_of_rank hrank (by omega) (by omega), hr, hmle, ?_, ?_, ?_⟩
    · unfold ModerateRank
      omega
    · unfold ModerateRank
      omega
    · intro y q hy _ hhigh
      exact le_tolerance hr hy hhigh
  | free => cases hbound

end MaterialInspection.Sample
