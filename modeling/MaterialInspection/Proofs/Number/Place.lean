import MaterialInspection.Proofs.Number.Magnitude

/-!
# Places of doubles

The place of a double is its rank, a whole number of the smallest units.  Every operation on doubles
has one place for an answer: that of the double nearest to the exact result (`Binary64.place`), with
everything beyond the largest double at the place of the infinities.  So statements about arithmetic
come down to exact results, and to `place_mono`: a larger exact result has no smaller place.

* `place_mono`, `place_of_holds` — rounding keeps the order and what a double holds.
* `place_close` — how far a place is from the exact result.
* `le_iff`, `lt_iff`, `rank_clamp` — comparisons are comparisons of places.
-/

set_option autoImplicit false

namespace MaterialInspection.Binary64

open Number

seal unitsPerOne unitsLimit twoTo

/-! ## Signs -/

theorem natAbs_signed (negative : Bool) (units : Nat) : (signed negative units).natAbs = units := by
  cases negative with
  | true => exact (Int.natAbs_neg _).trans (Int.natAbs_natCast units)
  | false => exact Int.natAbs_natCast units

theorem signed_zero (negative : Bool) : signed negative 0 = 0 := by
  cases negative <;> rfl

theorem signed_mul (s t : Bool) (u v : Nat) :
    signed s u * signed t v = signed (s != t) (u * v) := by
  cases s <;> cases t
  case false.false => rfl
  case false.true => exact Int.mul_neg (u : Int) v
  case true.false => exact Int.neg_mul (u : Int) v
  case true.true => exact Int.neg_mul_neg (u : Int) v

theorem signed_mul_natCast (s : Bool) (m n : Nat) :
    signed s m * (n : Int) = signed s (m * n) := by
  have := signed_mul s false m n
  rwa [Bool.bne_false] at this

theorem signed_natAbs (n : Int) : signed (decide (n < 0)) n.natAbs = n := by
  unfold signed
  split
  · rename_i h
    rw [decide_eq_true_eq] at h
    omega
  · rename_i h
    rw [decide_eq_true_eq] at h
    omega

/-! ## Rounding to a place -/

/-- The place of the double nearest to a number of units. -/
def place (num : Int) (den : Nat) : Int :=
  signed (decide (num < 0)) (min (nearest num.natAbs den) unitsLimit)

theorem place_of_nonneg {num : Int} (h : 0 ≤ num) (den : Nat) :
    place num den = (min (nearest num.natAbs den) unitsLimit : Nat) := by
  have hs : decide (num < 0) = false := decide_eq_false (Int.not_lt.2 h)
  unfold place
  rw [hs]
  rfl

theorem place_neg (num : Int) (den : Nat) : place (-num) den = -place num den := by
  unfold place
  rw [Int.natAbs_neg]
  rcases Int.lt_trichotomy num 0 with h | h | h
  · rw [decide_eq_true h, decide_eq_false (show ¬-num < 0 by omega)]
    simp [signed]
  · subst h
    simp [nearest_zero, signed]
  · rw [decide_eq_true (show -num < 0 by omega), decide_eq_false (show ¬num < 0 by omega)]
    simp [signed]

theorem place_signed (negative : Bool) (num den : Nat) :
    place (signed negative num) den = signed negative (min (nearest num den) unitsLimit) := by
  have hpos : place (num : Int) den = (min (nearest num den) unitsLimit : Nat) := by
    rw [place_of_nonneg (Int.natCast_nonneg num), Int.natAbs_natCast]
  cases negative with
  | false => exact hpos
  | true =>
    show place (-(num : Int)) den = -((min (nearest num den) unitsLimit : Nat) : Int)
    rw [place_neg, hpos]

theorem place_nonneg {num : Int} (h : 0 ≤ num) (den : Nat) : 0 ≤ place num den := by
  rw [place_of_nonneg h]
  exact Int.natCast_nonneg _

theorem place_zero (den : Nat) : place 0 den = 0 := by
  unfold place
  rw [Int.natAbs_zero, nearest_zero, Nat.zero_min, signed_zero]

theorem place_nonpos {num : Int} (h : num ≤ 0) (den : Nat) : place num den ≤ 0 := by
  have := place_nonneg (show 0 ≤ -num by omega) den
  rw [place_neg] at this
  omega

/-- No place is beyond those of the infinities. -/
theorem place_bounds (num : Int) (den : Nat) :
    -(unitsLimit : Int) ≤ place num den ∧ place num den ≤ unitsLimit := by
  have habs : (place num den).natAbs ≤ unitsLimit := by
    unfold place
    rw [natAbs_signed]
    exact Nat.min_le_right _ _
  omega

theorem place_mono_of_nonneg {x y : Int} {b d : Nat} (hb : 0 < b) (hd : 0 < d) (hx : 0 ≤ x)
    (hy : 0 ≤ y) (h : x * d ≤ y * b) : place x b ≤ place y d := by
  have hn : x.natAbs * d ≤ y.natAbs * b := by
    have h1 : ((x.natAbs * d : Nat) : Int) = x * d := by
      rw [Int.natCast_mul, Int.natAbs_of_nonneg hx]
    have h2 : ((y.natAbs * b : Nat) : Int) = y * b := by
      rw [Int.natCast_mul, Int.natAbs_of_nonneg hy]
    omega
  have hm := nearest_mono hb hd hn
  rw [place_of_nonneg hx, place_of_nonneg hy]
  omega

/-- **A larger exact result has no smaller place.** -/
theorem place_mono {x y : Int} {b d : Nat} (hb : 0 < b) (hd : 0 < d) (h : x * d ≤ y * b) :
    place x b ≤ place y d := by
  have hb' : (0 : Int) < b := by omega
  have hd' : (0 : Int) < d := by omega
  rcases Int.lt_or_le x 0 with hx | hx
  · have hnx := place_nonpos (Int.le_of_lt hx) b
    rcases Int.lt_or_le y 0 with hy | hy
    · have hm := place_mono_of_nonneg hd hb (show 0 ≤ -y by omega) (show 0 ≤ -x by omega)
        (by rw [Int.neg_mul, Int.neg_mul]; omega)
      rw [place_neg, place_neg] at hm
      omega
    · exact Int.le_trans hnx (place_nonneg hy d)
  · rcases Int.lt_or_le y 0 with hy | hy
    · have h1 : 0 ≤ x * d := Int.mul_nonneg hx (by omega)
      have h2 : y * b < 0 := Int.mul_neg_of_neg_of_pos hy hb'
      omega
    · exact place_mono_of_nonneg hb hd hx hy h

/-- The place depends on the quotient alone. -/
theorem place_congr {x y : Int} {b d : Nat} (hb : 0 < b) (hd : 0 < d) (h : x * d = y * b) :
    place x b = place y d :=
  Int.le_antisymm (place_mono hb hd (Int.le_of_eq h)) (place_mono hd hb (Int.le_of_eq h.symm))

/-- Rounding keeps the order. -/
theorem place_le_place {x y : Int} {d : Nat} (hd : 0 < d) (h : x ≤ y) : place x d ≤ place y d :=
  place_mono hd hd (Int.mul_le_mul_of_nonneg_right h (Int.natCast_nonneg d))

/-- What a double holds keeps its place. -/
theorem place_of_holds {n : Int} (h : Holds n.natAbs) : place n 1 = n := by
  have hn := nearest_of_dvd h.significant
  have hb := h.below
  unfold place
  rw [hn, Nat.min_eq_left (Nat.le_of_lt hb), signed_natAbs]

theorem place_close {num : Int} {den k : Nat} (hden : 0 < den) (hk : 0 < k)
    (h : num.natAbs ≤ k * twoTo 53 * den) (hlimit : k * twoTo 53 ≤ unitsLimit) :
    place num den * den ≤ num + (k * den : Nat) ∧ num ≤ place num den * den + (k * den : Nat) := by
  have hle := nearest_le_limit hden (Nat.le_trans h (Nat.mul_le_mul_right den hlimit))
  have hclose := nearest_close hden hk h
  have hnum := signed_natAbs num
  unfold place
  rw [Nat.min_eq_left hle, signed_mul_natCast]
  generalize nearest num.natAbs den * den = n at hclose ⊢
  generalize decide (num < 0) = s at hnum ⊢
  cases s with
  | false =>
    have hm : signed false num.natAbs = num.natAbs := rfl
    have hn : signed false n = n := rfl
    omega
  | true =>
    have hm : signed true num.natAbs = -(num.natAbs : Int) := rfl
    have hn : signed true n = -(n : Int) := rfl
    omega

theorem place_close_of_lt {num : Int} (hnum : 0 ≤ num) (h : num < (twoTo 53 * unitsPerOne : Nat)) :
    2 * num ≤ 2 * place num 1 + unitsPerOne := by
  have hbelow : num.natAbs < twoTo 53 * unitsPerOne := by omega
  have hheld := (holds_mul_unitsPerOne (Nat.le_refl (twoTo 53))).below
  have hlimit := @nearest_le_limit num.natAbs 1 (by decide) (by omega)
  have hclose := nearest_close_of_lt hbelow
  rw [place_of_nonneg hnum, Nat.min_eq_left hlimit]
  omega

theorem place_within {x : Int} {k : Nat} (hk : k ≤ twoTo 53) (h : x.natAbs ≤ k * unitsPerOne) :
    (place x 1).natAbs ≤ k * unitsPerOne := by
  have hheld : place ((k * unitsPerOne : Nat) : Int) 1 = ((k * unitsPerOne : Nat) : Int) :=
    place_of_holds (holds_mul_unitsPerOne hk)
  have hhigh := place_le_place (d := 1) (by decide) (show x ≤ (k * unitsPerOne : Nat) by omega)
  have hlow := place_le_place (d := 1) (by decide) (show -((k * unitsPerOne : Nat) : Int) ≤ x by omega)
  rw [place_neg] at hlow
  rw [hheld] at hlow hhigh
  omega

/-! ## Finite doubles -/

/-- A finite double at a place. -/
structure At (x : Binary64) (r : Int) : Prop where
  finite : x.isFinite = true
  rank : x.rank = some r

theorem At.eq_finite {x : Binary64} {r : Int} (h : At x r) :
    ∃ s u, ∃ hu : Holds u, x = .finite s u hu ∧ r = signed s u := by
  obtain ⟨hf, hr⟩ := h
  cases x with
  | nan => cases hf
  | infinite s => cases hf
  | finite s u hu =>
    cases hr
    exact ⟨s, u, hu, rfl, rfl⟩

theorem at_of_finite {x : Binary64} (h : x.isFinite = true) : ∃ r, At x r := by
  cases x with
  | nan => cases h
  | infinite s => cases h
  | finite s u hu => exact ⟨signed s u, rfl, rfl⟩

theorem at_finite (s : Bool) (u : Nat) (hu : Holds u) : At (.finite s u hu) (signed s u) := ⟨rfl, rfl⟩

theorem At.unique {x : Binary64} {r s : Int} (hr : At x r) (hs : At x s) : r = s :=
  Option.some.inj (hr.rank.symm.trans hs.rank)

theorem At.holds {x : Binary64} {r : Int} (h : At x r) : Holds r.natAbs := by
  obtain ⟨s, u, hu, _, rfl⟩ := h.eq_finite
  rw [natAbs_signed]
  exact hu

theorem At.bounds {x : Binary64} {r : Int} (h : At x r) :
    -(unitsLimit : Int) < r ∧ r < unitsLimit := by
  have := h.holds.below
  omega

theorem At.place_eq {x : Binary64} {r : Int} (h : At x r) : place r 1 = r := place_of_holds h.holds

/-- A double with a place between those of the infinities is finite. -/
theorem at_of_rank {x : Binary64} {r : Int} (h : x.rank = some r) (hlow : -(unitsLimit : Int) < r)
    (hhigh : r < unitsLimit) : At x r := by
  cases x with
  | nan => cases h
  | infinite s =>
    unfold rank at h
    cases h
    cases s with
    | false => exact absurd hhigh (Int.lt_irrefl _)
    | true => exact absurd hlow (Int.lt_irrefl _)
  | finite s u hu => exact ⟨rfl, h⟩

/-- The places of the infinities are theirs alone. -/
theorem eq_infinite_of_rank {x : Binary64} {negative : Bool}
    (h : x.rank = some (signed negative unitsLimit)) : x = .infinite negative := by
  have hpos := unitsLimit_pos
  cases x with
  | nan => cases h
  | infinite s =>
    have hs := Option.some.inj h
    cases s
    case false =>
      cases negative
      case false => rfl
      case true =>
        simp only [signed, Bool.false_eq_true, if_false, if_true] at hs
        omega
    case true =>
      cases negative
      case false =>
        simp only [signed, Bool.false_eq_true, if_false, if_true] at hs
        omega
      case true => rfl
  | finite s u hu =>
    have habs := congrArg Int.natAbs (Option.some.inj h)
    rw [natAbs_signed, natAbs_signed] at habs
    exact absurd hu.below (by omega)

theorem isNaN_of_rank {x : Binary64} {r : Int} (h : x.rank = some r) : x.isNaN = false := by
  cases x with
  | nan => cases h
  | infinite s => rfl
  | finite s u hu => rfl

theorem isNaN_of_finite {x : Binary64} (h : x.isFinite = true) : x.isNaN = false := by
  obtain ⟨_, hx⟩ := at_of_finite h
  exact isNaN_of_rank hx.rank

theorem at_within {x : Binary64} {r : Int} {k : Nat} (hk : k ≤ twoTo 53)
    (hx : x.rank = some (place r 1)) (h : r.natAbs ≤ k * unitsPerOne) : At x (place r 1) := by
  have hwithin := place_within hk h
  have hbelow := (holds_mul_unitsPerOne hk).below
  exact at_of_rank hx (by omega) (by omega)

/-! ## Comparisons -/

variable {x y : Binary64} {r s : Int}

theorem le_iff (hx : x.rank = some r) (hy : y.rank = some s) : x ≤ y ↔ r ≤ s := by
  show x.le y = true ↔ _
  simp only [le, hx, hy, decide_eq_true_eq]

theorem lt_iff (hx : x.rank = some r) (hy : y.rank = some s) : x < y ↔ r < s := by
  show x.lt y = true ↔ _
  simp only [lt, hx, hy, decide_eq_true_eq]

theorem le_trans {z : Binary64} (hxy : x ≤ y) (hyz : y ≤ z) : x ≤ z := by
  obtain ⟨a, b, ha, hb, hab⟩ := le_iff_rank.1 hxy
  obtain ⟨b', c, hb', hc, hbc⟩ := le_iff_rank.1 hyz
  rw [hb] at hb'
  cases hb'
  exact (le_iff ha hc).2 (Int.le_trans hab hbc)

theorem same_iff_of_rank (hx : x.rank = some r) (hy : y.rank = some s) :
    x.same y = true ↔ r = s := by
  simp only [same, hx, hy, decide_eq_true_eq]

theorem same_iff {a b : Binary64} : a.same b = true ↔ ∃ n, a.rank = some n ∧ b.rank = some n := by
  unfold same
  split
  · rename_i x y hx hy
    rw [hx, hy, decide_eq_true_eq]
    constructor
    · rintro rfl
      exact ⟨x, rfl, rfl⟩
    · rintro ⟨n, ha, hb⟩
      cases ha
      cases hb
      rfl
  · rename_i h
    constructor
    · intro hf
      cases hf
    · rintro ⟨n, ha, hb⟩
      exact absurd hb (h n n ha)

theorem same_symm {a b : Binary64} (h : a.same b = true) : b.same a = true := by
  obtain ⟨n, ha, hb⟩ := same_iff.1 h
  exact same_iff.2 ⟨n, hb, ha⟩

theorem same_self {a : Binary64} (h : a.isNaN = false) : a.same a = true := by
  cases a with
  | nan => cases h
  | infinite negative => exact same_iff.2 ⟨_, rfl, rfl⟩
  | finite negative units holds => exact same_iff.2 ⟨_, rfl, rfl⟩

theorem rank_clamp {lo hi : Binary64} {l h : Int} (hx : x.rank = some r) (hlo : lo.rank = some l)
    (hhi : hi.rank = some h) (hle : l ≤ h) : (x.clamp lo hi).rank = some (max l (min h r)) := by
  unfold clamp
  split
  · rename_i hc
    rw [lt_iff hx hlo] at hc
    rw [hlo, Int.max_eq_left (by omega)]
  · rename_i hlow
    rw [lt_iff hx hlo] at hlow
    split
    · rename_i hc
      rw [lt_iff hhi hx] at hc
      rw [hhi, Int.min_eq_left (by omega), Int.max_eq_right hle]
    · rename_i hhigh
      rw [lt_iff hhi hx] at hhigh
      rw [hx, Int.min_eq_right (by omega), Int.max_eq_right (by omega)]

theorem finite_clamp {lo hi : Binary64} (hx : x.isFinite = true) (hlo : lo.isFinite = true)
    (hhi : hi.isFinite = true) : (x.clamp lo hi).isFinite = true := by
  unfold clamp
  split
  · exact hlo
  · split
    · exact hhi
    · exact hx

end MaterialInspection.Binary64
