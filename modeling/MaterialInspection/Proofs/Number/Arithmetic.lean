import MaterialInspection.Proofs.Number.Place

/-!
# Arithmetic by places

The places of sums, products and quotients, and of the whole numbers next to a double.

* `rank_add`, `rank_sub`, `rank_mul`, `rank_div`, `rank_ofInt` — the places of results.
* `ceil_spec`, `floor_spec` — whole numbers next to a double are doubles.
* `ranked_add`, `ranked_mul`, `ceil_cases` — what is finite comes from what is finite.
* `at_add_between` — adding a number keeps what lies between in between.
-/

set_option autoImplicit false

namespace MaterialInspection.Binary64

open Number

seal unitsPerOne unitsLimit twoTo

variable {x y : Binary64} {r s : Int}

/-! ## The places of results -/

theorem rank_ofRatio (negative : Bool) (num den : Nat) :
    (ofRatio negative num den).rank = some (place (signed negative num) den) := by
  rw [place_signed]
  unfold ofRatio
  split
  · rename_i h
    rw [Nat.min_eq_left (Nat.le_of_lt h)]
    rfl
  · rename_i h
    rw [Nat.min_eq_right (Nat.not_lt.1 h)]
    rfl

theorem rank_ofUnits (n : Int) : (ofUnits n).rank = some (place n 1) := by
  unfold ofUnits
  rw [rank_ofRatio, signed_natAbs]

theorem rank_ofInt (n : Int) : (ofInt n).rank = some (place (n * unitsPerOne) 1) := rank_ofUnits _

theorem rank_neg {x : Binary64} {r : Int} (h : x.rank = some r) : (-x).rank = some (-r) := by
  cases x with
  | nan => cases h
  | infinite s =>
    cases h
    show some (signed (!s) unitsLimit) = _
    cases s <;> simp [signed]
  | finite s u hu =>
    cases h
    show some (signed (!s) u) = _
    cases s <;> simp [signed]

theorem at_neg {x : Binary64} {r : Int} (h : At x r) : At (-x) (-r) := by
  obtain ⟨s, u, hu, rfl, rfl⟩ := h.eq_finite
  exact ⟨rfl, rank_neg rfl⟩

theorem rank_abs {x : Binary64} {r : Int} (h : x.rank = some r) :
    x.abs.rank = some (r.natAbs : Int) := by
  cases x with
  | nan => cases h
  | infinite s =>
    cases h
    show some (unitsLimit : Int) = _
    rw [natAbs_signed]
  | finite s u hu =>
    cases h
    show some (u : Int) = _
    rw [natAbs_signed]

theorem rank_add (hx : At x r) (hy : At y s) : (x + y).rank = some (place (r + s) 1) := by
  obtain ⟨a, u, hu, rfl, rfl⟩ := hx.eq_finite
  obtain ⟨b, v, hv, rfl, rfl⟩ := hy.eq_finite
  show (add _ _).rank = _
  unfold add
  dsimp only
  split
  · rename_i h
    rw [h]
    show some (signed (a && b) 0) = some (place 0 1)
    rw [signed_zero, place_zero]
  · exact rank_ofUnits _

theorem rank_sub (hx : At x r) (hy : At y s) : (x - y).rank = some (place (r - s) 1) := by
  rw [Int.sub_eq_add_neg]
  exact rank_add hx (at_neg hy)

theorem rank_mul (hx : At x r) (hy : At y s) :
    (x * y).rank = some (place (r * s) unitsPerOne) := by
  obtain ⟨a, u, hu, rfl, rfl⟩ := hx.eq_finite
  obtain ⟨b, v, hv, rfl, rfl⟩ := hy.eq_finite
  show (ofRatio (a != b) (u * v) unitsPerOne).rank = _
  rw [rank_ofRatio, signed_mul]

/-- Dividing by a positive double. -/
theorem rank_div {n : Nat} (hx : At x r) (hy : At y n) (hn : 0 < n) :
    (x / y).rank = some (place (r * unitsPerOne) n) := by
  obtain ⟨a, u, hu, rfl, rfl⟩ := hx.eq_finite
  obtain ⟨b, v, hv, rfl, hv'⟩ := hy.eq_finite
  have hb : b = false ∧ v = n := by
    cases b with
    | false => exact ⟨rfl, (Int.ofNat_inj.1 hv').symm⟩
    | true =>
      have : signed true v = -(v : Int) := rfl
      omega
  obtain ⟨rfl, rfl⟩ := hb
  have hquot : (finite a u hu / finite false v hv) = ofRatio (a != false) (u * unitsPerOne) v :=
    if_neg (Nat.ne_of_gt hn)
  have hmul : signed a u * (unitsPerOne : Int) = signed (a != false) (u * unitsPerOne) :=
    signed_mul a false u unitsPerOne
  rw [hquot, rank_ofRatio, hmul]

/-! ## Whole numbers -/

theorem at_ofUnits {n : Int} (h : Holds n.natAbs) : At (ofUnits n) n := by
  have hrank := rank_ofUnits n
  rw [place_of_holds h] at hrank
  have := h.below
  exact at_of_rank hrank (by omega) (by omega)

/-- Whole numbers up to `2 ^ 53` are doubles. -/
theorem at_ofInt {n : Int} (h : n.natAbs ≤ twoTo 53) : At (ofInt n) (n * unitsPerOne) := by
  apply at_ofUnits
  rw [Int.natAbs_mul, Int.natAbs_natCast]
  exact holds_mul_unitsPerOne h

theorem at_zero : At 0 0 := by
  have h := at_ofInt (n := 0) (Nat.zero_le _)
  rwa [Int.zero_mul] at h

theorem at_one : At 1 unitsPerOne := by
  have h := at_ofInt (n := 1) (twoTo_pos 53)
  rwa [Int.one_mul] at h

theorem at_two : At 2 ((2 * unitsPerOne : Nat) : Int) := by
  have h := at_ofInt (n := 2) (by rw [twoTo_53]; decide)
  rwa [show (2 : Int) * unitsPerOne = ((2 * unitsPerOne : Nat) : Int) from rfl] at h

theorem at_hundred : At 100 ((100 * unitsPerOne : Nat) : Int) :=
  at_ofInt (n := 100) (by rw [twoTo_53]; decide)

theorem at_whole (s : Bool) {m : Nat} (h : Holds (m * unitsPerOne)) :
    At (ofRatio s (m * unitsPerOne) 1) (signed s m * unitsPerOne) ∧
      (ofRatio s (m * unitsPerOne) 1).wholePart? = some (signed s m) := by
  rw [ofRatio_units s h, signed_mul_natCast]
  refine ⟨at_finite _ _ _, ?_⟩
  unfold wholePart?
  dsimp only
  rw [Nat.mul_div_cancel m unitsPerOne_pos]

/-- The multiple that `ceil` takes of a step. -/
def ceilSteps (s : Bool) (u n : Nat) : Nat := if s then u / n else (u + (n - 1)) / n

/-- The multiple that `floor` takes of a step. -/
def floorSteps (s : Bool) (u n : Nat) : Nat := if s then (u + (n - 1)) / n else u / n

theorem ceilSteps_bounds (s : Bool) (u : Nat) {n : Nat} (h : 0 < n) :
    signed s u ≤ signed s (ceilSteps s u n) * n ∧
      signed s (ceilSteps s u n) * n < signed s u + n := by
  have b1 := div_mul_bounds u h
  have b2 := div_mul_bounds (u + (n - 1)) h
  rw [signed_mul_natCast]
  cases s with
  | false =>
    show ((u : Int) ≤ ((u + (n - 1)) / n * n : Nat)) ∧ (((u + (n - 1)) / n * n : Nat) : Int) < u + n
    omega
  | true =>
    show (-(u : Int) ≤ -((u / n * n : Nat) : Int)) ∧ -((u / n * n : Nat) : Int) < -(u : Int) + n
    omega

theorem floorSteps_bounds (s : Bool) (u : Nat) {n : Nat} (h : 0 < n) :
    signed s (floorSteps s u n) * n ≤ signed s u ∧
      signed s u < signed s (floorSteps s u n) * n + n := by
  have b1 := div_mul_bounds u h
  have b2 := div_mul_bounds (u + (n - 1)) h
  rw [signed_mul_natCast]
  cases s with
  | false =>
    show (((u / n * n : Nat) : Int) ≤ u) ∧ (u : Int) < ((u / n * n : Nat) : Int) + n
    omega
  | true =>
    show (-(((u + (n - 1)) / n * n : Nat) : Int) ≤ -(u : Int)) ∧
      -(u : Int) < -(((u + (n - 1)) / n * n : Nat) : Int) + n
    omega

theorem holds_steps (s : Bool) {u : Nat} (h : Holds u) :
    Holds (ceilSteps s u unitsPerOne * unitsPerOne) ∧
      Holds (floorSteps s u unitsPerOne * unitsPerOne) := by
  obtain ⟨hdown, hup⟩ := holds_whole h
  unfold ceilSteps floorSteps
  cases s with
  | false =>
    simp only [Bool.false_eq_true, if_false]
    exact ⟨hup, hdown⟩
  | true =>
    simp only [if_true]
    exact ⟨hdown, hup⟩

theorem ceil_finite (s : Bool) (u : Nat) (hu : Holds u) :
    (finite s u hu).ceil = ofRatio s (ceilSteps s u unitsPerOne * unitsPerOne) 1 := by
  rw [ceil, ceilSteps]

theorem floor_finite (s : Bool) (u : Nat) (hu : Holds u) :
    (finite s u hu).floor = ofRatio s (floorSteps s u unitsPerOne * unitsPerOne) 1 := by
  rw [floor, floorSteps]

/-- The smallest whole number not below a double. -/
theorem ceil_spec (h : At x r) :
    ∃ n : Int, At x.ceil (n * unitsPerOne) ∧ x.ceil.wholePart? = some n ∧
      r ≤ n * unitsPerOne ∧ n * unitsPerOne < r + unitsPerOne := by
  obtain ⟨s, u, hu, rfl, rfl⟩ := h.eq_finite
  obtain ⟨hat, hwhole⟩ := at_whole s (holds_steps s hu).1
  rw [ceil_finite]
  exact ⟨_, hat, hwhole, ceilSteps_bounds s u unitsPerOne_pos⟩

/-- The largest whole number not above a double. -/
theorem floor_spec (h : At x r) :
    ∃ n : Int, At x.floor (n * unitsPerOne) ∧ x.floor.wholePart? = some n ∧
      n * unitsPerOne ≤ r ∧ r < n * unitsPerOne + unitsPerOne := by
  obtain ⟨s, u, hu, rfl, rfl⟩ := h.eq_finite
  obtain ⟨hat, hwhole⟩ := at_whole s (holds_steps s hu).2
  rw [floor_finite]
  exact ⟨_, hat, hwhole, floorSteps_bounds s u unitsPerOne_pos⟩

/-! ## Infinities -/

/-- What is finite comes from what is finite. -/
theorem finite_of_add (h : (x + y).isFinite = true) :
    x.isFinite = true ∧ y.isFinite = true := by
  cases x with
  | nan => cases h
  | infinite s =>
    cases y with
    | nan => cases h
    | infinite t =>
      have hsum : (infinite s + infinite t).isFinite = false := by cases s <;> cases t <;> rfl
      rw [hsum] at h
      cases h
    | finite t v hv => cases h
  | finite s u hu =>
    cases y with
    | nan => cases h
    | infinite t => cases h
    | finite t v hv => exact ⟨rfl, rfl⟩

/-- A sum with what lies between two numbers lies between their sums, if these are finite. -/
theorem at_add_between {base y z : Binary64} {b r s : Int} {q : Int} (hb : At base b) (hx : At x q)
    (hy : At y r) (hz : At z s) (hqr : q ≤ r) (hrs : r ≤ s) (hlow : (base + x).isFinite = true)
    (hhigh : (base + z).isFinite = true) :
    ∃ k m n, At (base + x) k ∧ At (base + y) m ∧ At (base + z) n ∧ k ≤ m ∧ m ≤ n := by
  have hk := At.mk hlow (rank_add hb hx)
  have hn := At.mk hhigh (rank_add hb hz)
  have hkm := place_le_place (d := 1) (by decide) (show b + q ≤ b + r by omega)
  have hmn := place_le_place (d := 1) (by decide) (show b + r ≤ b + s by omega)
  have hkb := hk.bounds
  have hnb := hn.bounds
  exact ⟨_, _, _, hk, at_of_rank (rank_add hb hy) (by omega) (by omega), hn, hkm, hmn⟩

theorem ranked_add (hx : x.rank = some r) (hy : At y s) :
    ∃ q, (x + y).rank = some q ∧ ((x + y).isFinite = true → x.isFinite = true) := by
  cases x with
  | nan => cases hx
  | infinite a =>
    obtain ⟨b, v, hv, rfl, _⟩ := hy.eq_finite
    exact ⟨signed a unitsLimit, rfl, fun h => by cases h⟩
  | finite a u hu => exact ⟨_, rank_add ⟨rfl, hx⟩ hy, fun _ => rfl⟩

theorem ranked_mul (hx : x.rank = some r) (hy : At y s) (hs : 0 < s) :
    ∃ q, (x * y).rank = some q ∧ ((x * y).isFinite = true → x.isFinite = true) := by
  cases x with
  | nan => cases hx
  | infinite a =>
    obtain ⟨b, v, hv, rfl, rfl⟩ := hy.eq_finite
    have hv0 : v ≠ 0 := by
      rintro rfl
      rw [signed_zero] at hs
      exact Int.lt_irrefl 0 hs
    have hprod : infinite a * finite b v hv = infinite (a != b) := if_neg hv0
    rw [hprod]
    exact ⟨signed (a != b) unitsLimit, rfl, fun h => by cases h⟩
  | finite a u hu => exact ⟨_, rank_mul ⟨rfl, hx⟩ hy, fun _ => rfl⟩

/-- Rounding up to a whole number: infinities are kept. -/
theorem ceil_cases (hx : x.rank = some r) :
    (x.isFinite = true ∧ ∃ n : Int, At x.ceil (n * unitsPerOne) ∧ x.ceil.wholePart? = some n ∧
      r ≤ n * unitsPerOne ∧ n * unitsPerOne < r + unitsPerOne) ∨
    (x.isFinite = false ∧ x.ceil = x) := by
  cases x with
  | nan => cases hx
  | infinite a => exact Or.inr ⟨rfl, rfl⟩
  | finite a u hu => exact Or.inl ⟨rfl, ceil_spec ⟨rfl, hx⟩⟩

theorem floor_cases (hx : x.rank = some r) :
    (x.isFinite = true ∧ ∃ n : Int, At x.floor (n * unitsPerOne) ∧ x.floor.wholePart? = some n ∧
      n * unitsPerOne ≤ r ∧ r < n * unitsPerOne + unitsPerOne) ∨
    (x.isFinite = false ∧ x.floor = x) := by
  cases x with
  | nan => cases hx
  | infinite a => exact Or.inr ⟨rfl, rfl⟩
  | finite a u hu => exact Or.inl ⟨rfl, floor_spec ⟨rfl, hx⟩⟩

end MaterialInspection.Binary64
