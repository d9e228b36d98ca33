import MaterialInspection.Number.Binary64

/-!
# Numbers of 64 significant bits

Magnitudes with 64 significant bits and an exponent of any size, for products whose rounding shows
only when the result becomes a double.  A power of ten is multiplied in by hundreds, tens and ones of
its exponent, and each product is rounded.

Principal statements: `round_value` (a number of at most 64 bits is kept) and
`round_significand_le` (a rounded number has at most 64 significant bits).
-/

set_option autoImplicit false

namespace MaterialInspection

open Number

/-- The magnitude `significand * 2 ^ exponent`. -/
structure Extended where
  significand : Nat
  exponent : Int
  deriving DecidableEq, Repr

namespace Extended

/-- The number of 64 significant bits nearest to `n * 2 ^ exponent`. -/
def round (n : Nat) (exponent : Int) : Extended :=
  let excess := n.log2 - 63
  ⟨roundHalfEven n (twoTo excess), exponent + excess⟩

/-- A number of at most 64 bits is kept. -/
theorem round_value {n : Nat} (h : n < twoTo 64) (exponent : Int) :
    round n exponent = ⟨n, exponent⟩ := by
  have he : n.log2 - 63 = 0 := by
    by_cases hn : n = 0
    · simp [hn]
    · have := (log2_lt_iff hn).2 h
      omega
  have hr := roundHalfEven_mul n (show 0 < 1 by decide)
  simp only [Nat.mul_one] at hr
  simp [round, he, twoTo, hr]

/-- A rounded number has at most 64 significant bits. -/
theorem round_significand_le (n : Nat) (exponent : Int) :
    (round n exponent).significand ≤ twoTo 64 := by
  have hb := (roundHalfEven_bounds n (twoTo (n.log2 - 63))).2
  have hq : n / twoTo (n.log2 - 63) < twoTo 64 := by
    rw [Nat.div_lt_iff_lt_mul (twoTo_pos _), ← twoTo_add]
    exact Nat.lt_of_lt_of_le (lt_twoTo_log2_succ n) (twoTo_le_twoTo (by omega))
  exact Nat.le_trans hb hq

/-- A whole number. -/
def ofNat (n : Nat) : Extended := round n 0

/-- The reciprocal of a whole number. -/
def reciprocal (n : Nat) : Extended :=
  let places := n.log2 + 64
  ⟨roundHalfEven (twoTo places) n, -(places : Int)⟩

/-- The rounded product. -/
def mul (a b : Extended) : Extended :=
  round (a.significand * b.significand) (a.exponent + b.exponent)

/-- A number multiplied several times. -/
def mulTimes (x factor : Extended) : Nat → Extended
  | 0 => x
  | n + 1 => mulTimes (x.mul factor) factor n

/-- A number multiplied by factors that stand for an exponent of one hundred, ten and one, as often as
an exponent has them. -/
def mulBy (hundred ten one : Extended) (x : Extended) (exponent : Nat) : Extended :=
  let x := x.mulTimes hundred (exponent / 100)
  let x := x.mulTimes ten (exponent % 100 / 10)
  x.mulTimes one (exponent % 10)

/-- A number multiplied by a power of ten. -/
def mulTenTo (x : Extended) (exponent : Nat) : Extended :=
  mulBy (ofNat (tenTo 100)) (ofNat (tenTo 10)) (ofNat 10) x exponent

/-- A number divided by a power of ten. -/
def divTenTo (x : Extended) (exponent : Nat) : Extended :=
  mulBy (reciprocal (tenTo 100)) (reciprocal (tenTo 10)) (reciprocal 10) x exponent

/-- The largest finite double, in units. -/
def largestUnits : Nat := unitsLimit - twoTo 2045

/-- The double nearest to a magnitude with a sign, infinite for all that is above the largest. -/
def toBinary64 (negative : Bool) (x : Extended) : Binary64 :=
  let num := x.significand * unitsPerOne * twoTo x.exponent.toNat
  let den := twoTo (-x.exponent).toNat
  if largestUnits * den < num then .infinite negative else .ofRatio negative num den

end Extended

end MaterialInspection
