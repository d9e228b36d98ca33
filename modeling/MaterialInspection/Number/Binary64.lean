import MaterialInspection.Number.Rounding

/-!
# Binary64 numbers

A measured value is a double.  Every finite double is a sign and a whole number of units of
`2 ^ -1074`, the smallest positive double, so the arithmetic here is exact arithmetic on natural
numbers followed by one rounding (`ofRatio`), and comparisons are comparisons of integers
(`rank`).  The type holds the doubles and nothing else: a finite one carries the fact that its
magnitude has at most 53 significant bits and is below the overflow bound.

Principal statements: `ofRatio_units` (a magnitude that a double holds is kept by rounding) and
the `rank` lemmas, which move comparisons to the integers.
-/

set_option autoImplicit false

namespace MaterialInspection

open Number

/-- The number of units in the number one. -/
def unitsPerOne : Nat := twoTo 1074

/-- The first magnitude, in units, that is too large for a double: `2 ^ 1024`. -/
def unitsLimit : Nat := twoTo 2098

/-- A magnitude that a double holds. -/
structure Binary64.Holds (units : Nat) : Prop where
  below : units < unitsLimit
  significant : spacing units ∣ units

/-- A binary64 number; zero has a sign. -/
inductive Binary64
  | nan
  | infinite (negative : Bool)
  | finite (negative : Bool) (units : Nat) (holds : Binary64.Holds units)
  deriving DecidableEq

namespace Binary64

theorem unitsPerOne_pos : 0 < unitsPerOne := twoTo_pos _

theorem unitsLimit_pos : 0 < unitsLimit := twoTo_pos _

theorem holds_zero : Holds 0 := ⟨unitsLimit_pos, by simp⟩

/-- The zero of a sign. -/
def zero (negative : Bool) : Binary64 := .finite negative 0 holds_zero

instance : Inhabited Binary64 := ⟨zero false⟩

/-- The double nearest to `num / den` units with the given sign, infinite beyond the largest. -/
def ofRatio (negative : Bool) (num den : Nat) : Binary64 :=
  if h : nearest num den < unitsLimit then
    .finite negative (nearest num den) ⟨h, spacing_dvd_nearest num den⟩
  else .infinite negative

/-- A magnitude that a double holds is kept by rounding. -/
theorem ofRatio_units (negative : Bool) {units : Nat} (h : Holds units) :
    ofRatio negative units 1 = .finite negative units h := by
  have hn := nearest_of_dvd h.significant
  simp [ofRatio, hn, h.below]

/-- The double nearest to a whole number of units; no units are the positive zero. -/
def ofUnits (units : Int) : Binary64 := ofRatio (decide (units < 0)) units.natAbs 1

/-- The double nearest to a whole number. -/
def ofInt (n : Int) : Binary64 := ofUnits (n * unitsPerOne)

/-- The double nearest to `digits * 10 ^ exponent`.  The two shortcuts only save work: such a
number is beyond the largest double, or rounds to zero. -/
def ofDecimal (negative : Bool) (digits : Nat) : Int → Binary64
  | .ofNat e =>
    if digits = 0 then zero negative
    else if 310 ≤ e then .infinite negative
    else ofRatio negative (digits * tenTo e * unitsPerOne) 1
  | .negSucc e =>
    if digits.log2 + 1081 ≤ 3 * (e + 1) then zero negative
    else ofRatio negative (digits * unitsPerOne) (tenTo (e + 1))

instance (n : Nat) : OfNat Binary64 n := ⟨ofInt n⟩

instance : OfScientific Binary64 where
  ofScientific digits negativeExponent exponent :=
    ofDecimal false digits (if negativeExponent then -(exponent : Int) else exponent)

/-! ## Classes and order -/

def isNaN : Binary64 → Bool
  | .nan => true
  | _ => false

def isFinite : Binary64 → Bool
  | .finite _ _ _ => true
  | _ => false

/-- A magnitude with a sign. -/
def signed (negative : Bool) (units : Nat) : Int := if negative then -(units : Int) else units

/-- The place of a number in the order, in units; the infinities stand just outside the finite
numbers, both zeros share a place, and a number that is not one has none. -/
def rank : Binary64 → Option Int
  | .nan => none
  | .infinite negative => some (signed negative unitsLimit)
  | .finite negative units _ => some (signed negative units)

/-- Less or equal; false if either side is not a number. -/
def le (a b : Binary64) : Bool :=
  match a.rank, b.rank with
  | some x, some y => decide (x ≤ y)
  | _, _ => false

/-- Less; false if either side is not a number. -/
def lt (a b : Binary64) : Bool :=
  match a.rank, b.rank with
  | some x, some y => decide (x < y)
  | _, _ => false

/-- Equal as numbers: the two zeros are, and what is not a number is equal to nothing. -/
def same (a b : Binary64) : Bool :=
  match a.rank, b.rank with
  | some x, some y => decide (x = y)
  | _, _ => false

instance : LE Binary64 := ⟨fun a b => a.le b = true⟩

instance : LT Binary64 := ⟨fun a b => a.lt b = true⟩

instance (a b : Binary64) : Decidable (a ≤ b) := inferInstanceAs (Decidable (a.le b = true))

instance (a b : Binary64) : Decidable (a < b) := inferInstanceAs (Decidable (a.lt b = true))

theorem le_iff_rank {a b : Binary64} :
    a ≤ b ↔ ∃ x y, a.rank = some x ∧ b.rank = some y ∧ x ≤ y := by
  show a.le b = true ↔ _
  unfold le
  split
  · rename_i x y hx hy
    simp [hx, hy]
  · rename_i h
    constructor
    · intro hf; cases hf
    · rintro ⟨x, y, hx, hy, _⟩
      exact absurd hy (h x y hx)

theorem lt_iff_rank {a b : Binary64} :
    a < b ↔ ∃ x y, a.rank = some x ∧ b.rank = some y ∧ x < y := by
  show a.lt b = true ↔ _
  unfold lt
  split
  · rename_i x y hx hy
    simp [hx, hy]
  · rename_i h
    constructor
    · intro hf; cases hf
    · rintro ⟨x, y, hx, hy, _⟩
      exact absurd hy (h x y hx)

/-! ## Arithmetic -/

/-- The same magnitude with the other sign. -/
def neg : Binary64 → Binary64
  | .nan => .nan
  | .infinite s => .infinite (!s)
  | .finite s u h => .finite (!s) u h

/-- The magnitude. -/
def abs : Binary64 → Binary64
  | .nan => .nan
  | .infinite _ => .infinite false
  | .finite _ u h => .finite false u h

/-- The rounded sum.  Opposite infinities have none; a zero sum is negative only when both
terms are. -/
def add : Binary64 → Binary64 → Binary64
  | .nan, _ => .nan
  | _, .nan => .nan
  | .infinite s, .infinite t => if s = t then .infinite s else .nan
  | .infinite s, .finite _ _ _ => .infinite s
  | .finite _ _ _, .infinite t => .infinite t
  | .finite s u _, .finite t v _ =>
    let sum := signed s u + signed t v
    if sum = 0 then zero (s && t) else ofUnits sum

/-- The rounded difference. -/
def sub (a b : Binary64) : Binary64 := add a (neg b)

/-- The rounded product; an infinity times zero has none. -/
def mul : Binary64 → Binary64 → Binary64
  | .nan, _ => .nan
  | _, .nan => .nan
  | .infinite s, .infinite t => .infinite (s != t)
  | .infinite s, .finite t v _ => if v = 0 then .nan else .infinite (s != t)
  | .finite s u _, .infinite t => if u = 0 then .nan else .infinite (s != t)
  | .finite s u _, .finite t v _ => ofRatio (s != t) (u * v) unitsPerOne

/-- The rounded quotient; zero by zero and infinity by infinity have none. -/
def div : Binary64 → Binary64 → Binary64
  | .nan, _ => .nan
  | _, .nan => .nan
  | .infinite _, .infinite _ => .nan
  | .infinite s, .finite t _ _ => .infinite (s != t)
  | .finite s _ _, .infinite t => zero (s != t)
  | .finite s u _, .finite t v _ =>
    if v = 0 then (if u = 0 then .nan else .infinite (s != t))
    else ofRatio (s != t) (u * unitsPerOne) v

instance : Neg Binary64 := ⟨neg⟩

instance : Add Binary64 := ⟨add⟩

instance : Sub Binary64 := ⟨sub⟩

instance : Mul Binary64 := ⟨mul⟩

instance : Div Binary64 := ⟨div⟩

/-! ## Whole numbers -/

/-- The largest whole number not above; the sign of zero is kept. -/
def floor : Binary64 → Binary64
  | .finite s u _ =>
    ofRatio s ((if s then (u + (unitsPerOne - 1)) / unitsPerOne else u / unitsPerOne) * unitsPerOne) 1
  | x => x

/-- The smallest whole number not below; the sign of zero is kept. -/
def ceil : Binary64 → Binary64
  | .finite s u _ =>
    ofRatio s ((if s then u / unitsPerOne else (u + (unitsPerOne - 1)) / unitsPerOne) * unitsPerOne) 1
  | x => x

/-- The whole part of a finite number, toward zero. -/
def wholePart? : Binary64 → Option Int
  | .finite s u _ => some (signed s (u / unitsPerOne))
  | _ => none

/-- A finite number without a fraction. -/
def isWhole : Binary64 → Bool
  | .finite _ u _ => u % unitsPerOne == 0
  | _ => false

/-- The nearer end of `[lo, hi]` for a number outside it, the number itself otherwise. -/
def clamp (x lo hi : Binary64) : Binary64 := if x < lo then lo else if hi < x then hi else x

/-! ## Bits -/

/-- The sign, exponent and fraction fields as one 64-bit number; none for what is not a number,
which has many. -/
def bits? : Binary64 → Option Nat
  | .nan => none
  | .infinite s => some (signBit s + 2047 * twoTo 52)
  | .finite s u _ =>
    let shift := u.log2 - 52
    some (signBit s + if u < twoTo 52 then u else shift * twoTo 52 + u / twoTo shift)
where
  signBit (negative : Bool) : Nat := if negative then twoTo 63 else 0

end Binary64

end MaterialInspection
