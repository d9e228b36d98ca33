import Mathlib.Algebra.Order.Field.Basic
import Mathlib.Algebra.Order.Field.Rat
import Mathlib.Algebra.Ring.Int.Parity
import Mathlib.Tactic.Linarith
import Mathlib.Tactic.Positivity
import MaterialInspection.Proofs.Criterion.Literals
import MaterialInspection.Proofs.Number.Fixed

/-!
# Fixed decimals are exact

A double is a rational number, and so is a decimal literal.  The text of a finite double with a number
of decimals is the literal for its exact value rounded half to even: no digit of the value is lost
before that one rounding, however many there are on either side of the point.

* `HalfEven.mono` — rounding half to even is determined by the value, and keeps the order.
* `halfEven_scaledRank` — the exact value of a double is rounded once.
* `toFixed_rounds` — the text of a finite double is a literal without superfluous zeros for the rounded
  value, with a minus exactly when that value is negative.
* `toFixedChars_eq_withoutZeroSign` — a minus that stands before zeros only is the one left out.
-/

set_option autoImplicit false

namespace MaterialInspection

open Number

seal unitsPerOne unitsLimit twoTo tenTo

/-! ## Rounding of rationals -/

/-- A whole number next to a rational; a half goes to the even neighbour. -/
structure HalfEven (q : ℚ) (k : ℤ) : Prop where
  near : |q - k| ≤ 1 / 2
  tie : |q - k| = 1 / 2 → Even k

namespace HalfEven

variable {q r : ℚ} {k l : ℤ}

theorem neg (h : HalfEven q k) : HalfEven (-q) (-k) := by
  have hdist : |-q - ((-k : ℤ) : ℚ)| = |q - k| := by
    rw [Int.cast_neg, ← neg_sub', abs_neg]
  refine ⟨hdist ▸ h.near, fun htie => ?_⟩
  rw [hdist] at htie
  exact (h.tie htie).neg

/-- **Rounding half to even keeps the order.** -/
theorem mono (hk : HalfEven q k) (hl : HalfEven r l) (h : q ≤ r) : k ≤ l := by
  obtain ⟨hlow, _⟩ := abs_le.1 hk.near
  obtain ⟨_, hhigh⟩ := abs_le.1 hl.near
  by_contra hlt
  have hstep : (l : ℚ) + 1 ≤ k := by exact_mod_cast not_le.1 hlt
  -- both are the half between the two results, so that both results are even
  have hq : q - k = -(1 / 2) := by linarith
  have hr : r - l = 1 / 2 := by linarith
  have hnext : k = l + 1 := by
    have hcast : (k : ℚ) = l + 1 := by linarith
    exact_mod_cast hcast
  have hkeven : Even k := hk.tie (by rw [hq, abs_neg, abs_of_pos one_half_pos])
  have hleven : Even l := hl.tie (by rw [hr, abs_of_pos one_half_pos])
  rw [hnext, Int.even_add_one] at hkeven
  exact hkeven hleven

/-- No rational is rounded to two numbers. -/
theorem unique (hk : HalfEven q k) (hl : HalfEven q l) : k = l :=
  le_antisymm (hk.mono hl le_rfl) (hl.mono hk le_rfl)

end HalfEven

/-- Rounding a quotient of natural numbers is rounding half to even. -/
theorem halfEven_roundHalfEven (num : ℕ) {den : ℕ} (h : 0 < den) :
    HalfEven ((num : ℚ) / den) (roundHalfEven num den) := by
  have hden : (0 : ℚ) < den := Nat.cast_pos.2 h
  obtain ⟨hup, hdown⟩ := roundHalfEven_error num h
  have hhalf : ∀ k, 2 * num = (2 * k + 1) * den → Even (roundHalfEven num den) := fun k hk =>
    Nat.even_iff.2 (roundHalfEven_half h hk)
  generalize roundHalfEven num den = m at hup hdown hhalf ⊢
  have hdist : |(num : ℚ) / den - (m : ℤ)| = |(num : ℚ) - m * den| / den := by
    rw [Int.cast_natCast, div_sub' hden.ne', abs_div, abs_of_pos hden, mul_comm (den : ℚ)]
  constructor
  · have hupq : 2 * ((m : ℚ) * den) ≤ 2 * num + den := by exact_mod_cast hup
    have hdownq : 2 * (num : ℚ) ≤ 2 * (m * den) + den := by exact_mod_cast hdown
    rw [hdist, div_le_iff₀ hden, abs_le]
    constructor <;> linarith
  · intro htie
    rw [hdist, div_eq_iff hden.ne'] at htie
    rw [Int.even_coe_nat]
    rcases eq_or_eq_neg_of_abs_eq htie with habove | hbelow
    · apply hhalf m
      have hq : 2 * (num : ℚ) = (2 * m + 1) * den := by linarith
      exact_mod_cast hq
    · cases m with
      | zero => exact Even.zero
      | succ k =>
        apply hhalf k
        rw [Nat.cast_succ] at hbelow
        have hq : 2 * (num : ℚ) = (2 * k + 1) * den := by linarith
        exact_mod_cast hq

/-! ## Exact values -/

namespace Binary64

/-- The number that a finite double is. -/
def rational? : Binary64 → Option ℚ
  | .finite negative units _ => some (signed negative units / unitsPerOne)
  | _ => none

theorem exists_at_of_rational? {x : Binary64} {q : ℚ} (h : x.rational? = some q) :
    ∃ r, At x r ∧ q = r / unitsPerOne := by
  cases x with
  | nan => cases h
  | infinite s => cases h
  | finite s u hu =>
    cases h
    exact ⟨signed s u, ⟨rfl, rfl⟩, rfl⟩

/-- Doubles are in the order of the numbers that they are. -/
theorem le_iff_rational {x y : Binary64} {q r : ℚ} (hx : x.rational? = some q)
    (hy : y.rational? = some r) : x ≤ y ↔ q ≤ r := by
  obtain ⟨m, hm, rfl⟩ := exists_at_of_rational? hx
  obtain ⟨n, hn, rfl⟩ := exists_at_of_rational? hy
  have hone : (0 : ℚ) < unitsPerOne := Nat.cast_pos.2 unitsPerOne_pos
  rw [le_iff hm.rank hn.rank, div_le_div_iff_of_pos_right hone, Int.cast_le]

/-- **The exact value of a double is rounded once**, to a number of decimals. -/
theorem halfEven_scaledRank (places : ℕ) (r : ℤ) :
    HalfEven (r / unitsPerOne * 10 ^ places) (scaledRank places r) := by
  have hpos : ∀ u : ℕ, HalfEven (u / unitsPerOne * 10 ^ places) (scaledUnits places u) := by
    intro u
    have hten : ((tenTo places : ℕ) : ℚ) = 10 ^ places := by
      rw [tenTo, Nat.pow_eq, Nat.cast_pow, Nat.cast_ofNat]
    have h := halfEven_roundHalfEven (u * tenTo places) unitsPerOne_pos
    rwa [Nat.cast_mul, mul_div_right_comm, hten] at h
  rw [← signed_natAbs r, scaledRank_signed]
  cases decide (r < 0) with
  | false => exact hpos r.natAbs
  | true =>
    have h := (hpos r.natAbs).neg
    rw [← neg_mul, ← neg_div] at h
    simpa [signed] using h

end Binary64

namespace Numeral

/-- The number that a literal writes. -/
def rational (n : Numeral) : ℚ :=
  Binary64.signed n.negative (Nat.ofDigitChars 10 (n.whole ++ n.fraction) 0) / 10 ^ n.fraction.length

/-- A literal for a number rounded half to even to a number of decimals: that many digits after the
point, no superfluous zeros before it, and a minus before negative values only. -/
structure Rounds (n : Numeral) (places : ℕ) (q : ℚ) : Prop where
  wellFormed : n.WellFormed
  no_leading_zero : ∀ tail, n.whole = '0' :: tail → tail = []
  length_fraction : n.fraction.length = places
  nearest : ∃ k : ℤ, HalfEven (q * 10 ^ places) k ∧ n.rational = k / 10 ^ places
  negative_iff : n.negative = true ↔ n.rational < 0

variable {m n : Numeral} {places : ℕ} {q r : ℚ}

/-- Literals for larger numbers write no smaller ones. -/
theorem Rounds.rational_le (hm : m.Rounds places q) (hn : n.Rounds places r) (h : q ≤ r) :
    m.rational ≤ n.rational := by
  obtain ⟨k, hk, hvaluem⟩ := hm.nearest
  obtain ⟨l, hl, hvaluen⟩ := hn.nearest
  have hten : (0 : ℚ) < 10 ^ places := by positivity
  rw [hvaluem, hvaluen, div_le_div_iff_of_pos_right hten, Int.cast_le]
  exact hk.mono hl (mul_le_mul_of_nonneg_right h hten.le)

theorem rational_fixed (k : ℤ) (places : ℕ) :
    (fixed (decide (k < 0)) places k.natAbs).rational = k / 10 ^ places := by
  unfold rational
  rw [ofDigitChars_fixed, length_fraction_fixed]
  show ((Binary64.signed (decide (k < 0)) k.natAbs : ℤ) : ℚ) / 10 ^ places = _
  rw [Binary64.signed_natAbs]

theorem mem_magnitudeChars {c : Char} (h : c ∈ n.whole ++ n.fraction) : c ∈ n.magnitudeChars := by
  unfold magnitudeChars
  rcases List.mem_append.1 h with h | h
  · exact List.mem_append_left _ h
  · have hne : n.fraction.isEmpty = false := List.isEmpty_eq_false_iff.2 (List.ne_nil_of_mem h)
    rw [hne]
    exact List.mem_append_right _ (List.mem_cons_of_mem _ h)

/-- The literal with a number of decimals is the one for what is rounded to its steps. -/
theorem rounds_fixed {k : ℤ} (h : HalfEven (q * 10 ^ places) k) :
    (fixed (decide (k < 0)) places k.natAbs).Rounds places q where
  wellFormed := wellFormed_fixed _ _ _
  no_leading_zero _ hzero := tail_of_toDigits_zero hzero
  length_fraction := length_fraction_fixed _ _ _
  nearest := ⟨k, h, rational_fixed k places⟩
  negative_iff := by
    have hten : (0 : ℚ) < 10 ^ places := by positivity
    rw [rational_fixed, div_lt_iff₀ hten, zero_mul, Int.cast_lt_zero]
    exact decide_eq_true_iff

end Numeral

/-! ## Texts with fixed decimals -/

namespace Binary64

/-- **Fixed decimals are exact rounding without a negative zero.**  Whatever precision is asked for, up
to ten places are written: the text is the literal for the double's exact value, rounded half to even.
So a larger double is not written as a smaller number. -/
theorem toFixed_rounds {x y : Binary64} {q r : ℚ} (hx : x.rational? = some q)
    (hy : y.rational? = some r) (places : ℕ) :
    ∃ m n : Numeral, x.toFixed places = m.text ∧ y.toFixed places = n.text ∧
      m.Rounds (min places 10) q ∧ n.Rounds (min places 10) r ∧
      (x ≤ y → m.rational ≤ n.rational) := by
  have hwritten : ∀ {z : Binary64} {s : ℚ}, z.rational? = some s →
      ∃ n : Numeral, z.toFixed places = n.text ∧ n.Rounds (min places 10) s := by
    intro z s hz
    obtain ⟨k, hk, rfl⟩ := exists_at_of_rational? hz
    refine ⟨_, ?_, Numeral.rounds_fixed (halfEven_scaledRank (min places 10) k)⟩
    unfold toFixed Numeral.text
    rw [toFixedChars_eq hk]
    rfl
  obtain ⟨m, hm, hmr⟩ := hwritten hx
  obtain ⟨n, hn, hnr⟩ := hwritten hy
  exact ⟨m, n, hm, hn, hmr, hnr, fun h => hmr.rational_le hnr ((le_iff_rational hx hy).1 h)⟩

/-- An eighth is half way between two hundredths, and a small negative number is written as zero. -/
theorem toFixed_rounds_eighth :
    rational? (-0.00390625) = some (-1 / 256) ∧ rational? 0.125 = some (1 / 8) ∧
      ∃ m n : Numeral, toFixed (-0.00390625) 2 = m.text ∧ toFixed 0.125 2 = n.text ∧
        m.Rounds (min 2 10) (-1 / 256) ∧ n.Rounds (min 2 10) (1 / 8) ∧
        ((-0.00390625 : Binary64) ≤ 0.125 → m.rational ≤ n.rational) := by
  have hx : rational? (-0.00390625) = some (-1 / 256) := by decide +kernel
  have hy : rational? 0.125 = some (1 / 8) := by decide +kernel
  exact ⟨hx, hy, toFixed_rounds hx hy 2⟩

example : toFixed (-0.00390625) 2 = "0.00" ∧ toFixed 0.125 2 = "0.12" := by decide +kernel

/-! ## The sign of a zero -/

/-- The text of a number with its own sign, also before zeros. -/
def signedFixedChars (x : Binary64) (places : ℕ) : List Char :=
  match x with
  | .nan => ['N', 'a', 'N']
  | .infinite negative => if negative then ['-', 'i', 'n', 'f'] else ['i', 'n', 'f']
  | .finite negative units _ =>
    let digits := fixedChars places (scaledUnits places units)
    if negative then '-' :: digits else digits

/-- A minus before nothing but zeros and points is taken off. -/
def withoutZeroSign : List Char → List Char
  | '-' :: rest => if rest.all fun c => c = '0' || c = '.' then rest else '-' :: rest
  | cs => cs

theorem withoutZeroSign_of_ne {c : Char} (h : c ≠ '-') (cs : List Char) :
    withoutZeroSign (c :: cs) = c :: cs := by
  unfold withoutZeroSign
  split
  · rename_i he
    exact absurd (List.cons.inj he).1 h
  · rfl

/-- Only zero is written with zeros only. -/
theorem all_fixedChars_iff (places n : ℕ) :
    ((fixedChars places n).all fun c => c = '0' || c = '.') = true ↔ n = 0 := by
  constructor
  · intro h
    rw [← Numeral.magnitudeChars_fixed false, List.all_eq_true] at h
    have hwell := Numeral.wellFormed_fixed false places n
    have hvalue := Numeral.ofDigitChars_fixed false places n
    have hzero : ∀ c ∈ (Numeral.fixed false places n).whole ++ (Numeral.fixed false places n).fraction,
        c = '0' := by
      intro c hc
      have hdigit : c.isDigit = true :=
        (List.mem_append.1 hc).elim (hwell.whole_digits c) (hwell.fraction_digits c)
      have hpoint : c ≠ '.' := ne_of_isDigit hdigit (by decide)
      simpa [hpoint] using h c (Numeral.mem_magnitudeChars hc)
    rw [List.eq_replicate_of_mem hzero, Nat.ofDigitChars_replicate_zero, Nat.mul_zero] at hvalue
    exact hvalue.symm
  · rintro rfl
    unfold fixedChars padded
    split <;> simp

/-- **The sign that is left out is that of a zero**: the text is the one with every sign, once a minus
before zeros only is taken off. -/
theorem toFixedChars_eq_withoutZeroSign (x : Binary64) (places : ℕ) :
    x.toFixedChars places = withoutZeroSign (x.signedFixedChars (min places maxPlaces)) := by
  cases x with
  | nan => rfl
  | infinite negative => cases negative <;> rfl
  | finite negative units holds =>
    unfold toFixedChars signedFixedChars
    dsimp only
    generalize min places maxPlaces = p
    generalize scaledUnits p units = n
    cases negative with
    | true =>
      have hzero := all_fixedChars_iff p n
      by_cases hn : n = 0
      · rw [if_pos rfl, withoutZeroSign, if_pos (hzero.2 hn), hn]
        rfl
      · rw [if_pos rfl, withoutZeroSign, if_neg (mt hzero.1 hn), if_pos (by simp [hn])]
    | false =>
      obtain ⟨c, cs, hdigits⟩ :=
        List.exists_cons_of_ne_nil (Nat.toDigits_ne_nil (b := 10) (n := n / tenTo p))
      have hdigit : c.isDigit = true :=
        isDigit_of_mem_toDigits (n := n / tenTo p) (hdigits ▸ List.mem_cons_self)
      have hminus : c ≠ '-' := ne_of_isDigit hdigit (by decide)
      show fixedChars p n = withoutZeroSign (fixedChars p n)
      rw [fixedChars, hdigits, List.cons_append, withoutZeroSign_of_ne hminus]

end Binary64

end MaterialInspection
