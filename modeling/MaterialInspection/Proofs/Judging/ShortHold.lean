import MaterialInspection.Judging
import MaterialInspection.Proofs.Criterion.Bounds
import MaterialInspection.Proofs.Number.WholePart
import MaterialInspection.Proofs.Sample.Moderate

/-!
# Hold times that are too short

A hold time passes when its first whole number reaches the target's.  One that is shorter can still pass
by the number that it starts with, which the criterion of the target is asked about; that criterion is
read from the target in another way, and need not bound the hold time from below.

* `Criterion.ofInt_lt_sub_tolerance` — a whole number without the tolerance is above the one before it.
* `Judging.passes_shortHold` — in strict judging a short hold time passes exactly when the criterion of
  the target contains its number; under a lower bound that reaches the target's hours this leaves only
  what the tolerance allows.
* `Judging.passes_shortHold_day` — a target without such a bound lets shorter times pass.
-/

set_option autoImplicit false

namespace MaterialInspection

open Number Binary64 Sample

seal unitsPerOne unitsLimit twoTo tenTo Criterion.read

namespace Criterion

/-! ## Lower ends -/

/-- What a criterion bounds numbers by from below. -/
def lowerEnd? : Criterion → Option Binary64
  | .range min _ => some min
  | .minimum bound => some bound
  | .maximum _ => none
  | .free => none

theorem le_of_contains {c : Criterion} {low x : Binary64} (hlow : c.lowerEnd? = some low)
    (hx : c.contains x = true) : low - tolerance ≤ x := by
  cases c with
  | range min max =>
    cases hlow
    exact (Bool.and_eq_true_iff.1 hx).1
  | minimum bound =>
    cases hlow
    exact hx
  | maximum bound => cases hlow
  | free => cases hlow

/-- Up to the bound a text that writes one has no digits. -/
theorem isDigit_before_bound (t : BoundText) :
    ∀ c ∈ t.head.toList ++ t.sign.toList ++ t.gap.toList, c.isDigit = false := by
  have hsigns : ∀ sign ∈ minimumSigns ++ maximumSigns, sign.toList.all (fun c => !c.isDigit) = true := by
    decide
  intro c hc
  rcases List.mem_append.1 hc with hc | hgap
  · rcases List.mem_append.1 hc with hhead | hsign
    · exact (t.head_lacks c hhead).1
    · simpa using List.all_eq_true.1 (hsigns t.sign t.sign_mem) c hsign
  · exact isDigit_of_isBlank (List.all_eq_true.1 t.gap_blank c hgap)

/-- A minimum that is written without a minus is at least the first whole number of its text. -/
theorem asked_le_bound (t : BoundText) (hunsigned : t.bound.negative = false) {asked : Int}
    (hasked : firstInteger? t.text.toList = some asked) : ofInt asked ≤ t.bound.value := by
  have htext : t.text.toList =
      (t.head.toList ++ t.sign.toList ++ t.gap.toList) ++ (t.bound.magnitudeChars ++ t.tail.toList) := by
    simp [BoundText.text, Numeral.text, Numeral.chars, hunsigned]
  rw [htext] at hasked
  have hwhole := firstInteger?_magnitudeChars t.bound_wellFormed (fun c hc => (t.tail_lacks c hc).1)
    (firstInteger?_of_lacks (isDigit_before_bound t) hasked)
  rw [hwhole]
  exact Numeral.whole_le_value t.bound_wellFormed hunsigned

/-- A smaller bound is met where a bound is. -/
theorem sub_tolerance_le {a low x : Binary64} (ha : a.isFinite = true) (hle : a ≤ low)
    (hx : x.isFinite = true) (h : low - tolerance ≤ x) : a - tolerance ≤ x := by
  obtain ⟨r, hr⟩ := at_of_finite ha
  obtain ⟨s, hs⟩ := at_of_finite hx
  cases low with
  | nan =>
    obtain ⟨_, _, _, hnone, _⟩ := le_iff_rank.1 hle
    cases hnone
  | infinite negative =>
    cases negative with
    | true =>
      have hrank : (Binary64.infinite true).rank = some (-(unitsLimit : Int)) := rfl
      have hbelow := (le_iff hr.rank hrank).1 hle
      have := hr.bounds
      omega
    | false =>
      have hrank : (Binary64.infinite false - tolerance).rank = some (unitsLimit : Int) := by
        obtain ⟨_, _, _, htolerance, _⟩ := at_tolerance.eq_finite
        rw [tolerance, htolerance]
        rfl
      have hbelow := (le_iff hrank hs.rank).1 h
      have := hs.bounds
      omega
  | finite negative units holds =>
    have hl := at_finite negative units holds
    have hrl := (le_iff hr.rank hl.rank).1 hle
    have hls := (le_iff (rank_sub hl at_tolerance) hs.rank).1 h
    refine (le_iff (rank_sub hr at_tolerance) hs.rank).2 (Int.le_trans ?_ hls)
    exact place_le_place (by decide) (by omega)

/-- The tolerance is not far above `1e-9`. -/
theorem toleranceRank_le : toleranceRank ≤ ((9007200 * fine : Nat) : Int) := by
  have hheld : place ((9007200 * fine : Nat) : Int) 1 = ((9007200 * fine : Nat) : Int) :=
    place_of_holds (holds_mul_fine (by rw [twoTo_53]; decide))
  have hten : tenTo 9 = 1000000000 := by rw [tenTo]
  rw [← hheld]
  refine place_mono (tenTo_pos 9) (by decide) ?_
  rw [unitsPerOne_eq_fine, hten, Int.natCast_one, Int.mul_one]
  omega

/-- Up to `2 ^ 53` a whole number without the tolerance is above the whole number before it. -/
theorem ofInt_lt_sub_tolerance {n : Int} (hpos : 0 < n) (hn : n ≤ 9007199254740992) :
    ofInt (n - 1) < ofInt n - tolerance := by
  have hone := unitsPerOne_eq_fine
  have hfine := fine_pos
  have hlow := le_toleranceRank
  have hhigh := toleranceRank_le
  have hat := at_ofInt (n := n) (by rw [twoTo_53]; omega)
  have hbefore := at_ofInt (n := n - 1) (by rw [twoTo_53]; omega)
  have hleast : (1 : Int) * unitsPerOne ≤ n * unitsPerOne :=
    Int.mul_le_mul_of_nonneg_right hpos (Int.natCast_nonneg _)
  have hgreatest : n * unitsPerOne ≤ (9007199254740992 : Int) * unitsPerOne :=
    Int.mul_le_mul_of_nonneg_right hn (Int.natCast_nonneg _)
  -- rounding moves it by half of one at most
  have hclose := place_close_of_lt (show 0 ≤ n * unitsPerOne - toleranceRank by omega)
    (by rw [twoTo_53]; omega)
  refine (lt_iff hbefore.rank (rank_sub hat at_tolerance)).2 ?_
  rw [Int.sub_mul]
  omega

/-- What lies strictly between two whole numbers tells them apart. -/
theorem lt_of_ofInt_lt {m n : Int} {a x : Binary64} (hm : ofInt m < a) (ha : a ≤ x)
    (hn : x ≤ ofInt n) : m < n := by
  obtain ⟨_, r, hrank, hr, hmr⟩ := lt_iff_rank.1 hm
  have hle := (le_iff hr (rank_ofInt n)).1 (le_trans ha hn)
  rw [rank_ofInt] at hrank
  cases hrank
  by_contra hnot
  have hmul := Int.mul_le_mul_of_nonneg_right (Int.not_lt.1 hnot) (Int.natCast_nonneg unitsPerOne)
  have hplace := place_le_place (d := 1) (by decide) hmul
  omega

end Criterion

namespace Judging

/-! ## Short hold times -/

/-- A sample of a hold time whose first whole number is below the target's, and which is neither the
target nor one of the words that always pass. -/
structure ShortHold (item : Item) (value : String) (hours asked : Int) : Prop where
  kind : item.kind = .holdTime
  hours_read : firstInteger? value.toList = some hours
  asked_read : firstInteger? item.target.toList = some asked
  shorter : hours < asked
  not_word : value ∉ accepted
  not_target : value ≠ item.target

variable {item : Item} {value : String} {hours asked : Int}

instance : Decidable (ShortHold item value hours asked) :=
  decidable_of_iff (item.kind = .holdTime ∧ firstInteger? value.toList = some hours ∧
      firstInteger? item.target.toList = some asked ∧ hours < asked ∧ value ∉ accepted ∧
      value ≠ item.target)
    ⟨fun ⟨hkind, hhours, hasked, hless, hword, htarget⟩ =>
      ⟨hkind, hhours, hasked, hless, hword, htarget⟩,
    fun ⟨hkind, hhours, hasked, hless, hword, htarget⟩ =>
      ⟨hkind, hhours, hasked, hless, hword, htarget⟩⟩

/-- A short hold time passes by its number or not at all. -/
theorem passes_eq_numberPasses (h : ShortHold item value hours asked) (j : Judging) :
    j.passes item value = j.numberPasses item.target value := by
  have hword : accepted.contains value = false := by
    rw [← Bool.not_eq_true, List.contains_iff_mem]
    exact h.not_word
  have htarget : (value == item.target) = false := beq_eq_false_iff_ne.2 h.not_target
  have hlong : holdsLongEnough item.target value = false := by
    unfold holdsLongEnough
    rw [h.hours_read, h.asked_read]
    exact decide_eq_false (Int.not_le.2 h.shorter)
  unfold passes
  rw [hword, htarget, hlong, Bool.and_false, Bool.and_false, Bool.false_or, Bool.false_or,
    Bool.false_or]

theorem strict_numberPasses_iff {target : String} :
    numberPasses ⟨true⟩ target value = true ↔ (Criterion.read target).Meets value := by
  unfold numberPasses Criterion.Meets
  cases leadingNumber? value.toList with
  | none => simp
  | some x => simp

theorem strict_passes_iff (h : ShortHold item value hours asked) :
    passes ⟨true⟩ item value = true ↔ (Criterion.read item.target).Meets value := by
  rw [passes_eq_numberPasses h, strict_numberPasses_iff]

/-- Under a lower bound that reaches the target's hours a short hold time has to reach them too, but for
the tolerance. -/
theorem number_of_strict_passes (h : ShortHold item value hours asked) {low : Binary64}
    (hlow : (Criterion.read item.target).lowerEnd? = some low) (hreach : ofInt asked ≤ low)
    (hasked : asked ≤ 9007199254740992) (hpass : passes ⟨true⟩ item value = true) :
    ∃ x, leadingNumber? value.toList = some x ∧ ofInt asked - Criterion.tolerance ≤ x := by
  have hshorter := h.shorter
  have hhours := firstInteger?_nonneg h.hours_read
  have hat := at_ofInt (n := asked) (by rw [twoTo_53]; omega)
  obtain ⟨x, hx, hcontains⟩ := (strict_passes_iff h).1 hpass
  exact ⟨x, hx, Criterion.sub_tolerance_le hat.finite hreach (finite_of_leadingNumber? hx)
    (Criterion.le_of_contains hlow hcontains)⟩

/-- **A short hold time passes strict judging exactly when the criterion of the target contains the
number that it starts with.**  Under a lower bound that reaches the target's hours it has to be less than
one hour short, by no more than the tolerance, and a number that is not above its own hours never passes.
The hours less the tolerance are a difference of doubles, and so a rounded one: above `2 ^ 24` they are the
hours themselves.  A target that writes a minimum without a minus has such a bound. -/
theorem passes_shortHold (h : ShortHold item value hours asked) :
    (passes ⟨true⟩ item value = true ↔ (Criterion.read item.target).Meets value) ∧
    (∀ low, (Criterion.read item.target).lowerEnd? = some low → ofInt asked ≤ low →
      asked ≤ 9007199254740992 →
      (passes ⟨true⟩ item value = true →
        hours + 1 = asked ∧ ∃ x, leadingNumber? value.toList = some x ∧
          ofInt asked - Criterion.tolerance ≤ x ∧ x ≤ ofInt asked) ∧
      ∀ x, leadingNumber? value.toList = some x → x ≤ ofInt hours →
        passes ⟨true⟩ item value = false) ∧
    ∀ t : BoundText, item.target = t.text → t.sign ∈ minimumSigns → t.bound.negative = false →
      t.bound.value.isFinite = true →
      (Criterion.read item.target).lowerEnd? = some t.bound.value ∧ ofInt asked ≤ t.bound.value := by
  have hshorter := h.shorter
  have hhours := firstInteger?_nonneg h.hours_read
  refine ⟨strict_passes_iff h, fun low hlow hreach hasked => ⟨fun hpass => ?_, fun x hx hfew => ?_⟩,
    fun t htext hsign hunsigned hfinite => ?_⟩
  · have hgap := Criterion.ofInt_lt_sub_tolerance (show 0 < asked by omega) hasked
    obtain ⟨x, hx, hle⟩ := number_of_strict_passes h hlow hreach hasked hpass
    have hnext := leadingNumber?_le hx h.hours_read
    have hlast : hours + 1 = asked := by
      have hlt := Criterion.lt_of_ofInt_lt hgap hle hnext
      omega
    rw [hlast] at hnext
    exact ⟨hlast, x, hx, hle, hnext⟩
  · have hgap := Criterion.ofInt_lt_sub_tolerance (show 0 < asked by omega) hasked
    rw [← Bool.not_eq_true]
    intro hpass
    obtain ⟨y, hy, hle⟩ := number_of_strict_passes h hlow hreach hasked hpass
    rw [hx] at hy
    cases hy
    have hlt := Criterion.lt_of_ofInt_lt hgap hle hfew
    omega
  · have hasked := h.asked_read
    rw [htext] at hasked ⊢
    rw [Criterion.read_minimum t hsign hfinite]
    exact ⟨rfl, Criterion.asked_le_bound t hunsigned hasked⟩

/-- A day as a minimum. -/
def dayBound : BoundText where
  head := ""
  sign := "≥"
  gap := ""
  bound := ⟨false, ['2', '4'], []⟩
  tail := "h"
  bound_wellFormed := by decide
  head_lacks := by decide
  sign_mem := by decide
  gap_blank := by decide
  tail_lacks := by decide

/-- A hold time of a day at least. -/
def dayAtLeast : Item := { name := "持粘性", criteria := "≥24h" }

/-- A hold time of a day, written without a sign. -/
def day : Item := { name := "持粘性", criteria := "24h" }

/-- A hold time around a day. -/
def aboutDay : Item := { name := "持粘性", criteria := "24 ± 6h" }

theorem passes_shortHold_dayAtLeast :
    ShortHold dayAtLeast "12h" 12 24 ∧ dayAtLeast.target = dayBound.text ∧
      (Criterion.read dayAtLeast.target).lowerEnd? = some dayBound.bound.value ∧
      ofInt 24 ≤ dayBound.bound.value ∧ passes ⟨true⟩ dayAtLeast "12h" = false := by
  have hshort : ShortHold dayAtLeast "12h" 12 24 := by decide +kernel
  have htext : dayAtLeast.target = dayBound.text := by decide +kernel
  have hnumber : leadingNumber? "12h".toList = some (ofInt 12) := by decide +kernel
  obtain ⟨_, hbounded, hminimum⟩ := passes_shortHold hshort
  obtain ⟨hlow, hreach⟩ := hminimum dayBound htext (by decide) rfl (by decide +kernel)
  obtain ⟨_, hnever⟩ := hbounded _ hlow hreach (by decide)
  exact ⟨hshort, htext, hlow, hreach, hnever _ hnumber (by decide +kernel)⟩

/-- A hold time that is too long for a double. -/
def ages : Item := { name := "持粘性", criteria := "≥9007199254740993h" }

/-- **A short hold time can pass strict judging**: without a sign the target bounds nothing, around a
day it bounds less, under a minimum the tolerance is left, and from `2 ^ 53` on a minimum is rounded. -/
theorem passes_shortHold_day :
    (ShortHold day "12h" 12 24 ∧ passes ⟨true⟩ day "12h" = true) ∧
      (ShortHold aboutDay "20h" 20 24 ∧ passes ⟨true⟩ aboutDay "20h" = true) ∧
      (ShortHold dayAtLeast "23.9999999999h" 23 24 ∧
        passes ⟨true⟩ dayAtLeast "23.9999999999h" = true) ∧
      ShortHold ages "9007199254740992h" 9007199254740992 9007199254740993 ∧
        passes ⟨true⟩ ages "9007199254740992h" = true := by
  decide +kernel

end Judging

end MaterialInspection
