import MaterialInspection.Criterion.Reading
import MaterialInspection.Proofs.Number.Fixed

/-!
# Criteria that texts write

The numerals of a text are finite, but the ends of a tolerance are sums and need not be.  They are
numbers all the same, and the lower end is not above the upper one, because a deviation has no minus.

* `read_ordered` — the criterion that a text writes has its ends in order.
* `contains_between` — what lies between two numbers that satisfy a criterion satisfies it too.
* `meets_between` — the same for texts with one number of decimals, by what they read back to.
-/

set_option autoImplicit false

namespace MaterialInspection

open Number

seal unitsPerOne unitsLimit twoTo tenTo

theorem Text.recognised_of_leftmost {α : Type} {recognise : List Char → Option α} {cs : List Char}
    {a : α} (h : leftmost recognise cs = some a) : ∃ after, recognise after = some a := by
  induction cs with
  | nil => exact ⟨[], h⟩
  | cons c rest ih =>
    unfold leftmost at h
    split at h
    · rename_i b hb
      cases h
      exact ⟨c :: rest, hb⟩
    · exact ih h

namespace Numeral

theorem finite_of_finite? {n : Numeral} {x : Binary64} (h : n.finite? = some x) :
    x = n.value ∧ x.isFinite = true := by
  unfold finite? at h
  split at h
  · rename_i hf
    cases h
    exact ⟨rfl, hf⟩
  · cases h

theorem scanMagnitude?_unsigned {cs rest : List Char} {n : Numeral}
    (h : scanMagnitude? cs = some (n, rest)) : n.negative = false := by
  unfold scanMagnitude? at h
  dsimp only at h
  split at h
  · cases h
  · split at h
    · split at h <;> cases h <;> rfl
    · cases h
      rfl

/-- A literal without a minus is not below zero. -/
theorem rank_value_nonneg {n : Numeral} (hn : n.negative = false) {r : Int}
    (h : n.value.rank = some r) : 0 ≤ r := by
  have hratio : ∀ num den, (Binary64.ofRatio false num den).rank = some r → 0 ≤ r := by
    intro num den hr
    rw [Binary64.rank_ofRatio] at hr
    cases hr
    exact Binary64.place_nonneg (Int.natCast_nonneg num) den
  have hlimit : (0 : Int) ≤ unitsLimit := Int.natCast_nonneg _
  unfold value Binary64.ofDecimal at h
  rw [hn] at h
  split at h
  · split at h
    · cases h
      exact Int.le_refl 0
    · split at h
      · cases h
        exact hlimit
      · exact hratio _ _ h
  · split at h
    · cases h
      exact Int.le_refl 0
    · exact hratio _ _ h

end Numeral

namespace Criterion

open Binary64

/-- The ends of a criterion are numbers, in order. -/
def Ordered : Criterion → Prop
  | .range min max => min ≤ max
  | .minimum bound => bound.isFinite = true
  | .maximum bound => bound.isFinite = true
  | .free => True

theorem finite_of_bothFinite? {pair : Numeral × Numeral} {a b : Binary64}
    (h : bothFinite? pair = some (a, b)) :
    (a = pair.1.value ∧ a.isFinite = true) ∧ b = pair.2.value ∧ b.isFinite = true := by
  unfold bothFinite? at h
  split at h
  · rename_i x y hx hy
    cases h
    exact ⟨Numeral.finite_of_finite? hx, Numeral.finite_of_finite? hy⟩
  · cases h

theorem readRange?_ordered {cs : List Char} {c : Criterion} (h : readRange? cs = some c) :
    c.Ordered := by
  unfold readRange? at h
  obtain ⟨⟨a, b⟩, hpair, rfl⟩ := Option.map_eq_some_iff.1 h
  obtain ⟨pair, _, hboth⟩ := Option.bind_eq_some_iff.1 hpair
  obtain ⟨⟨_, ha⟩, _, hb⟩ := finite_of_bothFinite? hboth
  obtain ⟨r, hr⟩ := at_of_finite ha
  obtain ⟨s, hs⟩ := at_of_finite hb
  dsimp only
  unfold between
  split
  · rename_i hlt
    rw [lt_iff hs.rank hr.rank] at hlt
    exact (le_iff hs.rank hr.rank).2 (Int.le_of_lt hlt)
  · rename_i hlt
    rw [lt_iff hs.rank hr.rank] at hlt
    exact (le_iff hr.rank hs.rank).2 (Int.not_lt.1 hlt)

theorem toleranceAt?_unsigned {cs : List Char} {base deviation : Numeral}
    (h : toleranceAt? cs = some (base, deviation)) : deviation.negative = false := by
  unfold toleranceAt? at h
  split at h
  · cases h
  · split at h
    · cases h
    · split at h
      · rename_i hscan
        cases h
        exact Numeral.scanMagnitude?_unsigned hscan
      · cases h

theorem readTolerance?_ordered {cs : List Char} {c : Criterion} (h : readTolerance? cs = some c) :
    c.Ordered := by
  unfold readTolerance? at h
  obtain ⟨⟨a, b⟩, hpair, rfl⟩ := Option.map_eq_some_iff.1 h
  obtain ⟨pair, hleft, hboth⟩ := Option.bind_eq_some_iff.1 hpair
  obtain ⟨after, hat⟩ := Text.recognised_of_leftmost hleft
  obtain ⟨⟨_, ha⟩, hvalue, hb⟩ := finite_of_bothFinite? hboth
  obtain ⟨r, hr⟩ := at_of_finite ha
  obtain ⟨s, hs⟩ := at_of_finite hb
  have hnonneg : 0 ≤ s := by
    have hrank := hs.rank
    rw [hvalue] at hrank
    exact Numeral.rank_value_nonneg (toleranceAt?_unsigned hat) hrank
  exact (le_iff (rank_sub hr hs) (rank_add hr hs)).2 (place_le_place (by decide) (by omega))

theorem readMinimum?_ordered {cs : List Char} {c : Criterion} (h : readMinimum? cs = some c) :
    c.Ordered := by
  unfold readMinimum? at h
  obtain ⟨x, hx, rfl⟩ := Option.map_eq_some_iff.1 h
  obtain ⟨n, _, hn⟩ := Option.bind_eq_some_iff.1 hx
  exact (Numeral.finite_of_finite? hn).2

theorem readMaximum?_ordered {cs : List Char} {c : Criterion} (h : readMaximum? cs = some c) :
    c.Ordered := by
  unfold readMaximum? at h
  obtain ⟨x, hx, rfl⟩ := Option.map_eq_some_iff.1 h
  obtain ⟨n, _, hn⟩ := Option.bind_eq_some_iff.1 hx
  exact (Numeral.finite_of_finite? hn).2

/-- **The ends of the criterion that a text writes are in order.** -/
theorem read_ordered (s : String) : (read s).Ordered := by
  unfold read readChars
  split
  · rename_i h
    exact readRange?_ordered h
  · split
    · rename_i h
      exact readTolerance?_ordered h
    · split
      · rename_i h
        exact readMinimum?_ordered h
      · split
        · rename_i h
          exact readMaximum?_ordered h
        · trivial

/-- What lies between two numbers that satisfy a criterion satisfies it too. -/
theorem contains_between {c : Criterion} {x y z : Binary64} (hxy : x ≤ y) (hyz : y ≤ z)
    (hx : c.contains x = true) (hz : c.contains z = true) : c.contains y = true := by
  cases c with
  | range min max =>
    unfold contains at hx hz ⊢
    rw [Bool.and_eq_true] at hx hz ⊢
    exact ⟨le_trans hx.1 hxy, le_trans hyz hz.2⟩
  | minimum bound => exact le_trans hx hxy
  | maximum bound => exact le_trans hyz hz
  | free => rfl

/-- A text that starts with a number which a criterion contains. -/
def Meets (c : Criterion) (text : String) : Prop :=
  ∃ x, leadingNumber? text.toList = some x ∧ c.contains x = true

instance (c : Criterion) (text : String) : Decidable (c.Meets text) :=
  decidable_of_iff ((leadingNumber? text.toList).any c.contains = true)
    (Option.any_eq_true _ _)

/-- Written with one number of decimals, what lies between two numbers satisfies a criterion when
both do. -/
theorem meets_between {c : Criterion} {x y z : Binary64} {q r s : Int} (hx : At x q) (hy : At y r)
    (hz : At z s) (hqr : q ≤ r) (hrs : r ≤ s) {places : Nat} (hcx : c.Meets (x.toFixed places))
    (hcz : c.Meets (z.toFixed places)) : c.Meets (y.toFixed places) := by
  obtain ⟨x', hx', hcx⟩ := hcx
  obtain ⟨z', hz', hcz⟩ := hcz
  obtain ⟨u, hu, hux⟩ := leadingNumber?_toFixed hx places
  obtain ⟨v, hv, hvy⟩ := leadingNumber?_toFixed hy places
  obtain ⟨w, hw, hwz⟩ := leadingNumber?_toFixed hz places
  rw [hu] at hx'
  rw [hw] at hz'
  cases hx'
  cases hz'
  exact ⟨v, hv, contains_between ((le_iff hux.rank hvy.rank).2 (textRank_mono _ hqr))
    ((le_iff hvy.rank hwz.rank).2 (textRank_mono _ hrs)) hcx hcz⟩

theorem Meets.finite {c : Criterion} {x : Binary64} {places : Nat}
    (h : c.Meets (x.toFixed places)) : x.isFinite = true := by
  obtain ⟨y, hy, _⟩ := h
  exact reads_toFixed_iff.1 ⟨y, hy⟩

end Criterion

end MaterialInspection
