import MaterialInspection.Proofs.Criterion.Ranges

/-!
# The ends of what a text demands

The ends of a range are two literals in order, or a base less and plus a deviation.  The literals are
finite, but the sums are rounded and may be beyond the largest double.  Rounding keeps the order, so the
ends of a tolerance are in order as well, and since the base is on one side of zero only one of them can
be infinite.

* `readChars_cases` — a criterion comes from one of the four notations.
* `finite_end` — of a base less and plus a deviation one is finite.
* `read_ends` — the ends of a range are numbers in order, one of them finite, and bounds are finite.
-/

set_option autoImplicit false

namespace MaterialInspection.Criterion

open Number Binary64

seal unitsPerOne unitsLimit twoTo tenTo

variable {cs : List Char} {c : Criterion} {min max bound : Binary64}

/-- What characters write is written in one of the four notations, or bounds nothing. -/
theorem readChars_cases (h : readChars cs = c) :
    readRange? cs = some c ∨ readTolerance? cs = some c ∨ readMinimum? cs = some c ∨
      readMaximum? cs = some c ∨ c = .free := by
  unfold readChars at h
  split at h
  · rename_i hrange
    exact .inl (h ▸ hrange)
  · split at h
    · rename_i htolerance
      exact .inr (.inl (h ▸ htolerance))
    · split at h
      · rename_i hminimum
        exact .inr (.inr (.inl (h ▸ hminimum)))
      · split at h
        · rename_i hmaximum
          exact .inr (.inr (.inr (.inl (h ▸ hmaximum))))
        · exact .inr (.inr (.inr (.inr h.symm)))

/-- Of a base less and plus a deviation one is finite: the one on the other side of zero. -/
theorem finite_end {base deviation : Binary64} {b d : Int} (hbase : At base b)
    (hdeviation : At deviation d) (hd : 0 ≤ d) :
    (base - deviation).isFinite = true ∨ (base + deviation).isFinite = true := by
  have hb := hbase.bounds
  have hlimit := hdeviation.bounds
  have hheld := hbase.place_eq
  have hheld' := hdeviation.place_eq
  rcases Int.le_total 0 b with hsign | hsign
  · have hlow := place_le_place (d := 1) (by decide) (show -d ≤ b - d by omega)
    have hhigh := place_le_place (d := 1) (by decide) (show b - d ≤ b by omega)
    rw [place_neg] at hlow
    exact .inl (at_of_rank (rank_sub hbase hdeviation) (by omega) (by omega)).finite
  · have hlow := place_le_place (d := 1) (by decide) (show b ≤ b + d by omega)
    have hhigh := place_le_place (d := 1) (by decide) (show b + d ≤ d by omega)
    exact .inr (at_of_rank (rank_add hbase hdeviation) (by omega) (by omega)).finite

theorem readRange?_finite (h : readRange? cs = some (.range min max)) :
    min.isFinite = true ∧ max.isFinite = true := by
  unfold readRange? at h
  obtain ⟨⟨a, b⟩, hpair, hbetween⟩ := Option.map_eq_some_iff.1 h
  obtain ⟨pair, _, hboth⟩ := Option.bind_eq_some_iff.1 hpair
  obtain ⟨⟨_, ha⟩, _, hb⟩ := finite_of_bothFinite? hboth
  dsimp only at hbetween
  unfold between at hbetween
  split at hbetween
  · cases hbetween
    exact ⟨hb, ha⟩
  · cases hbetween
    exact ⟨ha, hb⟩

theorem readTolerance?_finite_end (h : readTolerance? cs = some (.range min max)) :
    min.isFinite = true ∨ max.isFinite = true := by
  unfold readTolerance? at h
  obtain ⟨⟨base, deviation⟩, hpair, hrange⟩ := Option.map_eq_some_iff.1 h
  obtain ⟨pair, hleft, hboth⟩ := Option.bind_eq_some_iff.1 hpair
  obtain ⟨after, hat⟩ := Text.recognised_of_leftmost hleft
  obtain ⟨⟨_, hbase⟩, hvalue, hdeviation⟩ := finite_of_bothFinite? hboth
  obtain ⟨b, hb⟩ := at_of_finite hbase
  obtain ⟨d, hd⟩ := at_of_finite hdeviation
  have hnonneg : 0 ≤ d :=
    Numeral.rank_value_nonneg (toleranceAt?_unsigned hat) (by rw [← hvalue]; exact hd.rank)
  cases hrange
  exact finite_end hb hd hnonneg

/-- A range has a finite end. -/
theorem read_finite_end {s : String} (h : read s = .range min max) :
    min.isFinite = true ∨ max.isFinite = true := by
  rcases readChars_cases h with hrange | htolerance | hminimum | hmaximum | hfree
  · exact .inl (readRange?_finite hrange).1
  · exact readTolerance?_finite_end htolerance
  · obtain ⟨_, _, hno⟩ := Option.map_eq_some_iff.1 hminimum
    cases hno
  · obtain ⟨_, _, hno⟩ := Option.map_eq_some_iff.1 hmaximum
    cases hno
  · cases hfree

/-- **The ends of a range that a text writes are numbers in order, and one of them is finite; the bound
of a minimum or a maximum is finite.** -/
theorem read_ends (s : String) :
    (∀ min max, read s = .range min max →
      min.isNaN = false ∧ max.isNaN = false ∧ min ≤ max ∧
        (min.isFinite = true ∨ max.isFinite = true)) ∧
    ∀ bound, read s = .minimum bound ∨ read s = .maximum bound → bound.isFinite = true := by
  have hordered := read_ordered s
  constructor
  · intro min max hread
    rw [hread] at hordered
    obtain ⟨l, h, hmin, hmax, _⟩ := le_iff_rank.1 hordered
    exact ⟨isNaN_of_rank hmin, isNaN_of_rank hmax, hordered, read_finite_end hread⟩
  · rintro bound (hread | hread)
    · rwa [hread] at hordered
    · rwa [hread] at hordered

/-- The literal of `1e308`. -/
def vast : Numeral := ⟨false, '1' :: List.replicate 308 '0', []⟩

/-- A tolerance whose upper end is beyond the largest double. -/
def wide : String := String.ofList (vast.chars ++ '±' :: vast.chars)

theorem read_wide : read wide = .range (vast.value - vast.value) (vast.value + vast.value) := by
  have hvast : vast.WellFormed := by decide +kernel
  have hfinite : vast.value.isFinite = true := by decide +kernel
  have htext : wide.toList = [] ++ ((vast.chars ++ ['±']) ++ (vast.chars ++ [])) := by
    simp [wide]
  obtain ⟨front, back, hfront, hback, hread⟩ := read_around hvast htext fun c hc =>
    Numeral.isBlank_head?_chars hvast (by simpa only [List.append_assoc] using hc)
  have htolerance : readChars ([] ++ (vast.chars ++ ([] ++ ("±".toList ++ ([] ++ (vast.chars ++ [])))))) =
      .range (vast.value - vast.value) (vast.value + vast.value) :=
    readChars_tolerance hvast hvast rfl hfinite hfinite ⟨by decide, by decide⟩ (by decide)
      (by decide) (by decide) (by decide)
  have hsign : "±".toList = ['±'] := by decide
  rw [hread, List.suffix_nil.1 hfront, List.prefix_nil.1 hback, ← htolerance, hsign,
    List.nil_append, List.nil_append, List.nil_append, List.nil_append, List.append_assoc]

theorem read_ends_wide :
    read wide = .range 0 (.infinite false) ∧ (0 : Binary64) ≤ .infinite false ∧
      read "≥ 8" = .minimum 8 ∧ (8 : Binary64).isFinite = true := by
  have hends : vast.value - vast.value = 0 ∧ vast.value + vast.value = .infinite false := by
    decide +kernel
  have hwide := read_wide
  rw [hends.1, hends.2] at hwide
  have hbound : read "≥ 8" = .minimum 8 := by decide +kernel
  exact ⟨hwide, ((read_ends wide).1 _ _ hwide).2.2.1, hbound, (read_ends "≥ 8").2 _ (.inl hbound)⟩

end MaterialInspection.Criterion
