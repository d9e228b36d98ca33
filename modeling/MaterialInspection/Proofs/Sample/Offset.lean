import MaterialInspection.Proofs.Criterion
import MaterialInspection.Proofs.Sample.Uniform
import MaterialInspection.Sample.Values

/-!
# Samples around a number

Rules with offsets, and thicknesses, dimensions and weights without a criterion, draw an offset, add
it to a base and write the sum with a number of decimals.  The offset stays between its bounds, and
adding the base and writing decimals keep the order, so the samples lie between two that the least
and the greatest words draw.  But the decimals may be too few for the bounds, and the sum may be
beyond the largest double, so whether the samples lie between the base plus either offset is a
question about these two texts.

* `Offsets.meets_iff` — all samples satisfy a criterion exactly when the least and the greatest do.
* `Settings.offset_values_inBounds` — the same for the bounds themselves, for all items that are
  sampled around a number; it is enough that the bounds survive being written.
* `Settings.offset_values_miss` — a bound that does not, and a sum that is not a number.
-/

set_option autoImplicit false

namespace MaterialInspection

open Number

seal unitsPerOne unitsLimit twoTo tenTo

namespace Sample

open Binary64

/-! ## Offsets -/

/-- A base, the two ends of its offset in either order, and a number of decimals. -/
structure Offsets where
  base : Binary64
  low : Binary64
  high : Binary64
  places : Nat

namespace Offsets

/-- A base plus an offset, as a sample. -/
def sampler (o : Offsets) : Draw String := Rule.offsetSample o.base o.low o.high o.places

/-- The smaller of the two offsets. -/
def lower (o : Offsets) : Binary64 := if o.low ≤ o.high then o.low else o.high

/-- The larger of the two offsets. -/
def upper (o : Offsets) : Binary64 := if o.low ≤ o.high then o.high else o.low

/-- The bounds that the samples are to lie between. -/
def bounds (o : Offsets) : Criterion := .range (o.base + o.lower) (o.base + o.upper)

/-- The number that the least words draw. -/
def least (o : Offsets) : Binary64 := o.base + (uniform o.low o.high leastWords).1

/-- The number that the greatest words draw. -/
def greatest (o : Offsets) : Binary64 := o.base + (uniform o.low o.high greatestWords).1

variable (o : Offsets)

/-- Before it is written, a sample lies between the least and the greatest, if these are finite. -/
theorem drawn_between (hleast : o.least.isFinite = true) (hgreatest : o.greatest.isFinite = true)
    {offset : Binary64} (hoffset : Draw.Yields (uniform o.low o.high) offset) :
    ∃ a r b, At o.least a ∧ At (o.base + offset) r ∧ At o.greatest b ∧ a ≤ r ∧ r ≤ b := by
  obtain ⟨base, hbase⟩ := at_of_finite (finite_of_add hleast).1
  obtain ⟨a, b, hspans, ha, hb⟩ := uniform_extent o.low o.high
  obtain ⟨r, hr, har, hrb⟩ := hspans.within offset hoffset
  exact at_add_between hbase ha hr hb har hrb hleast hgreatest

/-- A sample around a finite number is a number itself, or one of the two ends. -/
theorem yields_finite_or_end (hbase : o.base.isFinite = true) {text : String}
    (ht : Draw.Yields o.sampler text) :
    ∃ x, text = x.toFixed o.places ∧ (x.isFinite = true ∨ x = o.least ∨ x = o.greatest) := by
  obtain ⟨base, hb⟩ := at_of_finite hbase
  obtain ⟨a, b, hspans, ha, hb'⟩ := uniform_extent o.low o.high
  obtain ⟨offset, hoffset, rfl⟩ := Draw.yields_map.1 ht
  obtain ⟨r, hr, har, hrb⟩ := hspans.within offset hoffset
  have hrank := rank_add hb hr
  have hleast : o.least.rank = _ := rank_add hb ha
  have hgreatest : o.greatest.rank = _ := rank_add hb hb'
  have hlow := place_le_place (d := 1) (by decide) (show base + a ≤ base + r by omega)
  have hhigh := place_le_place (d := 1) (by decide) (show base + r ≤ base + b by omega)
  have hlimit := place_bounds (base + b) 1
  have hlimit' := place_bounds (base + a) 1
  refine ⟨o.base + offset, rfl, ?_⟩
  cases hx : o.base + offset with
  | nan =>
    rw [hx] at hrank
    cases hrank
  | finite s u hu => exact Or.inl rfl
  | infinite s =>
    -- an end that a sum beyond the largest double does not pass is beyond it on the same side
    rw [hx] at hrank
    have hplace : signed s unitsLimit = place (base + r) 1 := Option.some.inj hrank
    cases s with
    | false =>
      have hval : signed false unitsLimit = (unitsLimit : Int) := rfl
      refine Or.inr (Or.inr (eq_infinite_of_rank ?_).symm)
      rw [hgreatest, hval, show place (base + b) 1 = unitsLimit by omega]
    | true =>
      have hval : signed true unitsLimit = -(unitsLimit : Int) := rfl
      refine Or.inr (Or.inl (eq_infinite_of_rank ?_).symm)
      rw [hleast, hval, show place (base + a) 1 = -unitsLimit by omega]

/-- **All samples satisfy a criterion exactly when the least and the greatest do.** -/
theorem meets_iff (c : Criterion) :
    (∀ count words, ∀ text ∈ (Draw.times count o.sampler words).1, c.Meets text) ↔
      c.Meets (o.least.toFixed o.places) ∧ c.Meets (o.greatest.toFixed o.places) := by
  rw [Draw.forall_times]
  constructor
  · intro hall
    exact ⟨hall _ ⟨leastWords, rfl⟩, hall _ ⟨greatestWords, rfl⟩⟩
  · rintro ⟨hleast, hgreatest⟩ text ht
    obtain ⟨offset, hoffset, rfl⟩ := Draw.yields_map.1 ht
    obtain ⟨a, r, b, ha, hr, hb, har, hrb⟩ := o.drawn_between hleast.finite hgreatest.finite hoffset
    exact Criterion.meets_between ha hr hb har hrb hleast hgreatest

/-- The two offsets are drawn between in order. -/
theorem uniform_ordered (hlow : o.lower.isFinite = true) (hhigh : o.upper.isFinite = true) :
    ∃ l h, At o.lower l ∧ At o.upper h ∧ l ≤ h ∧ uniform o.low o.high = uniform o.lower o.upper := by
  unfold lower upper at *
  split at hlow
  · rename_i hle
    rw [if_pos hle] at hhigh
    obtain ⟨l, hl⟩ := at_of_finite hlow
    obtain ⟨h, hh⟩ := at_of_finite hhigh
    rw [if_pos hle, if_pos hle]
    exact ⟨l, h, hl, hh, (le_iff hl.rank hh.rank).1 hle, rfl⟩
  · rename_i hnot
    rw [if_neg hnot] at hhigh
    obtain ⟨l, hl⟩ := at_of_finite hlow
    obtain ⟨h, hh⟩ := at_of_finite hhigh
    rw [if_neg hnot, if_neg hnot]
    rw [le_iff hh.rank hl.rank, Int.not_le] at hnot
    exact ⟨l, h, hl, hh, Int.le_of_lt hnot, uniform_swap hh hl hnot⟩

/-- Before it is written, a sample lies between the base plus either offset. -/
theorem drawn_within (hlow : (o.base + o.lower).isFinite = true)
    (hhigh : (o.base + o.upper).isFinite = true) {offset : Binary64}
    (hoffset : Draw.Yields (uniform o.low o.high) offset) :
    ∃ a r b, At (o.base + o.lower) a ∧ At (o.base + offset) r ∧ At (o.base + o.upper) b ∧
      a ≤ r ∧ r ≤ b := by
  obtain ⟨base, hbase⟩ := at_of_finite (finite_of_add hlow).1
  obtain ⟨l, h, hl, hh, hle, hordered⟩ :=
    o.uniform_ordered (finite_of_add hlow).2 (finite_of_add hhigh).2
  rw [hordered] at hoffset
  obtain ⟨r, hr, hlr, hrh⟩ := uniform_within_of_le hl hh hle hoffset
  exact at_add_between hbase hl hr hh hlr hrh hlow hhigh

/-- All samples satisfy a criterion that the base plus either offset, as it is written, satisfies. -/
theorem meets_of_ends {c : Criterion} (hlow : c.Meets ((o.base + o.lower).toFixed o.places))
    (hhigh : c.Meets ((o.base + o.upper).toFixed o.places)) :
    ∀ count words, ∀ text ∈ (Draw.times count o.sampler words).1, c.Meets text := by
  rw [Draw.forall_times]
  intro text ht
  obtain ⟨offset, hoffset, rfl⟩ := Draw.yields_map.1 ht
  obtain ⟨a, r, b, ha, hr, hb, har, hrb⟩ := o.drawn_within hlow.finite hhigh.finite hoffset
  exact Criterion.meets_between ha hr hb har hrb hlow hhigh

/-- Of a base and offsets up to half the largest double, all sums are finite. -/
theorem ends_finite {b l h : Int} (hb : At o.base b) (hl : At o.low l) (hh : At o.high h) (hle : l ≤ h)
    (hbase : b.natAbs ≤ halfGreatest) (hlow : l.natAbs ≤ halfGreatest)
    (hhigh : h.natAbs ≤ halfGreatest) : o.least.isFinite = true ∧ o.greatest.isFinite = true := by
  have htwo := two_halfGreatest
  have hlimit := holds_greatest.below
  have hheld : place (Binary64.greatest : Int) 1 = Binary64.greatest :=
    place_of_holds (n := (Binary64.greatest : Int)) holds_greatest
  have hfinite : ∀ words, (o.base + (uniform o.low o.high words).1).isFinite = true := by
    intro words
    obtain ⟨r, hr, hlr, hrh⟩ := uniform_within_of_le hl hh hle ⟨words, rfl⟩
    have hbelow := place_le_place (d := 1) (by decide) (show -(Binary64.greatest : Int) ≤ b + r by omega)
    have habove := place_le_place (d := 1) (by decide) (show b + r ≤ Binary64.greatest by omega)
    rw [place_neg, hheld] at hbelow
    rw [hheld] at habove
    exact (at_of_rank (rank_add hb hr) (by omega) (by omega)).finite
  exact ⟨hfinite leastWords, hfinite greatestWords⟩

end Offsets

/-! ## Items that are sampled around a number -/

/-- A base is the number of the standard or the one of the settings. -/
theorem baseOr_cases (standard : String) (fallback : Binary64) :
    leadingNumber? standard.toList = some (baseOr standard fallback) ∨
      baseOr standard fallback = fallback := by
  unfold baseOr
  cases h : (leadingNumber? standard.toList).filter fun x => !x.same 0 with
  | none => exact Or.inr rfl
  | some x => exact Or.inl (Option.filter_eq_some_iff.1 h).1

namespace Settings

/-- The offsets of a thickness, a dimension or a weight. -/
def offsetsNearStandard? (s : Settings) (item : Item) : Option Offsets :=
  match item.kind with
  | .thickness =>
    let base := baseOr item.standard s.thicknessBase
    some ⟨base, -(base.abs * 0.1), base.abs * 0.1, 3⟩
  | .dimension => some ⟨baseOr item.standard s.dimensionBase, -2, 2, 1⟩
  | .weight =>
    let base := baseOr item.standard s.weightBase
    some ⟨base, -(base.abs * 0.05), base.abs * 0.05, 2⟩
  | _ => none

/-- The offsets of an item that has a rule with offsets, or neither a rule nor a bound and a kind that
is sampled around its standard. -/
def offsets? (s : Settings) (item : Item) : Option Offsets :=
  if item.kind.isSpecial then none
  else
    match Rule.read? item.rule item.standard with
    | some (.offset base low high places) => some ⟨base, low, high, places⟩
    | some _ => none
    | none => if (Criterion.read item.target).isBound then none else s.offsetsNearStandard? item

variable {s : Settings} {item : Item} {o : Offsets}

/-- A kind without offsets has nothing to measure. -/
theorem nearStandard_eq (s : Settings) (item : Item) :
    s.nearStandard item =
      ((s.offsetsNearStandard? item).map Offsets.sampler).getD (Draw.certain allRight) := by
  unfold nearStandard offsetsNearStandard?
  cases item.kind with
  | holdTime => rfl
  | tack => rfl
  | thickness => rfl
  | dimension => rfl
  | weight => rfl
  | generic => rfl

theorem offsets?_of_special (s : Settings) (hk : item.kind.isSpecial = true) : s.offsets? item = none := by
  unfold offsets?
  rw [if_pos hk]

theorem offsets?_of_bound (s : Settings) (hr : Rule.read? item.rule item.standard = none)
    (hb : (Criterion.read item.target).isBound = true) : s.offsets? item = none := by
  unfold offsets?
  rw [hr]
  dsimp only
  rw [if_pos hb, ite_self]

theorem offsets?_of_free (s : Settings) (hk : item.kind.isSpecial = false)
    (hr : Rule.read? item.rule item.standard = none)
    (hb : (Criterion.read item.target).isBound = false) :
    s.offsets? item = s.offsetsNearStandard? item := by
  unfold offsets?
  rw [hr, hk, hb]
  rfl

/-- Such an item is sampled by its offsets. -/
theorem sampler_of_offsets (h : s.offsets? item = some o) : s.sampler item = o.sampler := by
  unfold offsets? at h
  split at h
  · cases h
  · rename_i hk
    rw [sampler_general s (by simpa using hk)]
    split at h
    · rename_i hr
      cases h
      unfold generalSample
      rw [hr]
      rfl
    · cases h
    · rename_i hr
      split at h
      · cases h
      · rename_i hb
        rw [generalSample_near s hr (by simpa using hb), nearStandard_eq, h]
        rfl

/-! ### Bases -/

/-- The bases of the settings. -/
def bases (s : Settings) : List Binary64 := [s.thicknessBase, s.dimensionBase, s.weightBase]

/-- A part of a base by a factor that is written with decimals and at most one. -/
theorem at_part {base : Binary64} {b : Int} (hb : At base b) (n places : Nat) (hn : n ≤ tenTo places)
    (h53 : n ≤ twoTo 53) :
    ∃ m : Int, 0 ≤ m ∧ m ≤ b.natAbs ∧ At (base.abs * ofDecimal false n (-(places : Int))) m := by
  have habs := rank_abs hb.rank
  have hbounds := hb.bounds
  have hbase := at_of_rank habs (by omega) (by omega)
  have hfactor := at_ofDecimal h53 places
  have hlow := place_nonneg (Int.natCast_nonneg (n * unitsPerOne)) (tenTo places)
  have hhigh := place_decimal_le (k := 1) (twoTo_pos 53) (show n ≤ 1 * tenTo places by omega)
  rw [Nat.one_mul] at hhigh
  obtain ⟨hm0, hmle⟩ := place_part hlow hhigh (Int.natCast_nonneg b.natAbs) hbase.place_eq
  rw [Int.mul_comm] at hm0 hmle
  exact ⟨_, hm0, hmle, at_of_rank (rank_mul hbase hfactor) (by omega) (by omega)⟩

/-- An item without a rule is sampled around the number of its standard or a base of the settings, and
offsets are no larger than two and the base. -/
theorem near_of_offsets (hr : Rule.read? item.rule item.standard = none) (h : s.offsets? item = some o) :
    (∃ fallback ∈ s.bases, o.base = baseOr item.standard fallback) ∧
    ∀ b, At o.base b → ∃ m : Int, 0 ≤ m ∧ m ≤ max (2 * unitsPerOne) b.natAbs ∧
      At o.low (-m) ∧ At o.high m := by
  have htwo : At (2 : Binary64) ((2 * unitsPerOne : Nat) : Int) := at_two
  unfold offsets? at h
  split at h
  · cases h
  · rw [hr] at h
    dsimp only at h
    split at h
    · cases h
    · unfold offsetsNearStandard? at h
      split at h
      · cases h
        refine ⟨⟨s.thicknessBase, by simp [bases], rfl⟩, fun b hb => ?_⟩
        obtain ⟨m, hm0, hmle, hm⟩ := at_part hb 1 1 (by rw [tenTo_one]; decide) (twoTo_pos 53)
        exact ⟨m, hm0, by omega, at_neg hm, hm⟩
      · cases h
        refine ⟨⟨s.dimensionBase, by simp [bases], rfl⟩, fun b hb => ?_⟩
        exact ⟨_, Int.natCast_nonneg _, by omega, at_neg htwo, htwo⟩
      · cases h
        refine ⟨⟨s.weightBase, by simp [bases], rfl⟩, fun b hb => ?_⟩
        obtain ⟨m, hm0, hmle, hm⟩ := at_part hb 5 2 (by rw [tenTo]; decide)
          (by rw [twoTo_53]; decide)
        exact ⟨m, hm0, by omega, at_neg hm, hm⟩
      · cases h

/-- **The samples of an item that is sampled around a number lie between its bounds exactly when the
least and the greatest sample do**, and they do when the bounds themselves, as they are written, do.
While the bounds are finite every sample reads back between what their texts read back to. -/
theorem offset_values_inBounds (h : s.offsets? item = some o) :
    ((∀ count words, ∀ text ∈ (s.values item count words).1, o.bounds.Meets text) ↔
      o.bounds.Meets (o.least.toFixed o.places) ∧ o.bounds.Meets (o.greatest.toFixed o.places)) ∧
    (o.bounds.Meets ((o.base + o.lower).toFixed o.places) →
      o.bounds.Meets ((o.base + o.upper).toFixed o.places) →
      ∀ count words, ∀ text ∈ (s.values item count words).1, o.bounds.Meets text) ∧
    ((o.base + o.lower).isFinite = true → (o.base + o.upper).isFinite = true →
      ∀ count words, ∀ text ∈ (s.values item count words).1, ∃ x y z,
        leadingNumber? ((o.base + o.lower).toFixed o.places).toList = some x ∧
        leadingNumber? text.toList = some y ∧
        leadingNumber? ((o.base + o.upper).toFixed o.places).toList = some z ∧ x ≤ y ∧ y ≤ z) := by
  unfold values
  rw [sampler_of_offsets h]
  refine ⟨o.meets_iff o.bounds, fun hlow hhigh => o.meets_of_ends hlow hhigh, ?_⟩
  intro hlow hhigh
  rw [Draw.forall_times]
  intro text ht
  obtain ⟨offset, hoffset, rfl⟩ := Draw.yields_map.1 ht
  obtain ⟨a, r, b, ha, hr, hb, har, hrb⟩ := o.drawn_within hlow hhigh hoffset
  obtain ⟨x, hx, hxa⟩ := leadingNumber?_toFixed ha o.places
  obtain ⟨y, hy, hyr⟩ := leadingNumber?_toFixed hr o.places
  obtain ⟨z, hz, hzb⟩ := leadingNumber?_toFixed hb o.places
  exact ⟨x, y, z, hx, hy, hz, (le_iff hxa.rank hyr.rank).2 (textRank_mono _ har),
    (le_iff hyr.rank hzb.rank).2 (textRank_mono _ hrb)⟩

/-- A thickness whose bounds need no more decimals than it is written with. -/
def tape : Item := { name := "厚度", standard := "0.2mm", criteria := "均匀" }

/-- All samples around `0.2mm` lie between its bounds. -/
theorem offset_values_inBounds_tape :
    ∃ o, offsets? {} tape = some o ∧
      o.bounds.Meets ((o.base + o.lower).toFixed o.places) ∧
      o.bounds.Meets ((o.base + o.upper).toFixed o.places) ∧
      (o.base + o.lower).isFinite = true ∧ (o.base + o.upper).isFinite = true ∧
      ∀ count words, ∀ text ∈ (values {} tape count words).1, o.bounds.Meets text := by
  have hends : (offsets? {} tape).any (fun o =>
      decide (o.bounds.Meets ((o.base + o.lower).toFixed o.places)) &&
        decide (o.bounds.Meets ((o.base + o.upper).toFixed o.places))) = true := by decide +kernel
  obtain ⟨o, ho, hmeets⟩ := (Option.any_eq_true _ _).1 hends
  rw [Bool.and_eq_true, decide_eq_true_eq, decide_eq_true_eq] at hmeets
  exact ⟨o, ho, hmeets.1, hmeets.2, hmeets.1.finite, hmeets.2.finite,
    (offset_values_inBounds ho).2.1 hmeets.1 hmeets.2⟩

/-- A thickness whose bounds need more decimals than it is written with. -/
def film : Item := { name := "厚度", standard := "0.0125mm" }

/-- An item with a rule whose largest value is beyond the largest double. -/
def surface : Item :=
  { name := "外观", rule := some "\x7b\"type\":\"random_range\",\"base\":1.7e308,\"maxOffset\":1e308\x7d" }

/-- The least thickness around `0.0125mm` is rounded below its lower bound, and the greatest sample
of a rule may not be a number. -/
theorem offset_values_miss :
    (∃ o, offsets? {} film = some o ∧ (values {} film 1 leastWords).1 = ["0.011"] ∧
      ¬o.bounds.Meets "0.011") ∧
    ∃ o, offsets? {} surface = some o ∧ (values {} surface 1 greatestWords).1 = ["inf"] ∧
      ¬o.bounds.Meets "inf" := by
  have hfilm : (offsets? {} film).any (fun o => !decide (o.bounds.Meets "0.011")) = true := by
    decide +kernel
  have hsurface : (offsets? {} surface).any (fun o => !decide (o.bounds.Meets "inf")) = true := by
    decide +kernel
  obtain ⟨o, ho, hmiss⟩ := (Option.any_eq_true _ _).1 hfilm
  obtain ⟨p, hp, hnone⟩ := (Option.any_eq_true _ _).1 hsurface
  exact ⟨⟨o, ho, by decide +kernel, by simpa using hmiss⟩,
    ⟨p, hp, by decide +kernel, by simpa using hnone⟩⟩

end Settings

end Sample

end MaterialInspection
