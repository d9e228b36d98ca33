import MaterialInspection.Judging
import MaterialInspection.Proofs.Sample.DrawnRange

/-!
# Samples and the criterion they are made from

Samples of an item are to satisfy the criterion that they were made from, read from their texts.
They do unless the range is so wide, or so far from zero, that its doubles are coarser than the
decimals or its steps are too many to be drawn.  The extent of the samples decides which it is: two
texts are all that has to be looked at.

* `Settings.sampler_written` — the samples of such an item are written from the extent of the range
  that its criterion is drawn from.
* `Settings.values_accepted` — every sample reads back with the decimals asked for, all of them are
  accepted exactly when the least and the greatest are, and all are for moderate bounds.
* `Settings.values_miss_concentration` — a sample of a range beyond `2 ^ 63` steps that misses it.
-/

set_option autoImplicit false

namespace MaterialInspection.Sample

open Number Binary64

seal unitsPerOne unitsLimit twoTo tenTo Criterion.read

/-- An item whose samples are made from the bounds that its target text sets. -/
structure Bounded (item : Item) : Prop where
  not_holdTime : item.kind ≠ .holdTime
  not_tack : item.kind ≠ .tack
  no_rule : Rule.read? item.rule item.standard = none
  is_bound : (Criterion.read item.target).isBound = true

/-- A sample that satisfies the criterion of its item, read back, and so passes strict judging. -/
structure Accepted (item : Item) (text : String) : Prop where
  satisfies : ∃ x, leadingNumber? text.toList = some x ∧
    (Criterion.read item.target).contains x = true
  passes : Judging.passes ⟨true⟩ item text = true

/-- A sample that reads back, with as many decimals as the target text shows but ten at most. -/
structure Legible (item : Item) (text : String) : Prop where
  reads : ∃ x, leadingNumber? text.toList = some x
  enough : min ((Criterion.read item.target).places item.target) maxPlaces ≤ decimals text
  atMost : decimals text ≤ maxPlaces

/-- The extent of the samples of an item. -/
def extent (item : Item) : GridExtent :=
  let c := Criterion.read item.target
  let places := min (c.places item.target) maxPlaces
  gridExtent (drawnRange c).1 (drawnRange c).2 (maxPlaces - places) places

/-- The least sample of an item. -/
def leastText (item : Item) : String := (extent item).least.toFixed (extent item).places

/-- The greatest sample of an item. -/
def greatestText (item : Item) : String := (extent item).greatest.toFixed (extent item).places

variable {item : Item}

theorem accepted_of_contains {text : String} {x : Binary64} (hx : leadingNumber? text.toList = some x)
    (hc : (Criterion.read item.target).contains x = true) : Accepted item text where
  satisfies := ⟨x, hx, hc⟩
  passes := by
    have hnumber : Judging.numberPasses ⟨true⟩ item.target text = true := by
      simp only [Judging.numberPasses, hx, hc, Bool.or_true]
    unfold Judging.passes
    rw [hnumber, Bool.or_true]

theorem onGrid_eq {a b : Binary64} (h : a ≤ b) (places : Nat) :
    onGrid a b places =
      gridText a b (maxPlaces - min places maxPlaces) (min places maxPlaces) := by
  unfold onGrid
  rw [if_pos h]

theorem Bounded.not_special (h : Bounded item) : item.kind.isSpecial = false := by
  cases hk : item.kind with
  | holdTime => exact absurd hk h.not_holdTime
  | tack => exact absurd hk h.not_tack
  | thickness => rfl
  | dimension => rfl
  | weight => rfl
  | generic => rfl

/-- The sampler of such an item draws on the grid of its range. -/
theorem sampler_eq (s : Settings) (h : Bounded item) :
    s.sampler item = gridText (drawnRange (Criterion.read item.target)).1
      (drawnRange (Criterion.read item.target)).2
      (maxPlaces - min ((Criterion.read item.target).places item.target) maxPlaces)
      (min ((Criterion.read item.target).places item.target) maxPlaces) := by
  have hordered := drawnRange_ordered (Criterion.read_ordered item.target) h.is_bound
  rw [← onGrid_eq hordered, ← criterionSample_eq h.is_bound]
  rw [Settings.sampler_general s h.not_special, Settings.generalSample_criterion s h.no_rule h.is_bound]

/-- The samples of such an item are written from its extent. -/
theorem Settings.sampler_written (s : Settings) (h : Bounded item) :
    Written (s.sampler item) (extent item) ∧
      min ((Criterion.read item.target).places item.target) maxPlaces ≤ (extent item).places ∧
      (extent item).places ≤ maxPlaces := by
  obtain ⟨l, u, hl, hu, hle⟩ := le_iff_rank.1
    (drawnRange_ordered (Criterion.read_ordered item.target) h.is_bound)
  rw [sampler_eq s h]
  exact gridText_written hl hu hle (by omega)

/-- Between the least and the greatest sample, when both are accepted, every sample is. -/
theorem accepted_between {text : Draw String} {e : GridExtent} (hw : Written text e)
    (hp : e.places ≤ maxPlaces) (hleast : Accepted item (e.least.toFixed e.places))
    (hgreatest : Accepted item (e.greatest.toFixed e.places)) {t : String}
    (ht : Draw.Yields text t) : Accepted item t := by
  obtain ⟨_, _, a, b, ha, hb, hreads⟩ := hw.reads hp
  obtain ⟨_, y, q, hy, hyq, hlow, hhigh⟩ := hreads t ht
  obtain ⟨x, hx, hcx⟩ := hleast.satisfies
  obtain ⟨z, hz, hcz⟩ := hgreatest.satisfies
  obtain ⟨x', hx', hxa⟩ := leadingNumber?_toFixed ha e.places
  obtain ⟨z', hz', hzb⟩ := leadingNumber?_toFixed hb e.places
  rw [hx] at hx'
  rw [hz] at hz'
  cases hx'
  cases hz'
  rw [Nat.min_eq_left hp] at hxa hzb
  exact accepted_of_contains hy (Criterion.contains_between ((le_iff hxa.rank hyq.rank).2 hlow)
    ((le_iff hyq.rank hzb.rank).2 hhigh) hcx hcz)

/-- The samples between moderate bounds are accepted. -/
theorem accepted_of_moderate (h : Bounded item) (hm : Moderate (Criterion.read item.target))
    {text : Draw String} (hw : Written text (extent item))
    (hp : (extent item).places ≤ maxPlaces) {t : String} (ht : Draw.Yields text t) :
    Accepted item t := by
  obtain ⟨l, u, hl, hu, hle, hlm, hum, hcontains⟩ :=
    drawnRange_moderate (Criterion.read_ordered item.target) h.is_bound hm
  obtain ⟨a, b, ha, hb, hlow, hhigh⟩ := gridExtent_moderate hl hu hle hlm hum
    (show min ((Criterion.read item.target).places item.target) maxPlaces +
      (maxPlaces - min ((Criterion.read item.target).places item.target) maxPlaces) = maxPlaces by
      omega)
  obtain ⟨_, _, a', b', ha', hb', hreads⟩ := hw.reads hp
  obtain ⟨_, y, q, hy, hyq, hyl, hyh⟩ := hreads t ht
  rw [ha'.unique ha] at hyl
  rw [hb'.unique hb] at hyh
  exact accepted_of_contains hy
    (hcontains y q hyq (Int.le_trans hlow hyl) (Int.le_trans hyh hhigh))

/-- **The samples of a bounded item read back with their decimals, and all satisfy its criterion
exactly when the least and the greatest do**; moderate bounds are enough for that.  Streams of words are
taken as `Draw.maxRounds` says. -/
theorem Settings.values_accepted (s : Settings) (item : Item) (h : Bounded item) :
    (∀ count words, ∀ text ∈ (s.values item count words).1, Legible item text) ∧
    ((∀ count words, ∀ text ∈ (s.values item count words).1, Accepted item text) ↔
      Accepted item (leastText item) ∧ Accepted item (greatestText item)) ∧
    (Moderate (Criterion.read item.target) →
      ∀ count words, ∀ text ∈ (s.values item count words).1, Accepted item text) := by
  obtain ⟨hw, hmin, hmax⟩ := Settings.sampler_written s h
  obtain ⟨hleast, hgreatest, a, b, _, _, hreads⟩ := hw.reads hmax
  refine ⟨?_, ?_, ?_⟩
  · intro count words text ht
    obtain ⟨hdecimals, y, _, hy, _⟩ := hreads text (Draw.yields_of_mem_times ht)
    exact ⟨⟨y, hy⟩, by omega, by omega⟩
  · constructor
    · intro hall
      have hdrawn := Draw.forall_times.1 hall
      exact ⟨hdrawn _ hleast, hdrawn _ hgreatest⟩
    · rintro ⟨hl, hg⟩ count words text ht
      exact accepted_between hw hmax hl hg (Draw.yields_of_mem_times ht)
  · intro hm count words text ht
    exact accepted_of_moderate h hm hw hmax (Draw.yields_of_mem_times ht)

/-- An item with a tolerance. -/
def peelStrength : Item := { name := "剥离强度", criteria := "10 ± 0.5" }

theorem bounded_peelStrength : Bounded peelStrength where
  not_holdTime := by decide
  not_tack := by decide
  no_rule := rfl
  is_bound := by decide +kernel

/-- All samples of `10 ± 0.5` are accepted. -/
theorem Settings.values_accepted_peelStrength :
    Bounded peelStrength ∧ Moderate (Criterion.read peelStrength.target) ∧
      ∀ count words, ∀ text ∈ (Settings.values {} peelStrength count words).1,
        Accepted peelStrength text := by
  have hm : Moderate (Criterion.read peelStrength.target) := by decide +kernel
  exact ⟨bounded_peelStrength, hm, (Settings.values_accepted {} _ bounded_peelStrength).2.2 hm⟩

/-- An item whose range has too many steps. -/
def concentration : Item := { name := "浓度", criteria := "99999999999999999999.5~0.24" }

theorem bounded_concentration : Bounded concentration where
  not_holdTime := by decide
  not_tack := by decide
  no_rule := rfl
  is_bound := by decide +kernel

/-- The least sample of a range with too many steps is rounded below it. -/
theorem Settings.values_miss_concentration :
    Bounded concentration ∧ (Settings.values {} concentration 1 (.constant 0)).1 = ["0.2"] ∧
      ¬Accepted concentration "0.2" := by
  refine ⟨bounded_concentration, by decide +kernel, ?_⟩
  intro h
  obtain ⟨x, hx, hc⟩ := h.satisfies
  have hmiss : (leadingNumber? "0.2".toList).all
      (fun x => !(Criterion.read concentration.target).contains x) = true := by decide +kernel
  rw [hx, Option.all_some, hc] at hmiss
  cases hmiss

end MaterialInspection.Sample
