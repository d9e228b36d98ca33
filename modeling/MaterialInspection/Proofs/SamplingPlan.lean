import Mathlib.Data.List.Nodup
import MaterialInspection.Proofs.StableSort
import MaterialInspection.Settings.Stored

/-!
# Which tier decides

The number of samples is that of one tier, or of none: the default for packages that were not counted,
the size of the lowest tier that holds the packages, or the largest size above all tiers.  From this it
can be read off a plan, and off the texts that it is kept as, whether every delivery gets samples.

* `SamplingPlan.size_cases` — the size for any number of packages.
* `SamplingPlan.samples_iff` — which plans have samples for every number of packages.
* `Settings.load_samples_iff` — which texts write such a plan.  The number of samples for the inspectors
  themselves is at least one whatever its text (`Settings.one_le_sampleCount`).
-/

set_option autoImplicit false

namespace MaterialInspection

namespace SamplingPlan

variable {plan : SamplingPlan} {packages : Int} {tier other : Tier}

/-! ## The tier that decides -/

/-- The first of the tiers with a limit, in the order in which they are listed. -/
def firstOf? (plan : SamplingPlan) (limit : Int) : Option Tier :=
  plan.tiers.find? fun tier => tier.limit == limit

/-- A tier decides on a number of packages. -/
structure Decides (plan : SamplingPlan) (packages : Int) (tier : Tier) : Prop where
  /-- It is the first of its limit. -/
  first : plan.firstOf? tier.limit = some tier
  /-- The packages fit in. -/
  holds : packages ≤ tier.limit
  /-- They fit in no tier with a lower limit. -/
  lowest : ∀ other ∈ plan.tiers, packages ≤ other.limit → tier.limit ≤ other.limit

theorem Decides.listed (h : plan.Decides packages tier) : tier ∈ plan.tiers :=
  List.mem_of_find?_eq_some h.first

/-- Sorting leaves the first tier of each limit the first. -/
theorem firstOf?_eq (plan : SamplingPlan) (limit : Int) :
    plan.firstOf? limit = plan.ascending.find? fun tier => tier.limit == limit := by
  have hsame : (plan.ascending.filter fun tier => tier.limit == limit) =
      plan.tiers.filter fun tier => tier.limit == limit :=
    Sorting.filter_mergeSort_key Tier.limit limit plan.tiers
  unfold firstOf?
  rw [← List.head?_filter, ← List.head?_filter, hsame]

/-- The tier that is found in the sorted list decides. -/
theorem decides_of_find
    (h : (plan.ascending.find? fun tier => decide (packages ≤ tier.limit)) = some tier) :
    plan.Decides packages tier := by
  obtain ⟨hholds, front, back, hsorted, hfront⟩ := List.find?_eq_some_iff_append.1 h
  have hlower : ∀ other ∈ front, other.limit < packages := by
    intro other hother
    have hnot := hfront other hother
    rw [Bool.not_eq_true', decide_eq_false_iff_not] at hnot
    omega
  have hholds : packages ≤ tier.limit := of_decide_eq_true hholds
  refine ⟨?_, hholds, ?_⟩
  · have hnone : (front.find? fun other => other.limit == tier.limit) = none := by
      rw [List.find?_eq_none]
      intro other hother
      have hlt := hlower other hother
      rw [beq_iff_eq]
      omega
    have hself : (tier.limit == tier.limit) = true := beq_self_eq_true _
    rw [firstOf?_eq, hsorted, List.find?_append, hnone, Option.none_or, List.find?_cons, hself]
  · intro other hother hfits
    have hmem : other ∈ front ++ tier :: back := by
      rw [← hsorted]
      exact List.mem_mergeSort.2 hother
    have hpair : (front ++ tier :: back).Pairwise fun a b => a.limit ≤ b.limit := by
      rw [← hsorted]
      exact Sorting.pairwise_mergeSort_key Tier.limit plan.tiers
    rcases List.mem_append.1 hmem with hmem | hmem
    · have hlt := hlower other hmem
      omega
    · rcases List.mem_cons.1 hmem with rfl | hmem
      · exact Int.le_refl _
      · exact (List.pairwise_cons.1 (List.pairwise_append.1 hpair).2.1).1 other hmem

/-- One tier decides at most. -/
theorem Decides.unique (h : plan.Decides packages tier) (hother : plan.Decides packages other) :
    tier = other := by
  have hlimit : tier.limit = other.limit := by
    have hle := h.lowest other hother.listed hother.holds
    have hge := hother.lowest tier h.listed h.holds
    omega
  have hfirst := h.first
  rw [hlimit, hother.first] at hfirst
  exact (Option.some.inj hfirst).symm

/-- The first tier of a limit decides on as many packages as its limit. -/
theorem decides_of_first {limit : Int} (h : plan.firstOf? limit = some tier) :
    plan.Decides limit tier := by
  have hlimit : tier.limit = limit :=
    eq_of_beq (List.find?_some (p := fun tier : Tier => tier.limit == limit) h)
  refine ⟨by rw [hlimit, h], Int.le_of_eq hlimit.symm, fun other _ hfits => ?_⟩
  rw [hlimit]
  exact hfits

/-! ## The size -/

/-- The size for a number of packages: of the tier that decides, or one of the two that stand outside
the tiers. -/
theorem size_cases (plan : SamplingPlan) (packages : Int) :
    (packages ≤ 0 ∧ plan.size packages = plan.unknownSize) ∨
      (0 < packages ∧ ∃ tier, plan.Decides packages tier ∧ plan.size packages = tier.size) ∨
      0 < packages ∧ (∀ tier ∈ plan.tiers, tier.limit < packages) ∧
        plan.size packages = plan.largestSize := by
  unfold size
  by_cases hcounted : packages ≤ 0
  · exact .inl ⟨hcounted, if_pos hcounted⟩
  · rw [if_neg hcounted]
    have hpos : 0 < packages := by omega
    cases hfind : plan.ascending.find? fun tier => decide (packages ≤ tier.limit) with
    | some tier => exact .inr (.inl ⟨hpos, tier, decides_of_find hfind, rfl⟩)
    | none =>
      refine .inr (.inr ⟨hpos, fun tier htier => ?_, rfl⟩)
      have hnot := List.find?_eq_none.1 hfind tier (List.mem_mergeSort.2 htier)
      rw [decide_eq_true_eq] at hnot
      omega

theorem size_of_decides (hpos : 0 < packages) (h : plan.Decides packages tier) :
    plan.size packages = tier.size := by
  rcases plan.size_cases packages with ⟨hle, _⟩ | ⟨_, other, hother, hsize⟩ | ⟨_, hlower, _⟩
  · omega
  · rw [hsize, h.unique hother]
  · have hlt := hlower tier h.listed
    have hholds := h.holds
    omega

/-- Above all tiers the largest size holds. -/
theorem size_of_above (hpos : 0 < packages) (h : ∀ tier ∈ plan.tiers, tier.limit < packages) :
    plan.size packages = plan.largestSize := by
  rcases plan.size_cases packages with ⟨hle, _⟩ | ⟨_, tier, hdecides, _⟩ | ⟨_, _, hsize⟩
  · omega
  · have hlt := h tier hdecides.listed
    have hholds := hdecides.holds
    omega
  · exact hsize

/-- Where no limit stands twice, each tier is the first of its limit. -/
theorem firstOf?_of_mem (hdistinct : (plan.tiers.map Tier.limit).Nodup) (h : tier ∈ plan.tiers) :
    plan.firstOf? tier.limit = some tier := by
  unfold firstOf?
  cases hfind : plan.tiers.find? fun other => other.limit == tier.limit with
  | none => exact absurd (List.find?_eq_none.1 hfind tier h) (by simp)
  | some other =>
    have hlimit : other.limit = tier.limit := eq_of_beq (List.find?_some (p := fun other : Tier =>
      other.limit == tier.limit) hfind)
    rw [List.inj_on_of_nodup_map hdistinct (List.mem_of_find?_eq_some hfind) h hlimit]

/-- Where no limit stands twice, the order in which the tiers are listed does not matter. -/
theorem size_of_perm {others : List Tier} (hperm : others.Perm plan.tiers)
    (hdistinct : (others.map Tier.limit).Nodup) (packages : Int) :
    size { plan with tiers := others } packages = plan.size packages := by
  have hlisted : (plan.tiers.map Tier.limit).Nodup := (hperm.map Tier.limit).nodup_iff.1 hdistinct
  rcases size_cases { plan with tiers := others } packages with
    ⟨hle, hsize⟩ | ⟨hpos, tier, hdecides, hsize⟩ | ⟨hpos, habove, hsize⟩
  · rw [hsize]
    exact (if_pos hle).symm
  · have hmem := hperm.mem_iff.1 hdecides.listed
    rw [hsize, size_of_decides hpos ⟨firstOf?_of_mem hlisted hmem, hdecides.holds,
      fun other hother => hdecides.lowest other (hperm.mem_iff.2 hother)⟩]
  · rw [hsize, size_of_above hpos fun tier htier => habove tier (hperm.mem_iff.2 htier)]

/-! ## Plans with samples for all -/

/-- None of the sizes that a number of packages can be given is zero: not the default, not the size of
a tier that is the first of a positive limit, and not the largest size, unless the tiers hold every
number of packages. -/
structure Samples (plan : SamplingPlan) : Prop where
  unknown : plan.unknownSize ≠ 0
  tiers : ∀ limit tier, 0 < limit → plan.firstOf? limit = some tier → tier.size ≠ 0
  largest : plan.largestSize ≠ 0 ∨ ∃ tier ∈ plan.tiers, tier.limit = maxInt32

/-- **Which plans have samples for all**: every number of packages gets at least one exactly when no
size that it can be given is zero. -/
theorem samples_iff (hlimits : ∀ tier ∈ plan.tiers, tier.limit ≤ maxInt32) :
    (∀ packages, minInt32 ≤ packages → packages ≤ maxInt32 → 1 ≤ plan.size packages) ↔
      plan.Samples := by
  constructor
  · intro h
    refine ⟨?_, ?_, ?_⟩
    · have hzero : plan.size 0 = plan.unknownSize := if_pos (Int.le_refl 0)
      rw [← hzero]
      exact Nat.one_le_iff_ne_zero.1 (h 0 (by decide) (by decide))
    · intro limit tier hpos hfirst
      have hdecides := decides_of_first hfirst
      have hmax : limit ≤ maxInt32 := Int.le_trans hdecides.holds (hlimits tier hdecides.listed)
      have hmin : minInt32 ≤ limit := Int.le_trans (by decide) (Int.le_of_lt hpos)
      rw [← size_of_decides hpos hdecides]
      exact Nat.one_le_iff_ne_zero.1 (h limit hmin hmax)
    · by_contra hnone
      obtain ⟨hzero, hbelow⟩ := not_or.1 hnone
      rw [ne_eq, not_not] at hzero
      have habove : ∀ tier ∈ plan.tiers, tier.limit < maxInt32 := by
        intro tier htier
        have hne : tier.limit ≠ maxInt32 := fun heq => hbelow ⟨tier, htier, heq⟩
        have hle := hlimits tier htier
        omega
      have hsize := h maxInt32 (by decide) (Int.le_refl _)
      rw [size_of_above (by decide) habove, hzero] at hsize
      omega
  · intro h packages _ hmax
    rw [Nat.one_le_iff_ne_zero]
    rcases plan.size_cases packages with ⟨_, hsize⟩ | ⟨hpos, tier, hdecides, hsize⟩ |
      ⟨hpos, hlower, hsize⟩
    · rw [hsize]
      exact h.unknown
    · rw [hsize]
      refine h.tiers tier.limit tier ?_ hdecides.first
      exact Int.lt_of_lt_of_le hpos hdecides.holds
    · rw [hsize]
      refine h.largest.resolve_right ?_
      rintro ⟨tier, htier, hlimit⟩
      have hlt := hlower tier htier
      omega

end SamplingPlan

/-! ## Plans that texts write -/

namespace Tier

/-- The limit of a tier that is read has 32 bits. -/
theorem limit_le_of_read {cs : List Char} {tier : Tier} (h : read? cs = some tier) :
    tier.limit ≤ maxInt32 := by
  unfold read? at h
  split at h
  · cases h
  · split at h
    · rename_i hlimit _
      cases h
      have hbounds := (Option.filter_eq_some_iff.1 hlimit).2
      rw [Bool.and_eq_true, decide_eq_true_eq, decide_eq_true_eq] at hbounds
      exact hbounds.2
    · cases h

theorem limit_le_of_mapM {parts : List (List Char)} {tiers : List Tier}
    (h : parts.mapM read? = some tiers) : ∀ tier ∈ tiers, tier.limit ≤ maxInt32 := by
  induction parts generalizing tiers with
  | nil =>
    cases h
    nofun
  | cons part parts ih =>
    rw [List.mapM_cons] at h
    obtain ⟨tier, htier, hrest⟩ := Option.bind_eq_some_iff.1 h
    obtain ⟨rest, hparts, hcons⟩ := Option.bind_eq_some_iff.1 hrest
    cases hcons
    exact List.forall_mem_cons.2 ⟨limit_le_of_read htier, ih hparts⟩

theorem limit_le_of_readAll {cs : List Char} {tiers : List Tier} (h : readAll? cs = some tiers) :
    ∀ tier ∈ tiers, tier.limit ≤ maxInt32 := by
  unfold readAll? at h
  dsimp only at h
  split at h
  · rename_i hparts
    cases h
    exact limit_le_of_mapM hparts
  · cases h

end Tier

namespace Settings

variable {α : Type} {text : SettingKey → Option String} {key : SettingKey}

/-- A setting with another value than its default is written. -/
theorem setting_eq_iff {read? : List Char → Option α} {default a : α} (h : default ≠ a) :
    setting text key read? default = a ↔
      ∃ s, text key = some s ∧ read? (Text.trimChars s.toList) = some a := by
  unfold setting
  cases text key with
  | none => exact ⟨fun hdefault => absurd hdefault h, fun ⟨s, hs, _⟩ => by cases hs⟩
  | some s =>
    dsimp only
    constructor
    · intro hread
      cases hs : read? (Text.trimChars s.toList) with
      | none =>
        rw [hs, Option.getD_none] at hread
        exact absurd hread h
      | some b =>
        rw [hs, Option.getD_some] at hread
        exact ⟨s, rfl, by rw [hs, hread]⟩
    · rintro ⟨_, ⟨⟩, hread⟩
      rw [hread, Option.getD_some]

/-- What holds of the default and of all that can be read holds of a setting. -/
theorem setting_satisfies {read? : List Char → Option α} {default : α} {P : α → Prop}
    (hdefault : P default) (hread : ∀ cs a, read? (Text.trimChars cs) = some a → P a) :
    P (setting text key read? default) := by
  unfold setting
  cases text key with
  | none => exact hdefault
  | some s =>
    dsimp only
    cases hs : read? (Text.trimChars s.toList) with
    | none => exact hdefault
    | some a => exact hread s.toList a hs

/-- The text under a key is a zero. -/
def WritesZero (text : SettingKey → Option String) (key : SettingKey) : Prop :=
  ∃ s, text key = some s ∧ readSize? (Text.trimChars s.toList) = some 0

/-- An inspector who does not say how many samples there are to be gets one at least. -/
theorem one_le_sampleCount (text : SettingKey → Option String) : 1 ≤ (load text).sampleCount :=
  Nat.le_max_right _ _

theorem load_unknownSize : (load text).plan.unknownSize = 0 ↔ WritesZero text .unknownSize :=
  setting_eq_iff (by decide)

theorem load_largestSize : (load text).plan.largestSize = 0 ↔ WritesZero text .largestSize :=
  setting_eq_iff (by decide)

/-- The limits of the tiers have 32 bits, whatever their text. -/
theorem load_limit_le (text : SettingKey → Option String) :
    ∀ tier ∈ (load text).plan.tiers, tier.limit ≤ maxInt32 := by
  have hdefault : ∀ tier ∈ ({} : SamplingPlan).tiers, tier.limit ≤ maxInt32 := by decide
  exact setting_satisfies (P := fun tiers : List Tier => ∀ tier ∈ tiers, tier.limit ≤ maxInt32) hdefault
    fun _ _ => Tier.limit_le_of_readAll

/-- **Which texts write a plan with samples for all.**  The default and the largest size are zero only
where their texts are zeros, so every number of packages gets at least one sample exactly when no such
text takes effect and no tier that can decide has size zero. -/
theorem load_samples_iff (text : SettingKey → Option String) :
    (∀ packages, minInt32 ≤ packages → packages ≤ maxInt32 → 1 ≤ (load text).plan.size packages) ↔
      ¬WritesZero text .unknownSize ∧
        (¬WritesZero text .largestSize ∨ ∃ tier ∈ (load text).plan.tiers, tier.limit = maxInt32) ∧
        ∀ limit tier, 0 < limit → (load text).plan.firstOf? limit = some tier → tier.size ≠ 0 := by
  rw [SamplingPlan.samples_iff (load_limit_le text), ← load_unknownSize, ← load_largestSize]
  exact ⟨fun h => ⟨h.unknown, h.largest, h.tiers⟩, fun h => ⟨h.1, h.2.2, h.2.1⟩⟩

end Settings

end MaterialInspection
