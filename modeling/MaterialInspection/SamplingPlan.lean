/-!
# Sampling plans

How many samples each item of a delivery gets: by the number of its packages, in tiers.

`SamplingPlan.size` is the size of the lowest tier that the packages fit in, whatever the order in
which the tiers are listed; of tiers with one limit the first listed counts.
-/

set_option autoImplicit false

namespace MaterialInspection

/-- Up to so many packages, so many samples. -/
structure Tier where
  limit : Int
  size : Nat
  deriving DecidableEq, Repr

/-- A number of samples for every number of packages. -/
structure SamplingPlan where
  /-- For a delivery whose packages were not counted. -/
  unknownSize : Nat := 5
  tiers : List Tier := [⟨15, 3⟩, ⟨50, 5⟩, ⟨150, 8⟩]
  /-- For more packages than any tier holds. -/
  largestSize : Nat := 13
  deriving DecidableEq, Repr

namespace SamplingPlan

/-- The tiers from the lowest limit to the highest; equal limits keep their order. -/
def ascending (plan : SamplingPlan) : List Tier :=
  plan.tiers.mergeSort fun a b => decide (a.limit ≤ b.limit)

/-- The number of samples for a number of packages. -/
def size (plan : SamplingPlan) (packages : Int) : Nat :=
  if packages ≤ 0 then plan.unknownSize
  else
    match plan.ascending.find? fun tier => decide (packages ≤ tier.limit) with
    | some tier => tier.size
    | none => plan.largestSize

end SamplingPlan

end MaterialInspection
