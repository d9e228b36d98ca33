import MaterialInspection.Judging
import MaterialInspection.Sample.Values
import MaterialInspection.SamplingPlan

/-!
# Settings

All that can be tuned about an inspection: how samples are made, how they are judged, and how many
there are.
-/

set_option autoImplicit false

namespace MaterialInspection

/-- The settings of an inspection. -/
structure Settings where
  /-- The number of samples when an inspector does not say. -/
  sampleCount : Nat := 5
  sample : Sample.Settings := {}
  judging : Judging := {}
  plan : SamplingPlan := {}
  deriving DecidableEq

end MaterialInspection
