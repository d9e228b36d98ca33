import MaterialInspection.Criterion.Reading
import MaterialInspection.Item
import MaterialInspection.Verdict

/-!
# Judging samples

A sample passes an item if it is one of the two words for all right, if it is the item's target
text, if the item is a hold time and the sample's first whole number reaches the target's, or if it
starts with a number.  In strict judging that number also has to satisfy the criterion that the
target writes.  An item passes if all its samples do.
-/

set_option autoImplicit false

namespace MaterialInspection

/-- How samples are judged. -/
structure Judging where
  /-- Whether measured values have to satisfy the acceptance criterion. -/
  strict : Bool := false
  deriving DecidableEq, Repr

namespace Judging

/-- The words that pass every item. -/
def accepted : List String := ["OK", Verdict.pass.label]

/-- Whether a hold time is at least as long as the target's. -/
def holdsLongEnough (target value : String) : Bool :=
  match firstInteger? value.toList, firstInteger? target.toList with
  | some v, some t => decide (t ≤ v)
  | _, _ => false

/-- Whether a sample passes by the number that it starts with. -/
def numberPasses (j : Judging) (target value : String) : Bool :=
  match leadingNumber? value.toList with
  | some x => !j.strict || (Criterion.read target).contains x
  | none => false

/-- Whether a sample passes. -/
def passes (j : Judging) (item : Item) (value : String) : Bool :=
  accepted.contains value || (item.target != "" && value == item.target) ||
    (item.kind == .holdTime && holdsLongEnough item.target value) || j.numberPasses item.target value

/-- The verdict on the samples of an item. -/
def judge (j : Judging) (item : Item) (values : List String) : Verdict :=
  Verdict.ofBool (values.all (j.passes item))

/-- An item passes exactly when each of its samples does. -/
theorem judge_eq_pass_iff {j : Judging} {item : Item} (values : List String) :
    j.judge item values = .pass ↔ ∀ v ∈ values, j.passes item v = true := by
  unfold judge Verdict.ofBool
  rw [← List.all_eq_true]
  cases values.all (j.passes item) with
  | false => simp
  | true => simp

end Judging

end MaterialInspection
