import MaterialInspection.Text.Blank

/-!
# Verdicts

A sample, an item or a report either passes or fails.  A label that is not the one for passing
counts as failing, so a damaged record never passes.
-/

set_option autoImplicit false

namespace MaterialInspection

/-- The outcome of an inspection. -/
inductive Verdict
  | pass
  | fail
  deriving DecidableEq, Repr

namespace Verdict

/-- How a verdict is written. -/
def label : Verdict → String
  | .pass => "合格"
  | .fail => "不合格"

/-- The verdict that a label stands for, blanks around it aside. -/
def ofLabel (s : String) : Verdict := if Text.trim s = pass.label then .pass else .fail

/-- The verdict of a test. -/
def ofBool (passed : Bool) : Verdict := if passed then .pass else .fail

def isPass (v : Verdict) : Bool := v == .pass

/-- Passing when every one of them passes. -/
def all (vs : List Verdict) : Verdict := ofBool (vs.all isPass)

theorem ofLabel_label (v : Verdict) : ofLabel v.label = v := by
  cases v <;> decide

theorem isPass_ofBool (b : Bool) : (ofBool b).isPass = b := by cases b <;> rfl

theorem all_eq_pass_iff (vs : List Verdict) : all vs = .pass ↔ ∀ v ∈ vs, v = .pass := by
  unfold all ofBool
  split
  · rename_i h
    simp only [List.all_eq_true, isPass, beq_iff_eq] at h
    simpa using h
  · rename_i h
    simp only [List.all_eq_true, isPass, beq_iff_eq] at h
    simp [h]

end Verdict

end MaterialInspection
