import MaterialInspection.Json.Value
import MaterialInspection.Number.Numeral
import MaterialInspection.Sample.Spread
import MaterialInspection.Verdict

/-!
# Rules for sample values

An item may carry a rule for its samples, a JSON object whose `type` is

* `fixed`: every sample is the text `value`;
* `enum`: every sample is a verdict, passing in `passRate` percent of the draws;
* `random_range`: every sample is `base` plus an offset between `minOffset` and `maxOffset`, written
  with `precision` decimals.

A rule that is no such object is no rule.  Within a rule nothing is an error: a field that is missing
or unreadable has a default, and numbers may be written as texts that start with them.
-/

set_option autoImplicit false

namespace MaterialInspection.Sample

/-- A rule for sample values. -/
inductive Rule
  | fixed (value : String)
  | passRate (percent : Binary64)
  | offset (base low high : Binary64) (places : Nat)
  deriving DecidableEq

namespace Rule

/-- The sample of a `fixed` rule without a value. -/
def defaultText : String := "OK"

/-- The decimals of an offset rule that does not say. -/
def defaultPlaces : Nat := 2

/-- A finite number, or a text that starts with one. -/
def double? : Json.Value → Option Binary64
  | .number n => some n.toDouble |>.filter Binary64.isFinite
  | .text s => leadingNumber? s.toList
  | _ => none

/-- The number of a member, if it has one. -/
def memberDouble? (rule : Json.Value) (key : String) : Option Binary64 := (rule.member? key).bind double?

/-- The sample of a `fixed` rule: a text that is not empty, or a number as it is written. -/
def fixedText : Option Json.Value → String
  | some (.text s) => if s.isEmpty then defaultText else s
  | some (.number n) => n.text
  | _ => defaultText

/-- A number of decimals: the whole part of a number that is not negative, at most ten. -/
def places? (x : Binary64) : Option Nat :=
  if x < 0 then none else x.wholePart?.map fun n => min n.toNat maxPlaces

/-- The rule that a JSON value writes; a rule without a base takes the number that the item's
standard starts with. -/
def ofJson? (standard : String) (rule : Json.Value) : Option Rule :=
  match rule.member? "type" with
  | some (.text kind) =>
    let kind := Text.trim kind
    if kind = "fixed" then some (.fixed (fixedText (rule.member? "value")))
    else if kind = "enum" then
      some (.passRate (((memberDouble? rule "passRate").getD 100).clamp 0 100))
    else if kind = "random_range" then
      some (.offset
        (((memberDouble? rule "base").or (leadingNumber? standard.toList)).getD 0)
        ((memberDouble? rule "minOffset").getD 0)
        ((memberDouble? rule "maxOffset").getD 0)
        (((memberDouble? rule "precision").bind places?).getD defaultPlaces))
    else none
  | _ => none

/-- The rule that a text writes. -/
def read? (rule : Option String) (standard : String) : Option Rule :=
  match rule with
  | none => none
  | some text => (Json.Value.parse? (Text.trim text)).bind (ofJson? standard)

/-- A base plus an offset between two bounds, in fixed decimals. -/
def offsetSample (base low high : Binary64) (places : Nat) : Draw String :=
  Draw.map (fun offset => (base + offset).toFixed places) (uniform low high)

/-- One sample by a rule. -/
def sample : Rule → Draw String
  | .fixed value => Draw.certain value
  | .passRate percent =>
    Draw.map (fun passed => (Verdict.ofBool passed).label) (Draw.coin ((percent / 100).clamp 0 1))
  | .offset base low high places => offsetSample base low high places

end Rule

end MaterialInspection.Sample
