import MaterialInspection.Criterion.Reading
import MaterialInspection.Item
import MaterialInspection.Sample.Rule

/-!
# Sample values of an item

Every item gets samples; there is no error, but a list has room for `capacity` of them only.  The item
decides how one sample is drawn (`Settings.sampler`), and its samples are that draw again and again
(`Settings.values`).  In order of precedence:

1. a hold-time item repeats its target text, and a tack item draws a ball number;
2. an item with a rule follows it;
3. an item whose target text sets a numeric bound draws from the range that the bound allows;
4. a thickness, a dimension or a weight is drawn around the number that the standard starts with;
5. any other item is all right.

Principal statements: `length_values` (there are as many samples as were asked for), and
`generalSample_criterion` and `generalSample_near` (what a draw without a rule comes to).
-/

set_option autoImplicit false

namespace MaterialInspection.Sample

/-- What samples are made from when an item does not say. -/
structure Settings where
  /-- The text of a hold time without a target. -/
  holdTime : String := "≥ 24h"
  /-- The tack ball to start from when the target names none. -/
  tackMinimum : Int := 4
  /-- The largest tack ball, unless the one to start from is larger. -/
  tackCap : Int := 12
  thicknessBase : Binary64 := 0.05
  dimensionBase : Binary64 := 500
  weightBase : Binary64 := 10
  deriving DecidableEq

/-- The sample of an item that has nothing to measure. -/
def allRight : String := "OK"

/-- How many samples a list has room for: a text takes 24 bytes of it, and all of them fewer than
`2 ^ 63`. -/
def capacity : Nat := 384307168202282325

example : 24 * capacity < 2 ^ 63 ∧ 2 ^ 63 ≤ 24 * (capacity + 1) := by decide

/-- Whether there is room for as many samples of each of some items. -/
def hasRoom (items : List Item) (count : Nat) : Bool := items.isEmpty || decide (count ≤ capacity)

/-- The digits of a ball number that starts here: a number sign follows it, after blanks. -/
def ballAt? (cs : List Char) : Option (List Char) :=
  let digits := cs.takeWhile Char.isDigit
  if digits.isEmpty then none
  else
    match Text.trimStart (cs.dropWhile Char.isDigit) with
    | '#' :: _ => some digits
    | _ => none

/-- The ball that a tack target starts from: the first ball number, or else the first whole number. -/
def startBall? (target : List Char) : Option Int :=
  ((Text.leftmost ballAt? target).bind readInt64?).or (firstInteger? target)

/-- The text of a ball number. -/
def ballText (n : Int) : String := toString n ++ "#"

/-- A value that satisfies a criterion: within its range, or up to a fifth beyond its bound. -/
def criterionSample (c : Criterion) (places : Nat) : Draw String :=
  match c with
  | .range min max => onGrid min max places
  | .minimum bound =>
    let headroom := (if bound.same 0 then 1 else bound.abs) * 0.2
    onGrid bound (bound + headroom) places
  | .maximum bound =>
    let lower := if 0 < bound then bound * 0.8 else bound * 1.2
    onGrid lower bound places
  | .free => Draw.certain allRight

/-- The number that a standard starts with, unless it is zero. -/
def baseOr (standard : String) (fallback : Binary64) : Binary64 :=
  ((leadingNumber? standard.toList).filter fun x => !x.same 0).getD fallback

namespace Settings

/-- A ball from the one that the target starts from to the largest. -/
def tackSample (s : Settings) (target : String) : Draw String :=
  let low := (startBall? target.toList).getD s.tackMinimum
  Draw.map ballText (Draw.between low (max low s.tackCap))

/-- A value around the number that the standard starts with, for the kinds that have one. -/
def nearStandard (s : Settings) (item : Item) : Draw String :=
  match item.kind with
  | .thickness =>
    let base := baseOr item.standard s.thicknessBase
    let spread := base.abs * 0.1
    Rule.offsetSample base (-spread) spread 3
  | .dimension => Rule.offsetSample (baseOr item.standard s.dimensionBase) (-2) 2 1
  | .weight =>
    let base := baseOr item.standard s.weightBase
    let spread := base.abs * 0.05
    Rule.offsetSample base (-spread) spread 2
  | _ => Draw.certain allRight

/-- One sample of an item that is neither a hold time nor a tack. -/
def generalSample (s : Settings) (item : Item) : Draw String :=
  match Rule.read? item.rule item.standard with
  | some rule => rule.sample
  | none =>
    match Criterion.read item.target with
    | .free => s.nearStandard item
    | c => criterionSample c (c.places item.target)

/-- One sample of an item. -/
def sampler (s : Settings) (item : Item) : Draw String :=
  match item.kind with
  | .holdTime => Draw.certain (if Text.blank item.target then s.holdTime else item.target)
  | .tack => s.tackSample item.target
  | _ => s.generalSample item

/-- A number of samples of an item, for which there has to be room (`hasRoom`). -/
def values (s : Settings) (item : Item) (count : Nat) : Draw (List String) :=
  Draw.times count (s.sampler item)

/-- There are as many samples as were asked for. -/
theorem length_values (s : Settings) (item : Item) (count : Nat) (words : WordStream) :
    (s.values item count words).1.length = count :=
  Draw.length_times count (s.sampler item) words

/-- Only hold times and tacks are sampled in ways of their own. -/
theorem sampler_general (s : Settings) {item : Item} (hk : item.kind.isSpecial = false) :
    s.sampler item = s.generalSample item := by
  unfold sampler
  split
  · rename_i hkind
    rw [hkind] at hk
    cases hk
  · rename_i hkind
    rw [hkind] at hk
    cases hk
  · rfl

/-- Without a rule an item with a bound is sampled by it. -/
theorem generalSample_criterion (s : Settings) {item : Item}
    (hr : Rule.read? item.rule item.standard = none)
    (hb : (Criterion.read item.target).isBound = true) :
    s.generalSample item =
      criterionSample (Criterion.read item.target) ((Criterion.read item.target).places item.target) := by
  unfold generalSample
  rw [hr]
  cases hread : Criterion.read item.target with
  | range min max => rfl
  | minimum bound => rfl
  | maximum bound => rfl
  | free =>
    rw [hread] at hb
    cases hb

/-- Without a rule and a bound an item is sampled by its standard. -/
theorem generalSample_near (s : Settings) {item : Item}
    (hr : Rule.read? item.rule item.standard = none)
    (hb : (Criterion.read item.target).isBound = false) :
    s.generalSample item = s.nearStandard item := by
  unfold generalSample
  rw [hr]
  cases hread : Criterion.read item.target with
  | range min max =>
    rw [hread] at hb
    cases hb
  | minimum bound =>
    rw [hread] at hb
    cases hb
  | maximum bound =>
    rw [hread] at hb
    cases hb
  | free => rfl

end Settings

end MaterialInspection.Sample
