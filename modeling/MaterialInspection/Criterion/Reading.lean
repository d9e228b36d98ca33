import MaterialInspection.Criterion
import MaterialInspection.Number.Numeral
import MaterialInspection.Text.Search

/-!
# Reading acceptance texts

An acceptance text is free text with a numeric notation in it:

* a **range**, two numerals around `~`, `～` or `-`, each with units after it: `2.2gf ~ 3.0gf`;
* a **tolerance**, a numeral and a deviation after `±`, or after a plus and a minus with or without
  a slash between them: `10 ± 0.5`;
* a **bound**, a numeral after a comparison sign: `≥ 8`, `<= 10`.

The notations are tried in this order, each at every place of the text from the left, and the first
that is found decides, unless one of its numerals is too large for a double; then the next notation
is tried.  What lies between the parts of a notation is never ambiguous: the characters allowed
there exclude those that the next part starts with, so each part takes all it can.

`Criterion.read` gives the criterion and `Criterion.places` the number of decimals that samples
for it are written with.
-/

set_option autoImplicit false

namespace MaterialInspection

namespace Criterion

/-- The signs between the ends of a range. -/
def isRangeSign (c : Char) : Bool := c == '~' || c == '～' || c == '-'

/-- What may stand between the first numeral of a range and the sign. -/
def isRangeUnit (c : Char) : Bool :=
  !(c.isDigit || c == '.' || c == '~' || c == '～' || c == '+' || c == '/' || c == '-')

/-- What may stand between the sign of a range and the second numeral. -/
def isRangeGap (c : Char) : Bool := !(c.isDigit || c == '.' || c == '+' || c == '/' || c == '-')

/-- The two numerals of a range that starts here. -/
def rangeAt? (cs : List Char) : Option (Numeral × Numeral) :=
  match Numeral.scan? cs with
  | none => none
  | some (first, rest) =>
    match rest.dropWhile isRangeUnit with
    | [] => none
    | sign :: rest =>
      if isRangeSign sign then
        match Numeral.scan? (rest.dropWhile isRangeGap) with
        | some (second, _) => some (first, second)
        | none => none
      else none

/-- What may stand between the base of a tolerance and the sign. -/
def isToleranceUnit (c : Char) : Bool := !(c.isDigit || c == '.' || c == '±' || c == '+')

/-- What may stand between the sign of a tolerance and the deviation. -/
def isToleranceGap (c : Char) : Bool := !(c.isDigit || c == '.')

/-- What follows a tolerance sign. -/
def toleranceSign? : List Char → Option (List Char)
  | '±' :: rest => some rest
  | '+' :: '/' :: '-' :: rest => some rest
  | '+' :: '-' :: rest => some rest
  | _ => none

/-- The base and the deviation of a tolerance that starts here. -/
def toleranceAt? (cs : List Char) : Option (Numeral × Numeral) :=
  match Numeral.scan? cs with
  | none => none
  | some (base, rest) =>
    match toleranceSign? (rest.dropWhile isToleranceUnit) with
    | none => none
    | some rest =>
      match Numeral.scanMagnitude? (rest.dropWhile isToleranceGap) with
      | some (deviation, _) => some (base, deviation)
      | none => none

/-- The numeral after blanks. -/
def boundNumeral? (cs : List Char) : Option Numeral := (Numeral.scan? (Text.trimStart cs)).map (·.1)

/-- The numeral of a minimum that starts here. -/
def minimumAt? : List Char → Option Numeral
  | '≥' :: rest => boundNumeral? rest
  | '>' :: '=' :: rest => boundNumeral? rest
  | '>' :: rest => boundNumeral? rest
  | _ => none

/-- The numeral of a maximum that starts here. -/
def maximumAt? : List Char → Option Numeral
  | '≤' :: rest => boundNumeral? rest
  | '<' :: '=' :: rest => boundNumeral? rest
  | '<' :: rest => boundNumeral? rest
  | _ => none

/-- The values of two numerals, unless one is too large. -/
def bothFinite? (pair : Numeral × Numeral) : Option (Binary64 × Binary64) :=
  match pair.1.finite?, pair.2.finite? with
  | some a, some b => some (a, b)
  | _, _ => none

/-- The range between two numbers in either order. -/
def between (a b : Binary64) : Criterion := if b < a then .range b a else .range a b

/-- The range that a text writes. -/
def readRange? (cs : List Char) : Option Criterion :=
  ((Text.leftmost rangeAt? cs).bind bothFinite?).map fun (a, b) => between a b

/-- The tolerance that a text writes. -/
def readTolerance? (cs : List Char) : Option Criterion :=
  ((Text.leftmost toleranceAt? cs).bind bothFinite?).map fun (base, deviation) =>
    .range (base - deviation) (base + deviation)

/-- The minimum that a text writes. -/
def readMinimum? (cs : List Char) : Option Criterion :=
  ((Text.leftmost minimumAt? cs).bind Numeral.finite?).map .minimum

/-- The maximum that a text writes. -/
def readMaximum? (cs : List Char) : Option Criterion :=
  ((Text.leftmost maximumAt? cs).bind Numeral.finite?).map .maximum

/-- The criterion that characters write. -/
def readChars (cs : List Char) : Criterion :=
  match readRange? cs with
  | some c => c
  | none =>
    match readTolerance? cs with
    | some c => c
    | none =>
      match readMinimum? cs with
      | some c => c
      | none =>
        match readMaximum? cs with
        | some c => c
        | none => .free

/-- The criterion that an acceptance text writes. -/
def read (s : String) : Criterion := readChars (Text.trimChars s.toList)

/-! ## Decimals -/

/-- The number of digits after a point that stands here. -/
def fractionDigitsAt? : List Char → Option Nat
  | '.' :: rest =>
    let digits := rest.takeWhile Char.isDigit
    if digits.isEmpty then none else some digits.length
  | _ => none

/-- The number of decimals when the text shows none. -/
def defaultPlaces : Criterion → Nat
  | .minimum _ => 1
  | .maximum _ => 1
  | .range _ _ => 2
  | .free => 2

/-- The number of decimals of samples for a text: that of its first fraction. -/
def places (c : Criterion) (s : String) : Nat :=
  (Text.leftmost fractionDigitsAt? s.toList).getD c.defaultPlaces

end Criterion

end MaterialInspection
