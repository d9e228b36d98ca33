import MaterialInspection.Number.Shortest

/-!
# Acceptance criteria

What an acceptance text demands of a measured value: to lie in a closed range, above a minimum, below
a maximum, or nothing that can be measured.  A value may miss a bound by `1e-9`, so that a bound
passes whatever the rounding of its decimals.
-/

set_option autoImplicit false

namespace MaterialInspection

/-- What a measured value has to satisfy. -/
inductive Criterion
  | range (min max : Binary64)
  | minimum (bound : Binary64)
  | maximum (bound : Binary64)
  /-- The text sets no numeric bound. -/
  | free
  deriving DecidableEq

namespace Criterion

/-- How far a value may miss a bound. -/
def tolerance : Binary64 := 1e-9

/-- Whether the criterion bounds a value at all. -/
def isBound : Criterion → Bool
  | .free => false
  | _ => true

/-- Whether a value satisfies the criterion; what is not a number satisfies no bound. -/
def contains (c : Criterion) (x : Binary64) : Bool :=
  match c with
  | .range min max => (min - tolerance).le x && x.le (max + tolerance)
  | .minimum bound => (bound - tolerance).le x
  | .maximum bound => x.le (bound + tolerance)
  | .free => true

/-- The criterion in mathematical notation. -/
def describe : Criterion → String
  | .range min max => "[" ++ min.plainText ++ ", " ++ max.plainText ++ "]"
  | .minimum bound => "≥ " ++ bound.plainText
  | .maximum bound => "≤ " ++ bound.plainText
  | .free => "UNPARSEABLE"

end Criterion

end MaterialInspection
