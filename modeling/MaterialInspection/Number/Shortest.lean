import MaterialInspection.Number.Binary64

/-!
# The shortest decimal of a double

Every decimal in the rounding interval of a double reads back as that double.  The shortest is a
multiple of the largest power of ten that has a multiple in the interval; of two such multiples
the nearer one is taken, and a parameter says which when they are equally near.

`Shortest.digits` finds it in exact arithmetic on units; `plainText` and `jsonText` lay it out.
-/

set_option autoImplicit false

namespace MaterialInspection

open Number

/-- Which of two equally near decimals is taken. -/
inductive Halfway
  | larger
  | even
  deriving DecidableEq

namespace Shortest

/-- A decimal `digits * 10 ^ exponent`. -/
structure Decimal where
  digits : Nat
  exponent : Int
  deriving DecidableEq, Repr

/-- Whether `num / den` units round to `units`; the ends of the interval do when the significand
of `units` is even. -/
def rounds (units num den : Nat) : Bool :=
  let low := (2 * units - spacing (units - 1)) * den
  let high := (2 * units + spacing units) * den
  if units / spacing units % 2 = 0 then decide (low ≤ 2 * num) && decide (2 * num ≤ high)
  else decide (low < 2 * num) && decide (2 * num < high)

/-- The nearest multiple of `10 ^ exponent` that rounds to `units`, if one does. -/
def onGrid? (tie : Halfway) (units : Nat) (exponent : Int) : Option Nat :=
  let step := unitsPerOne * tenTo exponent.toNat
  let den := tenTo (-exponent).toNat
  let below := units * den / step
  let gapBelow := units * den - below * step
  let gapAbove := (below + 1) * step - units * den
  match rounds units (below * step) den, rounds units ((below + 1) * step) den with
  | false, false => none
  | true, false => some below
  | false, true => some (below + 1)
  | true, true =>
    if gapBelow < gapAbove then some below
    else if gapAbove < gapBelow then some (below + 1)
    else match tie with
      | .larger => some (below + 1)
      | .even => some (if below % 2 = 0 then below else below + 1)

/-- The first grid that has a decimal, from `exponent` down. -/
def search (tie : Halfway) (units : Nat) : Nat → Int → Decimal
  | 0, exponent => ⟨units, exponent⟩
  | fuel + 1, exponent =>
    match onGrid? tie units exponent with
    | some digits => ⟨digits, exponent⟩
    | none => search tie units fuel (exponent - 1)

/-- A power of ten that no positive magnitude of this many bits reaches. -/
def topExponent (units : Nat) : Int := ((units.log2 : Int) - 1074) * 30103 / 100000 + 1

/-- The shortest decimal of a positive magnitude; seventeen digits always suffice. -/
def digits (tie : Halfway) (units : Nat) : Decimal := search tie units 24 (topExponent units)

/-- A decimal without an exponent. -/
def Decimal.plainChars (d : Decimal) : List Char :=
  let ds := Nat.toDigits 10 d.digits
  match d.exponent with
  | .ofNat e => ds ++ List.replicate e '0'
  | .negSucc e =>
    let places := e + 1
    if places < ds.length then ds.take (ds.length - places) ++ '.' :: ds.drop (ds.length - places)
    else '0' :: '.' :: (List.replicate (places - ds.length) '0' ++ ds)

/-- A decimal with one digit before the point and an exponent. -/
def Decimal.scientificChars (d : Decimal) : List Char :=
  let ds := Nat.toDigits 10 d.digits
  let exponent : Int := d.exponent + (ds.length : Int) - 1
  let fraction := ds.drop 1
  ds.take 1 ++ (if fraction.isEmpty then [] else '.' :: fraction) ++ 'e' ::
    (if exponent < 0 then '-' else '+') :: Nat.toDigits 10 exponent.natAbs

end Shortest

namespace Binary64

/-- The text of a double in a sentence: the shortest decimal, never with an exponent. -/
def plainText : Binary64 → String
  | .nan => "NaN"
  | .infinite negative => if negative then "-inf" else "inf"
  | .finite negative units _ =>
    let body := if units = 0 then ['0'] else (Shortest.digits .larger units).plainChars
    String.ofList (if negative then '-' :: body else body)

/-- The text of a double in JSON: always with a point or an exponent, and positional when the
point falls within the first sixteen digits or at most four zeros before them. -/
def jsonText : Binary64 → String
  | .nan => "null"
  | .infinite _ => "null"
  | .finite negative units _ =>
    let body :=
      if units = 0 then ['0', '.', '0']
      else
        let d := Shortest.digits .even units
        let point : Int := d.exponent + ((Nat.toDigits 10 d.digits).length : Int)
        if -5 < point ∧ point ≤ 16 then
          if 0 ≤ d.exponent then d.plainChars ++ ['.', '0'] else d.plainChars
        else d.scientificChars
    String.ofList (if negative then '-' :: body else body)

end Binary64

end MaterialInspection
