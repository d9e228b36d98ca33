import MaterialInspection.Number.Binary64

/-!
# Numbers with a fixed number of decimals

`Binary64.toFixed` writes the exact value of a double, rounded half to even at a number of decimals
(at most ten), with a minus sign exactly when the rounded value is negative, so that no sample
reads `-0.00`.

The text is made in two steps, the rounded magnitude in steps of the last decimal (`scaledUnits`)
and the characters of such a magnitude (`fixedChars`), so that statements about values need no
characters.
-/

set_option autoImplicit false

namespace MaterialInspection

open Number

/-- A number in decimal with zeros in front up to a width. -/
def padded (width n : Nat) : List Char :=
  let digits := Nat.toDigits 10 n
  List.replicate (width - digits.length) '0' ++ digits

/-- The text of `scaled / 10 ^ places` with all its decimals. -/
def fixedChars (places scaled : Nat) : List Char :=
  Nat.toDigits 10 (scaled / tenTo places) ++
    if places = 0 then [] else '.' :: padded places (scaled % tenTo places)

/-- The most decimals a sample is written with. -/
def maxPlaces : Nat := 10

namespace Binary64

/-- A magnitude in steps of `10 ^ -places`, rounded half to even. -/
def scaledUnits (places units : Nat) : Nat := roundHalfEven (units * tenTo places) unitsPerOne

/-- The characters of a number with `places` decimals, at most ten. -/
def toFixedChars (x : Binary64) (places : Nat) : List Char :=
  match x with
  | .nan => ['N', 'a', 'N']
  | .infinite negative => if negative then ['-', 'i', 'n', 'f'] else ['i', 'n', 'f']
  | .finite negative units _ =>
    let places := min places maxPlaces
    let scaled := scaledUnits places units
    if negative && scaled != 0 then '-' :: fixedChars places scaled else fixedChars places scaled

/-- The text of a number with `places` decimals, at most ten. -/
def toFixed (x : Binary64) (places : Nat) : String := String.ofList (x.toFixedChars places)

end Binary64

end MaterialInspection
