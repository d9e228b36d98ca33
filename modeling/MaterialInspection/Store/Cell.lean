import MaterialInspection.Number.Extended
import MaterialInspection.Number.Numeral

/-!
# Cells of numeric columns

A column for numbers keeps a text that is a numeral as the number it writes, and any other text as
it is.  Whole numbers of 64 bits are kept exactly; all other numbers are doubles, and a zero loses its
sign.

The double of a numeral is worked out with 64 significant bits: its leading digits, as many as fit,
are multiplied by a power of ten step by step.  It is not always the nearest double.
-/

set_option autoImplicit false

namespace MaterialInspection

/-- What a column for numbers holds. -/
inductive NumberCell
  | whole (n : Int)
  | real (x : Binary64)
  | text (s : String)
  deriving DecidableEq

namespace NumberCell

/-- The blanks that a numeral may stand between. -/
def isSpace (c : Char) : Bool := c == ' ' || (9 ≤ c.toNat && c.toNat ≤ 13)

/-- The first number that takes no further digit, so that all digits taken fit in 64 bits. -/
def fullSignificand : Nat := (wordCount - 10) / 10

/-- A number with digits appended until it is full, and how many digits are left over. -/
def takeDigits (n : Nat) : List Char → Nat × Nat
  | [] => (n, 0)
  | c :: cs =>
    if n < fullSignificand then takeDigits (n * 10 + (c.toNat - 48)) cs else (n, cs.length + 1)

/-- The size of an exponent: its digits count until they make ten thousand, and with any more of them
it is ten thousand. -/
def exponentSize (digits : List Char) : Nat :=
  digits.foldl (fun n c => if n < 10000 then n * 10 + (c.toNat - 48) else 10000) 0

/-- A number times a power of ten with as much of the power worked in as fits. -/
def workIn (n : Nat) : Nat → Nat × Nat
  | 0 => (n, 0)
  | e + 1 => if n < (wordCount - 1) / 10 then workIn (n * 10) e else (n, e + 1)

/-- A number over a power of ten with as much of the power taken out as divides it. -/
def takeOut (n : Nat) : Nat → Nat × Nat
  | 0 => (n, 0)
  | e + 1 => if n % 10 = 0 then takeOut (n / 10) e else (n, e + 1)

/-- The double of an unsigned number, with a sign. -/
def scientificValue (negative : Bool) (s : Scientific) : Binary64 :=
  let (front, left) := takeDigits 0 s.whole
  let (n, unused) := takeDigits front s.fraction
  let size : Int := exponentSize s.exponent
  let scale := (if s.exponentNegative then -size else size) + left - (s.fraction.length - unused)
  if n = 0 then .zero negative
  else
    match scale with
    | .ofNat e =>
      let (n, e) := workIn n e
      ((Extended.ofNat n).mulTenTo e).toBinary64 negative
    | .negSucc e =>
      let (n, e) := takeOut n (e + 1)
      ((Extended.ofNat n).divTenTo e).toBinary64 negative

/-- The number that a text writes: an optional sign, digits, point and exponent between blanks. -/
def numeral? (cs : List Char) : Option Binary64 :=
  let cs := ((cs.dropWhile isSpace).reverse.dropWhile isSpace).reverse
  match cs with
  | '-' :: rest => (readScientific? rest).map (scientificValue true)
  | '+' :: rest => (readScientific? rest).map (scientificValue false)
  | rest => (readScientific? rest).map (scientificValue false)

/-- The signed 64-bit number that a text writes without point and exponent. -/
def wholeNumeral? (cs : List Char) : Option Int :=
  readInt64? ((cs.dropWhile isSpace).reverse.dropWhile isSpace).reverse

/-- A number without its sign if it is zero. -/
def unsignedZero (x : Binary64) : Binary64 := if x.same 0 then 0 else x

/-- A number in a column for whole numbers: one without a fraction becomes whole. -/
def ofDouble (x : Binary64) : NumberCell :=
  match x.wholePart? with
  | some n =>
    if x.isWhole && minInt64 < n && n < maxInt64 then .whole n else .real (unsignedZero x)
  | none => .real x

/-- A text in a column for whole numbers. -/
def ofText (s : String) : NumberCell :=
  match wholeNumeral? s.toList with
  | some n => .whole n
  | none =>
    match numeral? s.toList with
    | some x => ofDouble x
    | none => .text s

/-- A text in a column for doubles. -/
def ofTextAsReal (s : String) : NumberCell :=
  match numeral? s.toList with
  | some x => .real (unsignedZero x)
  | none => .text s

/-- The whole number of a cell between two bounds. -/
def int? (low high : Int) : NumberCell → Option Int
  | .whole n => if low ≤ n && n ≤ high then some n else none
  | _ => none

/-- The number of a cell. -/
def double? : NumberCell → Option Binary64
  | .whole n => some (.ofInt n)
  | .real x => some x
  | .text _ => none

end NumberCell

/-- A size as a signed 64-bit number, by its bits. -/
def wrapSize (n : Nat) : Int := (n : Int).bmod wordCount

end MaterialInspection
