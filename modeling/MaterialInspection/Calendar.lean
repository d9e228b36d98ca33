import MaterialInspection.Number.Fixed
import MaterialInspection.Text.Blank

/-!
# Calendar dates

Dates of the proleptic Gregorian calendar, with years from -262143 to 262142; the type holds the
days that exist and nothing else.

A date is written as year, month and day with dashes; a year outside 0 to 9999 has a sign.  It is
read with blanks before each number, one or two digits for month and day, and up to four digits
for a year without a sign.  `Layout.loose` also allows blanks before the dashes and at the end.
-/

set_option autoImplicit false

namespace MaterialInspection

namespace Calendar

def isLeap (year : Int) : Bool := year % 4 == 0 && (year % 100 != 0 || year % 400 == 0)

/-- The number of days in a month. -/
def daysIn (year : Int) (month : Nat) : Nat :=
  if month = 2 then (if isLeap year then 29 else 28)
  else if month = 4 ∨ month = 6 ∨ month = 9 ∨ month = 11 then 30
  else 31

/-- The days that exist. -/
def Exists (year : Int) (month day : Nat) : Prop :=
  (-262143 ≤ year ∧ year ≤ 262142) ∧ (1 ≤ month ∧ month ≤ 12) ∧ 1 ≤ day ∧ day ≤ daysIn year month

instance (year : Int) (month day : Nat) : Decidable (Exists year month day) :=
  inferInstanceAs (Decidable (_ ∧ _ ∧ _ ∧ _))

end Calendar

/-- A day of the calendar. -/
structure Date where
  year : Int
  month : Nat
  day : Nat
  exist : Calendar.Exists year month day
  deriving DecidableEq

namespace Date

/-- The day with this year, month and day, if it exists. -/
def of? (year : Int) (month day : Nat) : Option Date :=
  if h : Calendar.Exists year month day then some ⟨year, month, day, h⟩ else none

/-- The characters of a year. -/
def yearChars (year : Int) : List Char :=
  if year < 0 then '-' :: padded 4 year.natAbs
  else if 9999 < year then '+' :: padded 4 year.natAbs
  else padded 4 year.natAbs

/-- The characters of a date. -/
def chars (d : Date) : List Char :=
  yearChars d.year ++ '-' :: (padded 2 d.month ++ '-' :: padded 2 d.day)

/-- The text of a date. -/
def text (d : Date) : String := String.ofList d.chars

/-- Where blanks are allowed besides before the numbers. -/
inductive Layout
  | strict
  | loose
  deriving DecidableEq

/-- At most `most` digits at the start of a text, at least one, and what follows them. -/
def readDigits? (most : Nat) (cs : List Char) : Option (Nat × List Char) :=
  let digits := (cs.takeWhile Char.isDigit).take most
  if digits.isEmpty then none else some (Nat.ofDigitChars 10 digits 0, cs.drop digits.length)

/-- A year with any number of digits after a sign, with at most four otherwise. -/
def readYear? (cs : List Char) : Option (Int × List Char) :=
  match Text.trimStart cs with
  | '-' :: rest => (readDigits? rest.length rest).map fun (n, after) => (-(n : Int), after)
  | '+' :: rest => (readDigits? rest.length rest).map fun (n, after) => ((n : Int), after)
  | rest => (readDigits? 4 rest).map fun (n, after) => ((n : Int), after)

/-- What follows a dash. -/
def readDash? (layout : Layout) (cs : List Char) : Option (List Char) :=
  match (if layout = .loose then Text.trimStart cs else cs) with
  | '-' :: rest => some rest
  | _ => none

/-- A dash and a number of one or two digits. -/
def readPart? (layout : Layout) (cs : List Char) : Option (Nat × List Char) :=
  match readDash? layout cs with
  | some rest => readDigits? 2 (Text.trimStart rest)
  | none => none

/-- The date that a text writes. -/
def readChars? (layout : Layout) (cs : List Char) : Option Date :=
  match readYear? cs with
  | none => none
  | some (year, rest) =>
    match readPart? layout rest with
    | none => none
    | some (month, rest) =>
      match readPart? layout rest with
      | none => none
      | some (day, rest) =>
        let rest := if layout = .loose then Text.trimStart rest else rest
        if rest.isEmpty then of? year month day else none

/-- The date that a text writes. -/
def read? (layout : Layout) (s : String) : Option Date := readChars? layout s.toList

/-- The last two digits of the year, also before the year zero. -/
def yearOfCentury (d : Date) : Nat := (d.year % 100).toNat

end Date

end MaterialInspection
