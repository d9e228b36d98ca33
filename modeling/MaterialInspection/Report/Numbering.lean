import MaterialInspection.Calendar
import MaterialInspection.Material

/-!
# Report numbers

A report number has ten characters: `TJ`, a letter for the material (`Y` for paper, `F` for all else),
two digits of the year, two of the month, and a sequence of three digits that starts anew with
every month and letter.

The next sequence follows the one at the end of the greatest number so far.  After 999 comes 1000,
which makes a number of eleven characters; it is up to the keeper of the reports to refuse it.
-/

set_option autoImplicit false

namespace MaterialInspection.ReportNumber

/-- The number of characters of a report number. -/
def length : Nat := 10

/-- The letter for a material category. -/
def letter (category : String) : Char :=
  if Text.trim category = Material.paper.label then 'Y' else 'F'

/-- What the numbers of a category and a month start with. -/
def stemChars (category : String) (date : Date) : List Char :=
  'T' :: 'J' :: letter category :: (padded 2 date.yearOfCentury ++ padded 2 date.month)

/-- What the numbers of a category and a month start with. -/
def stem (category : String) (date : Date) : String := String.ofList (stemChars category date)

/-- The sequence after that of the greatest number so far, or one if there is none to read: blanks
around the number aside, its last three characters have to be digits. -/
def nextSequence (greatest : Option String) : Nat :=
  let cs := Text.trimChars (greatest.getD "").toList
  let ending := cs.drop (cs.length - 3)
  if cs.length < 3 || !ending.all Char.isDigit then 1 else Nat.ofDigitChars 10 ending 0 + 1

/-- A stem with a sequence of at least three digits. -/
def withSequence (stem : List Char) (sequence : Nat) : String :=
  String.ofList (stem ++ padded 3 sequence)

/-- The number after the greatest one so far. -/
def next (category : String) (date : Date) (greatest : Option String) : String :=
  withSequence (stemChars category date) (nextSequence greatest)

/-- Whether a text is a report number of some category and month. -/
def wellFormed (s : String) : Bool :=
  match s.toList with
  | 'T' :: 'J' :: material :: digits =>
    (material == 'Y' || material == 'F') && digits.length == 7 && digits.all Char.isDigit &&
      (let month := Nat.ofDigitChars 10 ((digits.drop 2).take 2) 0
       1 ≤ month && month ≤ 12)
  | _ => false

end MaterialInspection.ReportNumber
