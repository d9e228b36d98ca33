import MaterialInspection.Proofs.Number.WholePart
import MaterialInspection.Proofs.Number.WholeText

/-!
# Digits of other scripts

Measured values and targets are read in two ways, for the number that a text starts with and for the
first whole number in it.  Both readers take digits of any script for a part of the number and can read
`0` to `9` alone.  So a number is hidden by a digit of another script that touches it, and the first
whole number also by one that stands anywhere before it; nothing else that surrounds a number hides it.

* `NumberStart`, `DigitRun` — texts that start with a decimal, and texts with a run of digits.
* `numbers_in_texts` — what both readers make of a text with a number in it.
-/

set_option autoImplicit false

namespace MaterialInspection

open Text (isDecimalDigit)

/-! ## Texts with a number in them -/

/-- A text that starts with a finite number: blanks, a sign or none, a decimal, and a rest that cannot
be a part of it. -/
structure NumberStart where
  blanks : String
  sign : Sign
  decimal : DecimalText
  rest : String
  blank_blanks : Text.blank blanks = true
  clear_rest : Numeral.Clear rest.toList
  finite : (decimal.value sign.negative).isFinite = true

namespace NumberStart

def text (t : NumberStart) : String :=
  t.blanks ++ (String.ofList t.sign.chars ++ (String.ofList t.decimal.chars ++ t.rest))

/-- The number that a text starts with. -/
def value (t : NumberStart) : Binary64 := t.decimal.value t.sign.negative

end NumberStart

/-- A text whose first run of the digits `0` to `9` is a 64-bit number. -/
structure DigitRun where
  before : String
  digits : List Char
  after : String
  before_lacks : Text.Lacks [] before.toList
  digits_ne_nil : digits ≠ []
  isDigit_digits : ∀ c ∈ digits, c.isDigit = true
  after_startsNoDigit : Numeral.StartsNoDigit after.toList
  fits : (Nat.ofDigitChars 10 digits 0 : Int) ≤ maxInt64

namespace DigitRun

def text (u : DigitRun) : String := u.before ++ (String.ofList u.digits ++ u.after)

/-- The number of the first run of digits. -/
def value (u : DigitRun) : Int := Nat.ofDigitChars 10 u.digits 0

end DigitRun

/-! ## What is read -/

theorem readInt64?_digits (u : DigitRun) : readInt64? u.digits = some u.value := by
  unfold readInt64?
  rw [readInt?_of_digits u.digits_ne_nil u.isDigit_digits]
  have hlow : minInt64 ≤ u.value := by
    unfold minInt64 DigitRun.value
    omega
  have hhigh : u.value ≤ maxInt64 := u.fits
  exact Option.filter_eq_some_iff.2 ⟨rfl, by simp [hlow, hhigh]⟩

/-- **Numbers in texts are read unless a digit of another script hides them.**  The number that a text
starts with is hidden by one right after it, the first whole number by one right after it or anywhere
before it. -/
theorem numbers_in_texts (t : NumberStart) (u : DigitRun) :
    (leadingNumber? t.text.toList =
      if t.rest.toList.head?.any isDecimalDigit then none else some t.value) ∧
    firstInteger? u.text.toList =
      if u.before.toList.any isDecimalDigit || u.after.toList.head?.any isDecimalDigit then none
      else some u.value := by
  constructor
  · have htext : t.text.toList =
        t.blanks.toList ++ (t.sign.chars ++ (t.decimal.chars ++ t.rest.toList)) := by
      simp [NumberStart.text]
    have hfinite : (some t.value).filter Binary64.isFinite = some t.value :=
      Option.filter_eq_some_iff.2 ⟨rfl, t.finite⟩
    rw [htext, leadingNumber?_signed t.decimal t.sign (List.all_eq_true.1 t.blank_blanks) t.clear_rest]
    exact congrArg _ hfinite
  · have htext : u.text.toList = u.before.toList ++ (u.digits ++ u.after.toList) := by
      simp [DigitRun.text]
    rw [htext, firstInteger?_append fun c hc => (u.before_lacks c hc).1,
      firstInteger?_digits_append u.digits_ne_nil u.isDigit_digits u.after_startsNoDigit,
      readInt64?_digits]
    cases u.before.toList.any isDecimalDigit <;> rfl

/-- A full-width digit hides the number that it touches, and every whole number after it. -/
theorem numbers_hidden :
    (∃ t : NumberStart, t.text = "24５" ∧ t.value = 24 ∧ leadingNumber? t.text.toList = none) ∧
    (∃ u : DigitRun, u.text = "24５" ∧ u.value = 24 ∧ firstInteger? u.text.toList = none) ∧
    ∃ u : DigitRun, u.text = "第３批 24h" ∧ u.value = 24 ∧ firstInteger? u.text.toList = none := by
  let hours : DecimalText :=
    { whole := ['2', '4'], point := false, fraction := []
      isDigit_whole := by simp
      isDigit_fraction := nofun
      fraction_eq_nil := fun _ => rfl
      digits_ne_nil := List.cons_ne_nil _ _ }
  let start : NumberStart :=
    { blanks := "", sign := .none, decimal := hours, rest := "５"
      blank_blanks := by decide
      clear_rest := Numeral.clear_cons (by decide) []
      finite := by decide +kernel }
  let run : DigitRun :=
    { before := "", digits := ['2', '4'], after := "５"
      before_lacks := by decide
      digits_ne_nil := List.cons_ne_nil _ _
      isDigit_digits := by simp
      after_startsNoDigit := by
        rintro c ⟨⟩
        decide
      fits := by decide }
  let batch : DigitRun :=
    { run with
      before := "第３批 ", after := "h"
      before_lacks := by decide
      after_startsNoDigit := by
        rintro c ⟨⟩
        decide }
  exact ⟨⟨start, by decide +kernel⟩, ⟨run, by decide +kernel⟩, ⟨batch, by decide +kernel⟩⟩

end MaterialInspection
