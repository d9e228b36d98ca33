import MaterialInspection.Number.Binary64
import MaterialInspection.Number.Width
import MaterialInspection.Text.Blank
import MaterialInspection.Text.Digit

/-!
# Numerals in texts

A `Numeral` is a decimal literal as it stands in a text: an optional minus, digits `0` to `9`, and
an optional fraction.  `Numeral.scan?` takes the longest one at the start of a text.

The readers below it decide which whole texts are numbers (`readDouble?`, `readInt?`, `readNat?`)
and find the number that a free text starts with (`leadingNumber?`) or the first whole number in it
(`firstInteger?`).  The last two look for digits of any script but can read only `0` to `9`, so a
digit of another script within a numeral leaves it unread.

Principal statements: `scan?_chars_append` (a written numeral is taken whole when neither a digit
nor a fraction follows) and `scan?_eq_none_iff`.
-/

set_option autoImplicit false

namespace MaterialInspection

/-- A decimal literal; an empty fraction means that no point is written. -/
structure Numeral where
  negative : Bool
  whole : List Char
  fraction : List Char
  deriving DecidableEq

namespace Numeral

/-- A literal has digits before the point, and digits only. -/
structure WellFormed (n : Numeral) : Prop where
  whole_ne_nil : n.whole ≠ []
  whole_digits : ∀ c ∈ n.whole, c.isDigit = true
  fraction_digits : ∀ c ∈ n.fraction, c.isDigit = true

/-- The digits, point and fraction of a literal. -/
def magnitudeChars (n : Numeral) : List Char :=
  n.whole ++ if n.fraction.isEmpty then [] else '.' :: n.fraction

/-- A literal as it is written. -/
def chars (n : Numeral) : List Char :=
  if n.negative then '-' :: n.magnitudeChars else n.magnitudeChars

/-- The double nearest to a literal. -/
def value (n : Numeral) : Binary64 :=
  .ofDecimal n.negative (Nat.ofDigitChars 10 (n.whole ++ n.fraction) 0) (-(n.fraction.length : Int))

/-- The value of a literal that is not beyond the largest double. -/
def finite? (n : Numeral) : Option Binary64 :=
  if n.value.isFinite then some n.value else none

/-- The longest literal without a sign at the start of a text, and what follows it. -/
def scanMagnitude? (cs : List Char) : Option (Numeral × List Char) :=
  let whole := cs.takeWhile Char.isDigit
  if whole.isEmpty then none
  else
    match cs.dropWhile Char.isDigit with
    | '.' :: rest =>
      let fraction := rest.takeWhile Char.isDigit
      if fraction.isEmpty then some (⟨false, whole, []⟩, '.' :: rest)
      else some (⟨false, whole, fraction⟩, rest.dropWhile Char.isDigit)
    | rest => some (⟨false, whole, []⟩, rest)

/-- The longest literal at the start of a text, and what follows it. -/
def scan? : List Char → Option (Numeral × List Char)
  | '-' :: cs =>
    match scanMagnitude? cs with
    | some (n, rest) => some (⟨true, n.whole, n.fraction⟩, rest)
    | none => none
  | cs => scanMagnitude? cs

end Numeral

/-! ## Whole texts -/

/-- A whole number with an optional sign, between two bounds. -/
def readInt? (low high : Int) (cs : List Char) : Option Int :=
  let magnitude? (digits : List Char) : Option Nat :=
    if digits.isEmpty || !digits.all Char.isDigit then none else some (Nat.ofDigitChars 10 digits 0)
  let value? : Option Int :=
    match cs with
    | '-' :: digits => (magnitude? digits).map fun n => -(n : Int)
    | '+' :: digits => (magnitude? digits).map Int.ofNat
    | digits => (magnitude? digits).map Int.ofNat
  value?.filter fun n => low ≤ n && n ≤ high

/-- A whole number with an optional plus, below a bound. -/
def readNat? (bound : Nat) (cs : List Char) : Option Nat :=
  let digits :=
    match cs with
    | '+' :: digits => digits
    | digits => digits
  if digits.isEmpty || !digits.all Char.isDigit then none
  else (some (Nat.ofDigitChars 10 digits 0)).filter (· < bound)

/-- A signed 32-bit number. -/
def readInt32? (cs : List Char) : Option Int := readInt? minInt32 maxInt32 cs

/-- A signed 64-bit number. -/
def readInt64? (cs : List Char) : Option Int := readInt? minInt64 maxInt64 cs

/-- An unsigned 64-bit number. -/
def readSize? (cs : List Char) : Option Nat := readNat? wordCount cs

/-- An unsigned number as it stands in a text: the digits before and after an optional point, and the
sign and the digits of an exponent; no digits mean that there is none. -/
structure Scientific where
  whole : List Char
  fraction : List Char
  exponentNegative : Bool
  exponent : List Char
  deriving DecidableEq

/-- The exponent part of a number's text: nothing, or a letter and a whole number. -/
def readExponent? : List Char → Option (Bool × List Char)
  | [] => some (false, [])
  | c :: cs =>
    if c = 'e' || c = 'E' then
      match cs with
      | '-' :: digits => digits? true digits
      | '+' :: digits => digits? false digits
      | digits => digits? false digits
    else none
where
  digits? (negative : Bool) (digits : List Char) : Option (Bool × List Char) :=
    if digits.isEmpty || !digits.all Char.isDigit then none else some (negative, digits)

/-- An unsigned number: digits around an optional point, at least one of them, and an optional
exponent. -/
def readScientific? (cs : List Char) : Option Scientific :=
  let whole := cs.takeWhile Char.isDigit
  let afterWhole := cs.dropWhile Char.isDigit
  let (fraction, rest) :=
    match afterWhole with
    | '.' :: tail => (tail.takeWhile Char.isDigit, tail.dropWhile Char.isDigit)
    | tail => ([], tail)
  if whole.isEmpty && fraction.isEmpty then none
  else (readExponent? rest).map fun (negative, exponent) => ⟨whole, fraction, negative, exponent⟩

/-- The power of ten that an exponent stands for. -/
def Scientific.scale (n : Scientific) : Int :=
  let size : Int := Nat.ofDigitChars 10 n.exponent 0
  if n.exponentNegative then -size else size

/-- The double nearest to an unsigned number, with a sign. -/
def Scientific.value (n : Scientific) (negative : Bool) : Binary64 :=
  .ofDecimal negative (Nat.ofDigitChars 10 (n.whole ++ n.fraction) 0)
    (n.scale - (n.fraction.length : Int))

/-- A number without its sign: digits, or a word for an infinity or for what is not a number. -/
def readUnsigned? (negative : Bool) (cs : List Char) : Option Binary64 :=
  let word := cs.map Char.toLower
  if word = ['i', 'n', 'f'] || word = ['i', 'n', 'f', 'i', 'n', 'i', 't', 'y'] then
    some (.infinite negative)
  else if word = ['n', 'a', 'n'] then some .nan
  else (readScientific? cs).map (·.value negative)

/-- The double that a whole text denotes. -/
def readDouble? : List Char → Option Binary64
  | '-' :: cs => readUnsigned? true cs
  | '+' :: cs => readUnsigned? false cs
  | cs => readUnsigned? false cs

/-! ## Numbers in a free text -/

open Text in
/-- The longest run at the start of a text that looks like a number without a sign: digits of any
script with an optional point after or among them, or a point and digits. -/
def numberRun (cs : List Char) : List Char :=
  let whole := cs.takeWhile isDecimalDigit
  match whole, cs.dropWhile isDecimalDigit with
  | [], '.' :: tail =>
    let fraction := tail.takeWhile isDecimalDigit
    if fraction.isEmpty then [] else '.' :: fraction
  | [], _ => []
  | _, '.' :: tail => whole ++ '.' :: tail.takeWhile isDecimalDigit
  | _, _ => whole

open Text in
/-- The finite number that a text starts with, after blanks; what follows it is free. -/
def leadingNumber? (cs : List Char) : Option Binary64 :=
  let value? :=
    match trimStart cs with
    | '-' :: rest => readDouble? ('-' :: numberRun rest)
    | '+' :: rest => readDouble? ('+' :: numberRun rest)
    | rest => readDouble? (numberRun rest)
  value?.filter Binary64.isFinite

open Text in
/-- The first run of digits in a text, as a signed 64-bit number. -/
def firstInteger? (cs : List Char) : Option Int :=
  readInt64? ((cs.dropWhile fun c => !isDecimalDigit c).takeWhile isDecimalDigit)

/-! ## Scanning what was written -/

namespace Numeral

/-- A text that does not start with a digit. -/
def StartsNoDigit (cs : List Char) : Prop := ∀ c, cs.head? = some c → c.isDigit = false

theorem takeWhile_append_of_all {digits rest : List Char}
    (h : ∀ c ∈ digits, c.isDigit = true) (hr : StartsNoDigit rest) :
    (digits ++ rest).takeWhile Char.isDigit = digits ∧
      (digits ++ rest).dropWhile Char.isDigit = rest := by
  induction digits with
  | nil =>
    cases rest with
    | nil => exact ⟨rfl, rfl⟩
    | cons c cs => simp [hr c rfl]
  | cons d ds ih =>
    have hd := h d (by simp)
    have := ih fun c hc => h c (by simp [hc])
    simp [hd, this.1, this.2]

/-- What may follow a literal without becoming part of it. -/
structure Ends (n : Numeral) (rest : List Char) : Prop where
  no_digit : StartsNoDigit rest
  no_fraction : n.fraction = [] → ∀ tail, rest = '.' :: tail → StartsNoDigit tail

theorem scanMagnitude?_append {n : Numeral} (hn : n.WellFormed) {rest : List Char}
    (hr : n.Ends rest) :
    scanMagnitude? (n.magnitudeChars ++ rest) = some (⟨false, n.whole, n.fraction⟩, rest) := by
  obtain ⟨negative, whole, fraction⟩ := n
  have hne : whole.isEmpty = false := by
    cases whole with
    | nil => exact absurd rfl hn.whole_ne_nil
    | cons c cs => rfl
  cases fraction with
  | nil =>
    have hw := takeWhile_append_of_all hn.whole_digits hr.no_digit
    simp only [magnitudeChars, List.isEmpty_nil, if_true, List.append_nil, scanMagnitude?]
    rw [hw.1, hw.2]
    simp only [hne, Bool.false_eq_true, if_false]
    match rest, hr with
    | [], _ => rfl
    | c :: tail, hr =>
      by_cases hc : c = '.'
      · subst hc
        have ht := hr.no_fraction rfl tail rfl
        have := (@takeWhile_append_of_all [] _ (by simp) ht).1
        simp only [List.nil_append] at this
        simp [this]
      · simp [hc]
  | cons f fs =>
    have hdot : StartsNoDigit ('.' :: f :: fs ++ rest) := by
      intro c hc
      simp only [List.cons_append, List.head?_cons, Option.some.injEq] at hc
      subst hc
      decide
    have hw := takeWhile_append_of_all hn.whole_digits hdot
    have hf := takeWhile_append_of_all hn.fraction_digits hr.no_digit
    simp only [magnitudeChars, List.isEmpty_cons, Bool.false_eq_true, if_false,
      List.append_assoc, scanMagnitude?]
    rw [hw.1, hw.2]
    simp only [hne, Bool.false_eq_true, if_false, List.cons_append] at hf ⊢
    simp only [hf.1, hf.2, List.isEmpty_cons, Bool.false_eq_true, if_false]

/-- A written literal is taken whole when nothing that follows belongs to it. -/
theorem scan?_chars_append {n : Numeral} (hn : n.WellFormed) {rest : List Char} (hr : n.Ends rest) :
    scan? (n.chars ++ rest) = some (n, rest) := by
  have hm := scanMagnitude?_append hn hr
  obtain ⟨negative, whole, fraction⟩ := n
  cases negative with
  | true =>
    simp only [chars, if_true, List.cons_append, scan?]
    rw [hm]
  | false =>
    simp only [chars, Bool.false_eq_true, if_false]
    rw [← hm]
    cases whole with
    | nil => exact absurd rfl hn.whole_ne_nil
    | cons c cs =>
      have hc := hn.whole_digits c (by simp)
      unfold scan?
      simp only [magnitudeChars, List.cons_append]
      split
      · rename_i he
        rw [List.cons.injEq] at he
        rw [he.1] at hc
        exact absurd hc (by decide)
      · rfl

/-- No literal starts a text that starts with neither a digit nor a minus before one. -/
theorem scan?_eq_none_iff (cs : List Char) :
    scan? cs = none ↔ StartsNoDigit cs ∧ ∀ tail, cs = '-' :: tail → StartsNoDigit tail := by
  have magnitude : ∀ l : List Char, scanMagnitude? l = none ↔ StartsNoDigit l := by
    intro l
    cases l with
    | nil => simp [scanMagnitude?, StartsNoDigit]
    | cons c rest =>
      by_cases hc : c.isDigit = true
      · simp only [StartsNoDigit, List.head?_cons, Option.some.injEq, forall_eq', hc,
          Bool.true_eq_false, iff_false]
        simp only [scanMagnitude?, List.takeWhile_cons, hc, if_true, List.isEmpty_cons,
          Bool.false_eq_true, if_false]
        split
        · split <;> simp
        · simp
      · simp [scanMagnitude?, StartsNoDigit, hc]
  match cs with
  | [] => simp [scan?, magnitude, StartsNoDigit]
  | c :: rest =>
    by_cases hc : c = '-'
    · subst hc
      have hs : scan? ('-' :: rest) = none ↔ scanMagnitude? rest = none := by
        simp only [scan?]
        cases scanMagnitude? rest <;> simp
      rw [hs, magnitude]
      constructor
      · intro h
        refine ⟨fun c hc => ?_, fun tail ht => ?_⟩
        · simp only [List.head?_cons, Option.some.injEq] at hc
          subst hc
          decide
        · rw [List.cons.injEq] at ht
          rw [← ht.2]
          exact h
      · intro h
        exact h.2 rest rfl
    · have hs : scan? (c :: rest) = scanMagnitude? (c :: rest) := by
        unfold scan?
        split
        · rename_i he
          rw [List.cons.injEq] at he
          exact absurd he.1 hc
        · rfl
      rw [hs, magnitude]
      constructor
      · intro h
        exact ⟨h, fun tail ht => absurd (List.cons.inj ht).1 hc⟩
      · intro h
        exact h.1

end Numeral

end MaterialInspection
