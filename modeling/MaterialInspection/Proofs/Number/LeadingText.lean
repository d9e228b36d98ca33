import Mathlib.Data.List.TakeWhile
import MaterialInspection.Proofs.Criterion.Literals

/-!
# Decimals at the start of a text

A text may start with a decimal in more ways than a literal is written: with a plus, with nothing before
the point or with nothing after it.  The reader takes digits of any script into the number, but reads
`0` to `9` alone, so what follows the decimal decides whether it is read at all.

* `DecimalText.readUnsigned?_run` — the run that is taken for a number is read if no digit of another
  script follows the decimal.
* `leadingNumber?_signed` — so is the number that a text starts with, after blanks and a sign.
-/

set_option autoImplicit false

namespace MaterialInspection

open Numeral (Clear takeWhile_append_of_all)
open Text (isDecimalDigit)

/-- No digit is the first letter of a word for an infinity or for what is not a number. -/
theorem Numeral.toLower_ne_of_isDigit {c : Char} (h : c.isDigit = true) :
    c.toLower ≠ 'i' ∧ c.toLower ≠ 'n' := by
  have hb := isDigit_bounds h
  have hl : c.toLower = c := by
    unfold Char.toLower
    split
    · rename_i hu
      simp [UInt32.le_iff_toNat_le] at hu
      have : c.val.toNat = c.toNat := rfl
      omega
    · rfl
  rw [hl]
  constructor <;> rintro rfl <;> revert hb <;> decide

/-- Digits with a point or without, at least one of them. -/
structure DecimalText where
  whole : List Char
  point : Bool
  fraction : List Char
  isDigit_whole : ∀ c ∈ whole, c.isDigit = true
  isDigit_fraction : ∀ c ∈ fraction, c.isDigit = true
  fraction_eq_nil : point = false → fraction = []
  digits_ne_nil : whole ++ fraction ≠ []

namespace DecimalText

variable (t : DecimalText)

/-- The characters of a decimal. -/
def chars : List Char := t.whole ++ if t.point then '.' :: t.fraction else []

/-- The double nearest to a decimal with a sign. -/
def value (negative : Bool) : Binary64 :=
  .ofDecimal negative (Nat.ofDigitChars 10 (t.whole ++ t.fraction) 0) (-(t.fraction.length : Int))

/-- A decimal starts with a digit or its point. -/
theorem exists_cons_chars : ∃ c cs, t.chars = c :: cs ∧ (c.isDigit = true ∨ c = '.') := by
  obtain ⟨whole, point, fraction, hwhole, _, hpoint, hne⟩ := t
  cases whole with
  | cons c cs => exact ⟨c, _, rfl, .inl (hwhole c List.mem_cons_self)⟩
  | nil =>
    cases point with
    | true => exact ⟨'.', fraction, rfl, .inr rfl⟩
    | false => exact absurd (hpoint rfl) hne

variable {t} {rest : List Char}

/-- A decimal is read whole, and what follows it can only be an exponent. -/
theorem readScientific?_append (hrest : Clear rest) :
    readScientific? (t.chars ++ rest) =
      (readExponent? rest).map fun (negative, exponent) =>
        ⟨t.whole, t.fraction, negative, exponent⟩ := by
  have hstop : Numeral.StartsNoDigit rest := fun c hc => (hrest c hc).1
  obtain ⟨whole, point, fraction, hwhole, hfraction, hpoint, hne⟩ := t
  unfold readScientific? chars
  cases point with
  | true =>
    have hnonempty : (whole.isEmpty && fraction.isEmpty) = false := by
      simpa [List.append_eq_nil_iff] using hne
    have hdot : Numeral.StartsNoDigit ('.' :: (fraction ++ rest)) := by
      rintro c ⟨⟩
      decide
    obtain ⟨htake, hdrop⟩ := takeWhile_append_of_all hwhole hdot
    obtain ⟨htail, hafter⟩ := takeWhile_append_of_all hfraction hstop
    simp only [if_true, List.append_assoc, List.cons_append, htake, hdrop, htail, hafter, hnonempty,
      Bool.false_eq_true, if_false]
  | false =>
    obtain rfl := hpoint rfl
    rw [List.append_nil] at hne
    obtain ⟨htake, hdrop⟩ := takeWhile_append_of_all hwhole hstop
    have hnonempty : whole.isEmpty = false := List.isEmpty_eq_false_iff.2 hne
    simp only [Bool.false_eq_true, if_false, List.append_nil, htake, hdrop, hnonempty]
    cases rest with
    | nil => rfl
    | cons c cs => simp [(hrest c rfl).2]

/-- The run that is taken for a number goes on after a decimal with the digits of other scripts that
follow it. -/
theorem numberRun_append (hrest : Clear rest) :
    ∃ more, numberRun (t.chars ++ rest) = t.chars ++ more ∧
      more.head? = rest.head?.filter isDecimalDigit := by
  obtain ⟨whole, point, fraction, hwhole, hfraction, hpoint, hne⟩ := t
  have hw : ∀ c ∈ whole, isDecimalDigit c = true :=
    fun c hc => Text.isDecimalDigit_of_isDigit (hwhole c hc)
  have hf : ∀ c ∈ fraction, isDecimalDigit c = true :=
    fun c hc => Text.isDecimalDigit_of_isDigit (hfraction c hc)
  have hhead : (rest.takeWhile isDecimalDigit).head? = rest.head?.filter isDecimalDigit := by
    cases rest with
    | nil => rfl
    | cons c cs => cases hc : isDecimalDigit c <;> simp [Option.filter, hc]
  unfold numberRun chars
  cases point with
  | true =>
    refine ⟨rest.takeWhile isDecimalDigit, ?_, hhead⟩
    simp only [if_true, List.append_assoc, List.cons_append]
    rw [List.takeWhile_append_of_pos hw, List.dropWhile_append_of_pos hw,
      List.takeWhile_cons_of_neg (by decide), List.dropWhile_cons_of_neg (by decide),
      List.append_nil]
    have hrun : (fraction ++ rest).takeWhile isDecimalDigit =
        fraction ++ rest.takeWhile isDecimalDigit := List.takeWhile_append_of_pos hf
    cases whole with
    | nil =>
      rw [List.nil_append] at hne
      simp [hrun, hne]
    | cons w ws => simp [hrun]
  | false =>
    obtain rfl := hpoint rfl
    rw [List.append_nil] at hne
    obtain ⟨w, ws, rfl⟩ := List.exists_cons_of_ne_nil hne
    simp only [Bool.false_eq_true, if_false, List.append_nil]
    rw [List.takeWhile_append_of_pos hw, List.dropWhile_append_of_pos hw]
    cases hdrop : rest.dropWhile isDecimalDigit with
    | nil => exact ⟨rest.takeWhile isDecimalDigit, rfl, hhead⟩
    | cons p tail =>
      by_cases hdot : p = '.'
      · -- digits of another script may have a point of their own after them
        subst hdot
        have hstart : rest.takeWhile isDecimalDigit ≠ [] := by
          intro hnil
          have hsplit := List.takeWhile_append_dropWhile (p := isDecimalDigit) (l := rest)
          rw [hnil, hdrop, List.nil_append] at hsplit
          exact (hrest '.' (by rw [← hsplit]; rfl)).2 rfl
        refine ⟨rest.takeWhile isDecimalDigit ++ '.' :: tail.takeWhile isDecimalDigit, by simp, ?_⟩
        rw [List.head?_append_of_ne_nil _ hstart, hhead]
      · exact ⟨rest.takeWhile isDecimalDigit, by simp [hdot], hhead⟩

/-- A digit is no exponent. -/
theorem readExponent?_of_digit {c : Char} (hc : isDecimalDigit c = true) (cs : List Char) :
    readExponent? (c :: cs) = none := by
  have hletter : (decide (c = 'e') || decide (c = 'E')) = false := by
    rw [Bool.or_eq_false_iff, decide_eq_false_iff_not, decide_eq_false_iff_not]
    constructor <;> rintro rfl <;> exact absurd hc (by decide)
  simp only [readExponent?, hletter, Bool.false_eq_true, if_false]

/-- What starts with a digit or a point is no word, but read for its digits. -/
theorem readUnsigned?_of_start {c : Char} (hc : c.isDigit = true ∨ c = '.') (negative : Bool)
    (cs : List Char) :
    readUnsigned? negative (c :: cs) = (readScientific? (c :: cs)).map (·.value negative) := by
  have hletter : c.toLower ≠ 'i' ∧ c.toLower ≠ 'n' := by
    rcases hc with hc | rfl
    · exact Numeral.toLower_ne_of_isDigit hc
    · decide
  unfold readUnsigned?
  simp [hletter.1, hletter.2]

/-- A decimal is read with the exponent that follows it. -/
theorem readUnsigned?_append (t : DecimalText) (hrest : Clear rest) (negative : Bool) :
    readUnsigned? negative (t.chars ++ rest) =
      (readExponent? rest).map fun (exponentNegative, exponent) =>
        Scientific.value ⟨t.whole, t.fraction, exponentNegative, exponent⟩ negative := by
  obtain ⟨c, cs, hchars, hc⟩ := t.exists_cons_chars
  have hread := readUnsigned?_of_start hc negative (cs ++ rest)
  rw [← List.cons_append, ← hchars, readScientific?_append hrest, Option.map_map] at hread
  exact hread

/-- A decimal that is a text of its own is read. -/
theorem readUnsigned?_chars (t : DecimalText) (negative : Bool) :
    readUnsigned? negative t.chars = some (t.value negative) := by
  have hclear : Clear [] := nofun
  have hread := t.readUnsigned?_append hclear negative
  rw [List.append_nil] at hread
  rw [hread]
  simp [readExponent?, Scientific.value, Scientific.scale, value]

/-- **The run that is taken for a number is read** unless a digit of another script follows the
decimal. -/
theorem readUnsigned?_run (hrest : Clear rest) (negative : Bool) :
    readUnsigned? negative (numberRun (t.chars ++ rest)) =
      if rest.head?.any isDecimalDigit then none else some (t.value negative) := by
  obtain ⟨more, hrun, hhead⟩ := numberRun_append (t := t) hrest
  rw [hrun]
  cases more with
  | nil =>
    have hnone : rest.head?.any isDecimalDigit = false := by
      have hfiltered := Option.filter_eq_none_iff.1 hhead.symm
      cases hstart : rest.head? with
      | none => rfl
      | some d => simpa using hfiltered d hstart
    rw [List.append_nil, readUnsigned?_chars, hnone]
    rfl
  | cons d ds =>
    obtain ⟨hd, hdigit⟩ := Option.filter_eq_some_iff.1 hhead.symm
    have hclear : Clear (d :: ds) := Numeral.clear_cons (hrest d hd) ds
    rw [t.readUnsigned?_append hclear, readExponent?_of_digit hdigit, hd]
    simp [hdigit]

end DecimalText

/-! ## The start of a text -/

/-- A number without its sign is of digits and a point. -/
theorem mem_numberRun {cs : List Char} {c : Char} (h : c ∈ numberRun cs) :
    isDecimalDigit c = true ∨ c = '.' := by
  have htaken : ∀ {l : List Char}, c ∈ l.takeWhile isDecimalDigit → isDecimalDigit c = true :=
    fun hc => List.mem_takeWhile_imp hc
  unfold numberRun at h
  dsimp only at h
  split at h
  · split at h
    · cases h
    · rcases List.mem_cons.1 h with rfl | hc
      · exact .inr rfl
      · exact .inl (htaken hc)
  · cases h
  · rcases List.mem_append.1 h with hc | hc
    · exact .inl (htaken hc)
    · rcases List.mem_cons.1 hc with rfl | hc
      · exact .inr rfl
      · exact .inl (htaken hc)
  · exact .inl (htaken h)

/-- What does not start with a sign is read as it is. -/
theorem readDouble?_of_ne {c : Char} (hminus : c ≠ '-') (hplus : c ≠ '+') (cs : List Char) :
    readDouble? (c :: cs) = readUnsigned? false (c :: cs) := by
  unfold readDouble?
  split
  · exact absurd (List.cons.inj ‹_›).1 hminus
  · exact absurd (List.cons.inj ‹_›).1 hplus
  · rfl

theorem readDouble?_numberRun (cs : List Char) :
    readDouble? (numberRun cs) = readUnsigned? false (numberRun cs) := by
  cases hrun : numberRun cs with
  | nil => rfl
  | cons c rest =>
    have hc : isDecimalDigit c = true ∨ c = '.' := mem_numberRun (hrun ▸ List.mem_cons_self)
    apply readDouble?_of_ne <;> rintro rfl <;> exact absurd hc (by decide)

/-- What may stand before a number. -/
inductive Sign
  | none
  | plus
  | minus
  deriving DecidableEq

namespace Sign

def chars : Sign → List Char
  | none => []
  | plus => ['+']
  | minus => ['-']

/-- Whether the number behind the sign is negative. -/
def negative : Sign → Bool
  | minus => true
  | _ => false

end Sign

/-- **The number that a text starts with is read**, after blanks and a sign, unless a digit of another
script follows it. -/
theorem leadingNumber?_signed (t : DecimalText) (sign : Sign) {blanks rest : List Char}
    (hblanks : ∀ c ∈ blanks, Text.isBlank c = true) (hrest : Clear rest) :
    leadingNumber? (blanks ++ (sign.chars ++ (t.chars ++ rest))) =
      if rest.head?.any isDecimalDigit then none
      else (some (t.value sign.negative)).filter Binary64.isFinite := by
  have hvalue : (readUnsigned? sign.negative (numberRun (t.chars ++ rest))).filter Binary64.isFinite =
      if rest.head?.any isDecimalDigit then none
      else (some (t.value sign.negative)).filter Binary64.isFinite := by
    rw [t.readUnsigned?_run hrest]
    split <;> rfl
  have htrim : ∀ {c : Char} {cs : List Char}, Text.isBlank c = false →
      Text.trimStart (blanks ++ c :: cs) = c :: cs := by
    intro c cs hc
    rw [Text.trimStart_append hc, (Text.trimStart_eq_nil_iff blanks).2 hblanks, List.nil_append]
  unfold leadingNumber?
  cases sign with
  | minus =>
    have hcons : Text.trimStart (blanks ++ (Sign.minus.chars ++ (t.chars ++ rest))) =
        '-' :: (t.chars ++ rest) := htrim (by decide)
    simp only [hcons, readDouble?]
    exact hvalue
  | plus =>
    have hcons : Text.trimStart (blanks ++ (Sign.plus.chars ++ (t.chars ++ rest))) =
        '+' :: (t.chars ++ rest) := htrim (by decide)
    simp only [hcons, readDouble?]
    exact hvalue
  | none =>
    obtain ⟨c, cs, hchars, hc⟩ := t.exists_cons_chars
    have hblank : Text.isBlank c = false := by
      rcases hc with hc | rfl
      · exact isBlank_of_isDigit hc
      · decide
    have hsign : c ≠ '-' ∧ c ≠ '+' := by
      constructor <;> rintro rfl <;> exact absurd hc (by decide)
    rw [hchars, List.cons_append] at hvalue ⊢
    have hcons : Text.trimStart (blanks ++ (Sign.none.chars ++ c :: (cs ++ rest))) =
        c :: (cs ++ rest) := htrim hblank
    simp only [hcons]
    split
    · rename_i he
      exact absurd (List.cons.inj he).1 hsign.1
    · rename_i he
      exact absurd (List.cons.inj he).1 hsign.2
    · rw [readDouble?_numberRun]
      exact hvalue

end MaterialInspection
