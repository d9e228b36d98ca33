import Mathlib.Data.List.TakeWhile
import MaterialInspection.Proofs.Number.Fixed

/-!
# The whole part of a leading number

A text can be read for the number that it starts with and for the first whole number in it.  Both
readings start at the same digits, blanks and a sign being none, but the number goes on with a fraction,
may have a minus, and is rounded.

* `readScientific?_numberRun` — the digits before the point of a number are those of the first whole
  number, unless there are none.
* `firstInteger?_append`, `firstInteger?_digits_append` — the first whole number is the first run of `0`
  to `9`, unless a digit of another script stands before it or right after it.
* `leadingNumber?_le` — the number is at most one above the first whole number.
-/

set_option autoImplicit false

namespace MaterialInspection

open Number Binary64 Text

seal unitsPerOne unitsLimit twoTo tenTo

/-! ## Readable digits -/

section Digits

variable {cs digits whole fraction : List Char} {n : Scientific} {v : Int}

/-- Digits that can be read as a whole number are `0` to `9`. -/
theorem digits_of_readInt64? (hdigits : ∀ c ∈ digits, isDecimalDigit c = true)
    (h : readInt64? digits = some v) :
    (∀ c ∈ digits, c.isDigit = true) ∧ v = Nat.ofDigitChars 10 digits 0 := by
  unfold readInt64? readInt? at h
  dsimp only at h
  obtain ⟨hvalue, _⟩ := Option.filter_eq_some_iff.1 h
  split at hvalue
  · exact absurd (hdigits '-' List.mem_cons_self) (by decide)
  · exact absurd (hdigits '+' List.mem_cons_self) (by decide)
  · split at hvalue
    · cases hvalue
    · rename_i hall
      cases hvalue
      simp only [Bool.or_eq_true, Bool.not_eq_true', not_or, Bool.not_eq_true, Bool.not_eq_false,
        List.all_eq_true] at hall
      exact ⟨hall.2, rfl⟩

/-- Digits among which one is of another script cannot be read. -/
theorem readInt64?_of_script (hdigits : ∀ c ∈ digits, isDecimalDigit c = true) {c : Char}
    (hc : c ∈ digits) (hread : c.isDigit = false) : readInt64? digits = none := by
  cases hv : readInt64? digits with
  | none => rfl
  | some v =>
    have hdigit := (digits_of_readInt64? hdigits hv).1 c hc
    rw [hread] at hdigit
    cases hdigit

/-- Digits are no exponent. -/
theorem eq_nil_of_readExponent? {exponent : Bool × List Char}
    (hdigits : ∀ c ∈ digits, isDecimalDigit c = true) (h : readExponent? digits = some exponent) :
    digits = [] ∧ exponent = (false, []) := by
  cases digits with
  | nil =>
    cases h
    exact ⟨rfl, rfl⟩
  | cons c rest =>
    have hc := hdigits c List.mem_cons_self
    unfold readExponent? at h
    dsimp only at h
    split at h
    · rename_i hletter
      rw [Bool.or_eq_true, decide_eq_true_eq, decide_eq_true_eq] at hletter
      rcases hletter with rfl | rfl
      · exact absurd hc (by decide)
      · exact absurd hc (by decide)
    · cases h

/-- A run of digits that can be read is all of the number. -/
theorem readScientific?_whole (hwhole : ∀ c ∈ whole, c.isDigit = true)
    (h : readScientific? whole = some n) : n = ⟨whole, [], false, []⟩ := by
  have htake : whole.takeWhile Char.isDigit = whole := List.takeWhile_eq_self_iff.2 hwhole
  have hdrop : whole.dropWhile Char.isDigit = [] := List.dropWhile_eq_nil_iff.2 hwhole
  unfold readScientific? at h
  rw [htake, hdrop] at h
  dsimp only at h
  split at h
  · cases h
  · exact (Option.some.inj h).symm

/-- Digits around a point that can be read are `0` to `9` after it too. -/
theorem readScientific?_point (hwhole : ∀ c ∈ whole, c.isDigit = true)
    (hfraction : ∀ c ∈ fraction, isDecimalDigit c = true)
    (h : readScientific? (whole ++ '.' :: fraction) = some n) :
    n = ⟨whole, fraction, false, []⟩ ∧ ∀ c ∈ fraction, c.isDigit = true := by
  unfold readScientific? at h
  rw [List.takeWhile_append_of_pos hwhole, List.dropWhile_append_of_pos hwhole,
    List.takeWhile_cons_of_neg (by decide), List.dropWhile_cons_of_neg (by decide),
    List.append_nil] at h
  simp only at h
  split at h
  · cases h
  · obtain ⟨exponent, hexponent, rfl⟩ := Option.map_eq_some_iff.1 h
    have hrest : ∀ c ∈ fraction.dropWhile Char.isDigit, isDecimalDigit c = true :=
      fun c hc => hfraction c ((List.dropWhile_sublist _).subset hc)
    obtain ⟨hnil, rfl⟩ := eq_nil_of_readExponent? hrest hexponent
    have hall : ∀ c ∈ fraction, c.isDigit = true := List.dropWhile_eq_nil_iff.1 hnil
    rw [List.takeWhile_eq_self_iff.2 hall]
    exact ⟨rfl, hall⟩

/-- The first whole number in a text has no minus. -/
theorem firstInteger?_nonneg (h : firstInteger? cs = some v) : 0 ≤ v := by
  obtain ⟨_, rfl⟩ := digits_of_readInt64? (fun _ hc => List.mem_takeWhile_imp hc) h
  exact Int.natCast_nonneg _

theorem dropWhile_not_of_takeWhile {p : Char → Bool} (h : cs.takeWhile p ≠ []) :
    cs.dropWhile (fun c => !p c) = cs := by
  cases cs with
  | nil => rfl
  | cons c rest =>
    refine List.dropWhile_cons_of_neg fun hc => h ?_
    exact List.takeWhile_cons_of_neg (by simpa using hc)

/-- The number at the start of a text and the first whole number in it start with the same digits. -/
theorem readScientific?_numberRun (hn : readScientific? (numberRun cs) = some n)
    (hv : firstInteger? cs = some v) :
    ∃ whole fraction, n = ⟨whole, fraction, false, []⟩ ∧ (∀ c ∈ fraction, c.isDigit = true) ∧
      (Nat.ofDigitChars 10 whole 0 : Int) ≤ v := by
  have htaken : ∀ l : List Char, ∀ c ∈ l.takeWhile isDecimalDigit, isDecimalDigit c = true :=
    fun l c hc => List.mem_takeWhile_imp hc
  obtain ⟨hdigits, rfl⟩ := digits_of_readInt64? (htaken _) hv
  unfold numberRun at hn
  dsimp only at hn
  split at hn
  · -- a point is the first character
    rename_i tail _ _
    split at hn
    · cases hn
    · have hnone : ∀ c ∈ ([] : List Char), c.isDigit = true := fun _ h => nomatch h
      obtain ⟨rfl, hfraction⟩ := readScientific?_point hnone (htaken tail) hn
      exact ⟨[], _, rfl, hfraction, Int.natCast_nonneg _⟩
  · cases hn
  · rename_i hne
    rw [dropWhile_not_of_takeWhile hne] at hdigits ⊢
    obtain ⟨rfl, hfraction⟩ := readScientific?_point hdigits (htaken _) hn
    exact ⟨_, _, rfl, hfraction, Int.le_refl _⟩
  · rename_i hne _ _
    rw [dropWhile_not_of_takeWhile hne] at hdigits ⊢
    rw [readScientific?_whole hdigits hn]
    exact ⟨_, [], rfl, by simp, Int.le_refl _⟩

end Digits

/-! ## The size of a number -/

/-- What the digits around a point come to, in steps of the last decimal. -/
theorem digits_around_point {whole fraction : List Char} (hfraction : ∀ c ∈ fraction, c.isDigit = true) :
    Nat.ofDigitChars 10 whole 0 * tenTo fraction.length ≤ Nat.ofDigitChars 10 (whole ++ fraction) 0 ∧
      Nat.ofDigitChars 10 (whole ++ fraction) 0 ≤
        (Nat.ofDigitChars 10 whole 0 + 1) * tenTo fraction.length := by
  have hlt := ofDigitChars_lt hfraction
  have hpow : 10 ^ fraction.length = tenTo fraction.length := by rw [tenTo, Nat.pow_eq]
  have happend : ∀ m, Nat.ofDigitChars 10 fraction m =
      m * tenTo fraction.length + Nat.ofDigitChars 10 fraction 0 := fun m => by
    rw [Nat.ofDigitChars_eq_ofDigitChars_zero, hpow, Nat.mul_comm]
  rw [Nat.ofDigitChars_append, happend, Nat.add_mul, Nat.one_mul]
  omega

/-- A number without an exponent is at most the next whole number after its digits. -/
theorem Scientific.rank_value_le (negative : Bool) (whole : List Char) {fraction : List Char}
    (hfraction : ∀ c ∈ fraction, c.isDigit = true) :
    ∃ r, (Scientific.value ⟨whole, fraction, false, []⟩ negative).rank = some r ∧
      r ≤ place ((Nat.ofDigitChars 10 whole 0 + 1) * unitsPerOne : Nat) 1 := by
  have hrank := rank_ofDecimal negative (Nat.ofDigitChars 10 (whole ++ fraction) 0) fraction.length
  rw [← Int.zero_sub, signed_mul_natCast] at hrank
  refine ⟨_, hrank, Int.le_trans ?_ (place_digits_le (digits_around_point hfraction).2)⟩
  refine place_le_place (tenTo_pos _) ?_
  unfold signed
  split
  · omega
  · exact Int.le_refl _

/-- A literal without a minus is at least the whole number before its point. -/
theorem Numeral.whole_le_value {n : Numeral} (hn : n.WellFormed) (hunsigned : n.negative = false) :
    ofInt (Nat.ofDigitChars 10 n.whole 0) ≤ n.value := by
  have hrank := rank_ofDecimal false (Nat.ofDigitChars 10 (n.whole ++ n.fraction) 0) n.fraction.length
  rw [signed_mul_natCast] at hrank
  unfold Numeral.value
  rw [hunsigned]
  refine (le_iff (rank_ofInt _) hrank).2 ?_
  rw [← Int.natCast_mul]
  exact le_place_digits (digits_around_point hn.fraction_digits).1

/-! ## Where the digits start -/

section Start

variable {cs before : List Char} {x : Binary64} {v : Int}

/-- What is no digit is passed over in the search for a whole number. -/
theorem firstInteger?_cons {c : Char} (h : isDecimalDigit c = false) (cs : List Char) :
    firstInteger? (c :: cs) = firstInteger? cs := by
  unfold firstInteger?
  rw [List.dropWhile_cons_of_pos (by rw [h]; rfl)]

theorem firstInteger?_trimStart (cs : List Char) : firstInteger? (trimStart cs) = firstInteger? cs := by
  induction cs with
  | nil => rfl
  | cons c rest ih =>
    unfold trimStart at ih ⊢
    by_cases hc : isBlank c = true
    · rw [List.dropWhile_cons_of_pos hc, ih, firstInteger?_cons (isDecimalDigit_of_isBlank hc)]
    · rw [List.dropWhile_cons_of_neg hc]

theorem firstInteger?_of_script {c : Char} (hc : isDecimalDigit c = true) (hread : c.isDigit = false)
    (cs : List Char) : firstInteger? (c :: cs) = none := by
  unfold firstInteger?
  rw [List.dropWhile_cons_of_neg (by simp [hc]), List.takeWhile_cons_of_pos hc]
  refine readInt64?_of_script (fun d hd => ?_) List.mem_cons_self hread
  rcases List.mem_cons.1 hd with rfl | hd
  · exact hc
  · exact List.mem_takeWhile_imp hd

/-- After characters without the digits `0` to `9`, a whole number is read from what follows them, or
hidden by a digit of another script. -/
theorem firstInteger?_append (h : ∀ c ∈ before, c.isDigit = false) (cs : List Char) :
    firstInteger? (before ++ cs) = if before.any isDecimalDigit then none else firstInteger? cs := by
  induction before with
  | nil => rfl
  | cons c rest ih =>
    have hrest := ih fun d hd => h d (List.mem_cons_of_mem c hd)
    rw [List.cons_append, List.any_cons]
    cases hc : isDecimalDigit c with
    | false => rw [firstInteger?_cons hc, hrest, Bool.false_or]
    | true =>
      rw [firstInteger?_of_script hc (h c List.mem_cons_self), Bool.true_or]
      rfl

/-- Where a whole number is read after characters without the digits `0` to `9`, it is read from what
follows them. -/
theorem firstInteger?_of_lacks (h : ∀ c ∈ before, c.isDigit = false)
    (hv : firstInteger? (before ++ cs) = some v) : firstInteger? cs = some v := by
  rw [firstInteger?_append h] at hv
  split at hv
  · cases hv
  · exact hv

/-- Digits `0` to `9` are a whole number of their own unless a digit of another script follows them. -/
theorem firstInteger?_digits_append {digits after : List Char} (hne : digits ≠ [])
    (hdigits : ∀ c ∈ digits, c.isDigit = true) (hafter : Numeral.StartsNoDigit after) :
    firstInteger? (digits ++ after) =
      if after.head?.any isDecimalDigit then none else readInt64? digits := by
  have hall : ∀ c ∈ digits, isDecimalDigit c = true :=
    fun c hc => Text.isDecimalDigit_of_isDigit (hdigits c hc)
  have hrun : (digits ++ after).takeWhile isDecimalDigit = digits ++ after.takeWhile isDecimalDigit :=
    List.takeWhile_append_of_pos hall
  have hstart : (digits ++ after).takeWhile isDecimalDigit ≠ [] := by
    rw [hrun]
    exact List.append_ne_nil_of_left_ne_nil hne _
  unfold firstInteger?
  rw [dropWhile_not_of_takeWhile hstart, hrun]
  cases after with
  | nil => simp
  | cons c cs =>
    cases hc : isDecimalDigit c with
    | false => simp [hc]
    | true =>
      have hscript : c ∈ digits ++ (c :: cs).takeWhile isDecimalDigit := by simp [hc]
      have htaken : ∀ d ∈ digits ++ (c :: cs).takeWhile isDecimalDigit, isDecimalDigit d = true :=
        List.forall_mem_append.2 ⟨hall, fun _ hd => List.mem_takeWhile_imp hd⟩
      rw [readInt64?_of_script htaken hscript (hafter c rfl)]
      simp [hc]

/-- Where a text starts with digits `0` to `9` and no more of them follow at once, they are the first
whole number. -/
theorem firstInteger?_digits {digits rest : List Char} (hne : digits ≠ [])
    (hdigits : ∀ c ∈ digits, c.isDigit = true) (hrest : Numeral.StartsNoDigit rest)
    (hv : firstInteger? (digits ++ rest) = some v) : v = Nat.ofDigitChars 10 digits 0 := by
  rw [firstInteger?_digits_append hne hdigits hrest] at hv
  split at hv
  · cases hv
  · exact (digits_of_readInt64? (fun c hc => isDecimalDigit_of_isDigit (hdigits c hc)) hv).2

/-- A literal without a minus is read up to its point as the first whole number. -/
theorem firstInteger?_magnitudeChars {n : Numeral} (hn : n.WellFormed) {tail : List Char}
    (htail : ∀ c ∈ tail, c.isDigit = false) (hv : firstInteger? (n.magnitudeChars ++ tail) = some v) :
    v = Nat.ofDigitChars 10 n.whole 0 := by
  unfold Numeral.magnitudeChars at hv
  split at hv
  · rw [List.append_nil] at hv
    exact firstInteger?_digits hn.whole_ne_nil hn.whole_digits
      (fun c hc => htail c (List.mem_of_mem_head? hc)) hv
  · rw [List.append_assoc] at hv
    refine firstInteger?_digits hn.whole_ne_nil hn.whole_digits ?_ hv
    rintro c ⟨⟩
    decide

/-- The number that a text starts with is read without the blanks and the sign before it. -/
theorem exists_unsigned (h : leadingNumber? cs = some x) :
    ∃ negative tail, readUnsigned? negative (numberRun tail) = some x ∧
      firstInteger? cs = firstInteger? tail := by
  unfold leadingNumber? at h
  dsimp only at h
  obtain ⟨hread, _⟩ := Option.filter_eq_some_iff.1 h
  rw [← firstInteger?_trimStart]
  split at hread
  · rename_i rest he
    rw [he]
    exact ⟨true, rest, hread, firstInteger?_cons (by decide) rest⟩
  · rename_i rest he
    rw [he]
    exact ⟨false, rest, hread, firstInteger?_cons (by decide) rest⟩
  · rw [readDouble?_numberRun] at hread
    exact ⟨false, _, hread, rfl⟩

/-- **The number that a text starts with is at most one above the first whole number in it.** -/
theorem leadingNumber?_le (hx : leadingNumber? cs = some x) (hv : firstInteger? cs = some v) :
    x ≤ ofInt (v + 1) := by
  have hfinite := finite_of_leadingNumber? hx
  obtain ⟨negative, tail, hread, hfirst⟩ := exists_unsigned hx
  rw [hfirst] at hv
  unfold readUnsigned? at hread
  dsimp only at hread
  split at hread
  · cases hread
    cases hfinite
  · split at hread
    · cases hread
      cases hfinite
    · obtain ⟨n, hn, rfl⟩ := Option.map_eq_some_iff.1 hread
      obtain ⟨whole, fraction, rfl, hfraction, hwhole⟩ := readScientific?_numberRun hn hv
      obtain ⟨r, hr, hle⟩ := Scientific.rank_value_le negative whole hfraction
      refine (le_iff hr (rank_ofInt _)).2 (Int.le_trans hle (place_le_place (by decide) ?_))
      rw [Int.natCast_mul, Int.natCast_add, Int.natCast_one]
      exact Int.mul_le_mul_of_nonneg_right (by omega) (Int.natCast_nonneg _)

end Start

end MaterialInspection
