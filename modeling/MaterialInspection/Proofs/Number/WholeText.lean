import MaterialInspection.Number.Numeral
import MaterialInspection.Proofs.Number.Digits

/-!
# Whole numbers as texts

A whole number in decimal is a run of digits, behind a minus if it is negative.  The readers for whole
numbers take such a text back to its number, if that lies between their bounds.

* `readInt?_of_writes` — a whole number in decimal is read, with a sign or without.
* `readInt?_toString`, `readNat?_toString` — a number that is written is read back.
-/

set_option autoImplicit false

namespace MaterialInspection

/-! ## The characters of a number -/

theorem toList_toString_nat (n : Nat) : (toString n).toList = Nat.toDigits 10 n := by
  simp [toString, Nat.repr]

theorem toList_toString_int (n : Int) :
    (toString n).toList =
      if n < 0 then '-' :: Nat.toDigits 10 n.natAbs else Nat.toDigits 10 n.natAbs := by
  cases n with
  | ofNat m => simp [toString, Int.repr, Nat.repr]
  | negSucc m => simp [toString, Int.repr, Nat.repr, Int.negSucc_lt_zero]

/-- A number is written with digits and a minus. -/
theorem mem_toString_int {n : Int} {c : Char} (h : c ∈ (toString n).toList) :
    c = '-' ∨ c.isDigit = true := by
  rw [toList_toString_int] at h
  split at h
  · rcases List.mem_cons.1 h with hc | hc
    · exact .inl hc
    · exact .inr (isDigit_of_mem_toDigits hc)
  · exact .inr (isDigit_of_mem_toDigits h)

theorem toString_int_ne_nil (n : Int) : (toString n).toList ≠ [] := by
  rw [toList_toString_int]
  split
  · exact List.cons_ne_nil _ _
  · exact Nat.toDigits_ne_nil

/-! ## Reading a number back -/

/-- What does not start with a sign is read as digits. -/
theorem readInt?_of_digits {digits : List Char} (hne : digits ≠ [])
    (hdigits : ∀ c ∈ digits, c.isDigit = true) (low high : Int) :
    readInt? low high digits =
      (some (Nat.ofDigitChars 10 digits 0 : Int)).filter fun n => low ≤ n && n ≤ high := by
  obtain ⟨c, cs, rfl⟩ := List.exists_cons_of_ne_nil hne
  have hc : c.isDigit = true := hdigits c List.mem_cons_self
  have hall : (c :: cs).all Char.isDigit = true := List.all_eq_true.2 hdigits
  unfold readInt?
  split
  · exact absurd (List.cons.inj ‹_›).1 (ne_of_isDigit hc (by decide))
  · exact absurd (List.cons.inj ‹_›).1 (ne_of_isDigit hc (by decide))
  · dsimp only
    rw [hall]
    rfl

/-- Behind a minus the digits are those of the number's size. -/
theorem readInt?_of_minus {digits : List Char} (hne : digits ≠ [])
    (hdigits : ∀ c ∈ digits, c.isDigit = true) (low high : Int) :
    readInt? low high ('-' :: digits) =
      (some (-(Nat.ofDigitChars 10 digits 0 : Int))).filter fun n => low ≤ n && n ≤ high := by
  have hsome : digits.isEmpty = false := List.isEmpty_eq_false_iff.2 hne
  have hall : digits.all Char.isDigit = true := List.all_eq_true.2 hdigits
  unfold readInt?
  simp only [hsome, hall]
  rfl

/-- A text that writes a whole number in decimal, with a sign or without. -/
inductive WritesWhole : List Char → Int → Prop
  | digits {ds : List Char} (hne : ds ≠ []) (hdigits : ∀ c ∈ ds, c.isDigit = true) :
      WritesWhole ds (Nat.ofDigitChars 10 ds 0)
  | plus {ds : List Char} (hne : ds ≠ []) (hdigits : ∀ c ∈ ds, c.isDigit = true) :
      WritesWhole ('+' :: ds) (Nat.ofDigitChars 10 ds 0)
  | minus {ds : List Char} (hne : ds ≠ []) (hdigits : ∀ c ∈ ds, c.isDigit = true) :
      WritesWhole ('-' :: ds) (-(Nat.ofDigitChars 10 ds 0 : Int))

theorem writesWhole_toString (n : Int) : WritesWhole (toString n).toList n := by
  have hdigits : ∀ c ∈ Nat.toDigits 10 n.natAbs, c.isDigit = true := fun _ => isDigit_of_mem_toDigits
  rw [toList_toString_int]
  split
  · have h := WritesWhole.minus Nat.toDigits_ne_nil hdigits
    rwa [Nat.ofDigitChars_ten_toDigits, show -(n.natAbs : Int) = n by omega] at h
  · have h := WritesWhole.digits Nat.toDigits_ne_nil hdigits
    rwa [Nat.ofDigitChars_ten_toDigits, show (n.natAbs : Int) = n by omega] at h

/-- A whole number is read if it lies between the bounds. -/
theorem readInt?_of_writes {text : List Char} {n : Int} (h : WritesWhole text n) (low high : Int) :
    readInt? low high text = (some n).filter fun n => low ≤ n && n ≤ high := by
  cases h with
  | digits hne hdigits => exact readInt?_of_digits hne hdigits low high
  | @plus ds hne hdigits =>
    have hsome : ds.isEmpty = false := List.isEmpty_eq_false_iff.2 hne
    have hall : ds.all Char.isDigit = true := List.all_eq_true.2 hdigits
    unfold readInt?
    simp only [hsome, hall]
    rfl
  | minus hne hdigits => exact readInt?_of_minus hne hdigits low high

/-- **A whole number that is written is read back**, if it lies between the bounds. -/
theorem readInt?_toString (low high n : Int) :
    readInt? low high (toString n).toList = (some n).filter fun n => low ≤ n && n ≤ high :=
  readInt?_of_writes (writesWhole_toString n) low high

/-- **A number that is written is read back**, if it is below the bound. -/
theorem readNat?_toString (bound n : Nat) :
    readNat? bound (toString n).toList = (some n).filter (· < bound) := by
  rw [toList_toString_nat]
  have hdigits : ∀ c ∈ Nat.toDigits 10 n, c.isDigit = true := fun _ => isDigit_of_mem_toDigits
  have hvalue := Nat.ofDigitChars_ten_toDigits (n := n)
  obtain ⟨c, cs, he⟩ := List.exists_cons_of_ne_nil (Nat.toDigits_ne_nil (n := n) (b := 10))
  rw [he] at hdigits hvalue ⊢
  have hplus : c ≠ '+' := ne_of_isDigit (hdigits c List.mem_cons_self) (by decide)
  have hall : (c :: cs).all Char.isDigit = true := List.all_eq_true.2 hdigits
  unfold readNat?
  split
  · exact absurd (List.cons.inj ‹_›).1 hplus
  · dsimp only
    rw [hall, hvalue]
    rfl

end MaterialInspection
