import MaterialInspection.Number.Fixed
import MaterialInspection.Text.Blank
import MaterialInspection.Text.Digit

/-!
# Digits of decimals

What the characters of a decimal say about its value.

* `ofDigitChars_padded`, `length_padded` — a padded number reads back, and fills its width.
* `digits_lt_iff`, `padded_lt_padded` — runs of digits of one length are ordered as the numbers they
  write, so a table sorted by its texts is sorted by its numbers.
-/

set_option autoImplicit false

namespace MaterialInspection

open Number

/-! ## Single digits -/

theorem isDigit_bounds {c : Char} (h : c.isDigit = true) : 48 ≤ c.toNat ∧ c.toNat ≤ 57 := by
  simpa [Char.isDigit, UInt32.le_iff_toNat_le] using h

theorem char_lt_iff {a b : Char} : a < b ↔ a.toNat < b.toNat := UInt32.lt_iff_toNat_lt

theorem char_eq_of_toNat {a b : Char} (h : a.toNat = b.toNat) : a = b :=
  Char.ext (UInt32.toNat_inj.1 h)

/-- A digit is no other character. -/
theorem ne_of_isDigit {c d : Char} (hc : c.isDigit = true) (hd : d.isDigit = false) : c ≠ d := by
  rintro rfl
  rw [hd] at hc
  cases hc

theorem isBlank_of_isDigit {c : Char} (h : c.isDigit = true) : Text.isBlank c = false := by
  have hb := isDigit_bounds h
  unfold Text.isBlank
  simp
  omega

/-- No blank is a digit of any script. -/
theorem Text.isDecimalDigit_of_isBlank {c : Char} (h : isBlank c = true) :
    isDecimalDigit c = false := by
  have hblanks : ∀ n ∈ [9, 10, 11, 12, 13, 0x20, 0x85, 0xA0, 0x1680, 0x2000, 0x2001, 0x2002, 0x2003,
      0x2004, 0x2005, 0x2006, 0x2007, 0x2008, 0x2009, 0x200A, 0x2028, 0x2029, 0x202F, 0x205F, 0x3000],
      (digitZeros.any fun start => decide (start ≤ n) && decide (n ≤ start + 9)) = false := by decide
  apply hblanks
  simp only [isBlank, Bool.or_eq_true, Bool.and_eq_true, decide_eq_true_eq, beq_iff_eq] at h
  simp only [List.mem_cons, List.not_mem_nil, or_false]
  omega

/-! ## Runs of digits -/

theorem tenTo_zero : tenTo 0 = 1 := rfl

theorem tenTo_one : tenTo 1 = 10 := rfl

theorem tenTo_le_tenTo {m n : Nat} (h : m ≤ n) : tenTo m ≤ tenTo n :=
  Nat.pow_le_pow_right (by decide) h

theorem ofDigitChars_cons_zero (c : Char) (cs : List Char) :
    Nat.ofDigitChars 10 (c :: cs) 0 = tenTo cs.length * (c.toNat - 48) + Nat.ofDigitChars 10 cs 0 := by
  rw [Nat.ofDigitChars_cons, Nat.ofDigitChars_eq_ofDigitChars_zero]
  simp [tenTo]

theorem ofDigitChars_lt {ds : List Char} (h : ∀ c ∈ ds, c.isDigit = true) :
    Nat.ofDigitChars 10 ds 0 < tenTo ds.length := by
  induction ds with
  | nil => exact tenTo_pos 0
  | cons c cs ih =>
    have hc := isDigit_bounds (h c (by simp))
    have hcs := ih fun d hd => h d (by simp [hd])
    have hd : c.toNat - 48 ≤ 9 := by omega
    have hm := Nat.mul_le_mul_left (tenTo cs.length) hd
    rw [ofDigitChars_cons_zero, List.length_cons, tenTo_add, tenTo_one]
    omega

/-- Runs of digits of one length stand in the order of the numbers they write. -/
theorem digits_lt_iff {a b : List Char} (ha : ∀ c ∈ a, c.isDigit = true)
    (hb : ∀ c ∈ b, c.isDigit = true) (hl : a.length = b.length) :
    a < b ↔ Nat.ofDigitChars 10 a 0 < Nat.ofDigitChars 10 b 0 := by
  induction a generalizing b with
  | nil =>
    cases b with
    | nil => simp
    | cons d ds => simp at hl
  | cons c cs ih =>
    cases b with
    | nil => simp at hl
    | cons d ds =>
      rw [List.length_cons, List.length_cons, Nat.add_right_cancel_iff] at hl
      have hca : ∀ x ∈ cs, x.isDigit = true := fun x hx => ha x (by simp [hx])
      have hdb : ∀ x ∈ ds, x.isDigit = true := fun x hx => hb x (by simp [hx])
      have hc := isDigit_bounds (ha c (by simp))
      have hd := isDigit_bounds (hb d (by simp))
      have hcs := ofDigitChars_lt hca
      have hds := ofDigitChars_lt hdb
      rw [List.cons_lt_cons_iff, ofDigitChars_cons_zero, ofDigitChars_cons_zero, ih hca hdb hl, hl,
        char_lt_iff]
      rw [hl] at hcs
      rcases Nat.lt_trichotomy c.toNat d.toNat with hlt | heq | hgt
      · have hm := Nat.mul_le_mul_left (tenTo ds.length) (show c.toNat - 48 + 1 ≤ d.toNat - 48 by omega)
        rw [Nat.mul_add, Nat.mul_one] at hm
        exact ⟨fun _ => by omega, fun _ => Or.inl hlt⟩
      · have : c = d := char_eq_of_toNat heq
        subst this
        simp
      · have hm := Nat.mul_le_mul_left (tenTo ds.length) (show d.toNat - 48 + 1 ≤ c.toNat - 48 by omega)
        rw [Nat.mul_add, Nat.mul_one] at hm
        have hne : c ≠ d := by
          rintro rfl
          exact Nat.lt_irrefl _ hgt
        constructor
        · rintro (h | ⟨h, _⟩)
          · omega
          · exact absurd h hne
        · intro h
          omega

/-- Runs of digits of one length that write the same number are one. -/
theorem digits_injective {a b : List Char} (ha : ∀ c ∈ a, c.isDigit = true)
    (hb : ∀ c ∈ b, c.isDigit = true) (hl : a.length = b.length)
    (h : Nat.ofDigitChars 10 a 0 = Nat.ofDigitChars 10 b 0) : a = b := by
  have hab : ¬a < b := by
    rw [digits_lt_iff ha hb hl]
    omega
  have hba : ¬b < a := by
    rw [digits_lt_iff hb ha hl.symm]
    omega
  exact List.le_antisymm hba hab

theorem isDigit_of_mem_toDigits {n : Nat} {c : Char} (h : c ∈ Nat.toDigits 10 n) : c.isDigit = true :=
  Nat.isDigit_of_mem_toDigits (by decide) (by decide) h

/-- A whole number has no zero before its digits. -/
theorem tail_of_toDigits_zero {n : Nat} {tail : List Char} (h : Nat.toDigits 10 n = '0' :: tail) :
    tail = [] := by
  induction n using Nat.strongRecOn generalizing tail with
  | _ n ih =>
    rcases Nat.lt_or_ge n 10 with hn | hn
    · rw [Nat.toDigits_of_lt_base hn] at h
      exact (List.cons.inj h).2.symm
    · rw [Nat.toDigits_of_base_le (by decide) hn] at h
      obtain ⟨c, cs, he⟩ := List.exists_cons_of_ne_nil (Nat.toDigits_ne_nil (n := n / 10) (b := 10))
      rw [he, List.cons_append, List.cons.injEq] at h
      obtain ⟨rfl, _⟩ := h
      obtain rfl := ih (n / 10) (by omega) he
      have hvalue := Nat.ofDigitChars_ten_toDigits (n := n / 10)
      rw [he] at hvalue
      have hzero : 0 = n / 10 := hvalue
      omega

theorem trimStart_of_digits {ds : List Char} (hd : ∀ c ∈ ds, c.isDigit = true) (hne : ds ≠ [])
    (rest : List Char) : Text.trimStart (ds ++ rest) = ds ++ rest := by
  cases ds with
  | nil => exact absurd rfl hne
  | cons c cs =>
    have hc := isBlank_of_isDigit (hd c (by simp))
    simp [Text.trimStart, hc]

/-! ## Padded numbers -/

theorem isDigit_of_mem_padded {width n : Nat} {c : Char} (h : c ∈ padded width n) :
    c.isDigit = true := by
  unfold padded at h
  rcases List.mem_append.1 h with h | h
  · rw [(List.mem_replicate.1 h).2]
    decide
  · exact isDigit_of_mem_toDigits h

theorem padded_ne_nil (width n : Nat) : padded width n ≠ [] := by
  unfold padded
  simp [Nat.toDigits_ne_nil]

/-- A padded number reads back. -/
theorem ofDigitChars_padded (width n : Nat) : Nat.ofDigitChars 10 (padded width n) 0 = n := by
  unfold padded
  rw [Nat.ofDigitChars_append, Nat.ofDigitChars_replicate_zero, Nat.mul_zero,
    Nat.ofDigitChars_ten_toDigits]

/-- A number of no more digits than the width fills it. -/
theorem length_padded (width : Nat) {n : Nat} (hw : 0 < width) (h : n < tenTo width) :
    (padded width n).length = width := by
  have := (Nat.length_toDigits_le_iff (by decide) hw).2 h
  unfold padded
  rw [List.length_append, List.length_replicate]
  omega

theorem padded_injective {width m n : Nat} (h : padded width m = padded width n) : m = n := by
  rw [← ofDigitChars_padded width m, h, ofDigitChars_padded]

/-- Padded numbers of one width stand in the order of the numbers. -/
theorem padded_lt_padded (width : Nat) {m n : Nat} (hw : 0 < width) (hm : m < tenTo width)
    (hn : n < tenTo width) : padded width m < padded width n ↔ m < n := by
  rw [digits_lt_iff (fun _ => isDigit_of_mem_padded) (fun _ => isDigit_of_mem_padded)
    (by rw [length_padded width hw hm, length_padded width hw hn]), ofDigitChars_padded, ofDigitChars_padded]

end MaterialInspection
