import MaterialInspection.Calendar
import MaterialInspection.Proofs.Number.Digits

/-!
# Dates read back from their texts

A year is written with four digits or more, with a sign when it is outside 0 to 9999, and the reader
takes four digits at most unless there is a sign.  The two rules meet for every year of the calendar.

* `readYear?_yearChars` — the year reads back, with what follows its dash.
* `read?_text` — every date reads back from its text.
-/

set_option autoImplicit false

namespace MaterialInspection

/-- The digits of a run that something other than a digit follows, and what follows. -/
theorem takeWhile_digits {ds : List Char} (hd : ∀ c ∈ ds, c.isDigit = true) (rest : List Char) :
    (ds ++ '-' :: rest).takeWhile Char.isDigit = ds := by
  rw [List.takeWhile_append_of_pos hd, List.takeWhile_cons_of_neg (by decide), List.append_nil]

namespace Date

/-! ## Numbers -/

theorem readDigits?_of_digits {most : Nat} {ds : List Char} (hd : ∀ c ∈ ds, c.isDigit = true)
    (hne : ds ≠ []) (hl : ds.length ≤ most) (rest : List Char) :
    readDigits? most (ds ++ '-' :: rest) = some (Nat.ofDigitChars 10 ds 0, '-' :: rest) := by
  have he : ds.isEmpty = false := by simpa using hne
  unfold readDigits?
  simp only [takeWhile_digits hd, List.take_of_length_le hl, he, List.drop_left]
  rfl

theorem readDigits?_padded {most width n : Nat} (hl : (padded width n).length ≤ most)
    (rest : List Char) :
    readDigits? most (padded width n ++ '-' :: rest) = some (n, '-' :: rest) := by
  rw [readDigits?_of_digits (fun _ => isDigit_of_mem_padded) (padded_ne_nil width n) hl,
    ofDigitChars_padded]

/-- The last number of a date, with nothing after it. -/
theorem readDigits?_last {most width n : Nat} (hl : (padded width n).length ≤ most) :
    readDigits? most (padded width n) = some (n, []) := by
  have hd : ∀ c ∈ padded width n, c.isDigit = true := fun _ => isDigit_of_mem_padded
  have ht : (padded width n).takeWhile Char.isDigit = padded width n := by
    rw [← List.append_nil (padded width n), List.takeWhile_append_of_pos hd, List.takeWhile_nil]
  have he : (padded width n).isEmpty = false := by simpa using padded_ne_nil width n
  unfold readDigits?
  simp only [ht, List.take_of_length_le hl, he, List.drop_length, ofDigitChars_padded]
  rfl

/-! ## Years -/

/-- A year reads back. -/
theorem readYear?_yearChars (year : Int) (rest : List Char) :
    readYear? (yearChars year ++ '-' :: rest) = some (year, '-' :: rest) := by
  have hlen : ∀ n, (padded 4 n).length ≤ (padded 4 n ++ '-' :: rest).length := by
    intro n
    rw [List.length_append]
    omega
  unfold yearChars
  split
  · rename_i hneg
    unfold readYear?
    simp only [List.cons_append, Text.trimStart, List.dropWhile_cons]
    rw [show Text.isBlank '-' = false by decide]
    simp only [Bool.false_eq_true, if_false, readDigits?_padded (hlen _), Option.map_some]
    rw [show -((year.natAbs : Nat) : Int) = year by omega]
  · rename_i hnonneg
    split
    · rename_i hwide
      unfold readYear?
      simp only [List.cons_append, Text.trimStart, List.dropWhile_cons]
      rw [show Text.isBlank '+' = false by decide]
      simp only [Bool.false_eq_true, if_false, readDigits?_padded (hlen _), Option.map_some]
      rw [show ((year.natAbs : Nat) : Int) = year by omega]
    · rename_i hnarrow
      have hfour : (padded 4 year.natAbs).length ≤ 4 :=
        Nat.le_of_eq (length_padded 4 (by decide) (show year.natAbs < 10000 by omega))
      have hd : ∀ c ∈ padded 4 year.natAbs, c.isDigit = true := fun _ => isDigit_of_mem_padded
      have hread := readDigits?_padded hfour rest
      have htrim := trimStart_of_digits hd (padded_ne_nil 4 year.natAbs) ('-' :: rest)
      unfold readYear?
      rw [htrim]
      -- the first character is a digit, so neither of the signs
      obtain ⟨c, cs, hp⟩ := List.exists_cons_of_ne_nil (padded_ne_nil 4 year.natAbs)
      have hc : c.isDigit = true := hd c (by rw [hp]; exact List.mem_cons_self)
      split
      · rename_i after he
        rw [hp, List.cons_append] at he
        cases he
        exact absurd hc (by decide)
      · rename_i after he
        rw [hp, List.cons_append] at he
        cases he
        exact absurd hc (by decide)
      · rw [hread, Option.map_some]
        dsimp only
        rw [show ((year.natAbs : Nat) : Int) = year by omega]

/-! ## Dates -/

theorem readPart?_padded {n : Nat} (h : n < 100) (rest : List Char) :
    readPart? .strict ('-' :: (padded 2 n ++ '-' :: rest)) = some (n, '-' :: rest) := by
  have hd : ∀ c ∈ padded 2 n, c.isDigit = true := fun _ => isDigit_of_mem_padded
  have hl : (padded 2 n).length ≤ 2 := Nat.le_of_eq (length_padded 2 (by decide) h)
  unfold readPart? readDash?
  simp only [reduceCtorEq, if_false]
  rw [trimStart_of_digits hd (padded_ne_nil 2 n), readDigits?_padded hl]

theorem readPart?_last {n : Nat} (h : n < 100) :
    readPart? .strict ('-' :: padded 2 n) = some (n, []) := by
  have hd : ∀ c ∈ padded 2 n, c.isDigit = true := fun _ => isDigit_of_mem_padded
  have hl : (padded 2 n).length ≤ 2 := Nat.le_of_eq (length_padded 2 (by decide) h)
  have htrim := trimStart_of_digits hd (padded_ne_nil 2 n) []
  rw [List.append_nil] at htrim
  unfold readPart? readDash?
  simp only [reduceCtorEq, if_false]
  rw [htrim, readDigits?_last hl]

theorem day_bounds (d : Date) : 1 ≤ d.day ∧ d.day ≤ 31 := by
  obtain ⟨_, _, h1, h2⟩ := d.exist
  have h31 : Calendar.daysIn d.year d.month ≤ 31 := by
    unfold Calendar.daysIn
    split
    · split <;> decide
    · split <;> decide
  omega

/-- **Every date reads back from its text**, years before zero and beyond four digits included. -/
theorem read?_text (d : Date) : read? .strict d.text = some d := by
  have hm := d.exist.2.1
  have hday := day_bounds d
  unfold read? text
  rw [String.toList_ofList]
  unfold readChars? chars
  simp only [readYear?_yearChars, readPart?_padded (show d.month < 100 by omega),
    readPart?_last (show d.day < 100 by omega), reduceCtorEq, if_false]
  unfold of?
  rw [dif_pos d.exist]
  rfl

/-- Different days have different texts. -/
theorem text_injective {a b : Date} (h : a.text = b.text) : a = b := by
  have ha := read?_text a
  rw [h, read?_text b] at ha
  exact (Option.some.inj ha).symm

end Date

end MaterialInspection
