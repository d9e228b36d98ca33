/-!
# Blank characters and trimming

Blank characters are those with the Unicode property `White_Space`; the zero-width space and the
byte order mark are not among them.  Trimming removes them at both ends of a text.

Principal statements: `trimChars_eq_nil_iff` (a text trims to nothing exactly when it is blank),
`trimChars_eq_self` (a text with no blank at either end is kept), `trimChars_around` (so is such a
text within another) and `trim_trim` (a trimmed text is such a text).
-/

set_option autoImplicit false

namespace MaterialInspection.Text

/-- The Unicode property `White_Space`. -/
def isBlank (c : Char) : Bool :=
  let n := c.toNat
  (9 ≤ n && n ≤ 13) || n == 0x20 || n == 0x85 || n == 0xA0 || n == 0x1680 ||
    (0x2000 ≤ n && n ≤ 0x200A) || n == 0x2028 || n == 0x2029 || n == 0x202F || n == 0x205F ||
    n == 0x3000

/-- A text without the blanks at its start. -/
def trimStart (cs : List Char) : List Char := cs.dropWhile isBlank

/-- A text without the blanks at its ends. -/
def trimChars (cs : List Char) : List Char := (trimStart (trimStart cs).reverse).reverse

/-- A text without the blanks at its ends. -/
def trim (s : String) : String := String.ofList (trimChars s.toList)

/-- A text of blanks only, or none. -/
def blank (s : String) : Bool := s.toList.all isBlank

theorem trimStart_eq_nil_iff (cs : List Char) : trimStart cs = [] ↔ ∀ c ∈ cs, isBlank c = true := by
  induction cs with
  | nil => simp [trimStart]
  | cons c rest ih =>
    unfold trimStart at ih ⊢
    by_cases hc : isBlank c = true
    · simp [hc, ih]
    · simp [hc]

/-- A text trims to nothing exactly when all of it is blank. -/
theorem trimChars_eq_nil_iff (cs : List Char) : trimChars cs = [] ↔ ∀ c ∈ cs, isBlank c = true := by
  unfold trimChars
  rw [List.reverse_eq_nil_iff, trimStart_eq_nil_iff, ← trimStart_eq_nil_iff cs]
  constructor
  · intro h
    match hs : trimStart cs with
    | [] => rfl
    | c :: rest =>
      exfalso
      have hc : isBlank c = true := h c (by simp [hs])
      have hd := List.head?_dropWhile_not isBlank cs
      unfold trimStart at hs
      rw [hs] at hd
      simp [hc] at hd
  · intro h
    simp [h]

/-- A text trims to an empty one exactly when it is blank. -/
theorem isEmpty_trim (s : String) : (trim s).isEmpty = blank s := by
  unfold trim blank
  rw [Bool.eq_iff_iff, String.isEmpty_iff, List.all_eq_true, ← trimChars_eq_nil_iff,
    ← String.toList_inj, String.toList_ofList]
  rfl

/-- A text that neither starts nor ends with a blank is kept. -/
theorem trimChars_eq_self {cs : List Char} (hs : ∀ c, cs.head? = some c → isBlank c = false)
    (he : ∀ c, cs.getLast? = some c → isBlank c = false) : trimChars cs = cs := by
  have keep : ∀ l : List Char, (∀ c, l.head? = some c → isBlank c = false) → trimStart l = l := by
    intro l hl
    cases l with
    | nil => rfl
    | cons c rest => simp [trimStart, hl c rfl]
  unfold trimChars
  rw [keep cs hs, keep cs.reverse (by simpa using he), List.reverse_reverse]

/-- What is left of a text after the blanks at its start does not start with one. -/
theorem head_trimStart {cs : List Char} {c : Char} (h : (trimStart cs).head? = some c) :
    isBlank c = false := by
  have hd := List.head?_dropWhile_not isBlank cs
  unfold trimStart at h
  rw [h] at hd
  exact hd

/-- A trimmed text does not end with a blank. -/
theorem last_trimChars {cs : List Char} {c : Char} (h : (trimChars cs).getLast? = some c) :
    isBlank c = false := by
  unfold trimChars at h
  rw [List.getLast?_reverse] at h
  exact head_trimStart h

/-- A trimmed text does not start with a blank. -/
theorem head_trimChars {cs : List Char} {c : Char} (h : (trimChars cs).head? = some c) :
    isBlank c = false := by
  unfold trimChars at h
  rw [List.head?_reverse] at h
  obtain ⟨front, hfront⟩ := List.getLast?_eq_some_iff.1 h
  -- what the second pass leaves is an end of the reversed text, so their last characters agree
  obtain ⟨dropped, hdropped⟩ := List.dropWhile_suffix (l := (trimStart cs).reverse) isBlank
  have hlast : (trimStart cs).reverse.getLast? = some c := by
    unfold trimStart at hfront hdropped ⊢
    rw [← hdropped, hfront, ← List.append_assoc, List.getLast?_concat]
  rw [List.getLast?_reverse] at hlast
  exact head_trimStart hlast

theorem trimStart_suffix (cs : List Char) : trimStart cs <:+ cs := List.dropWhile_suffix isBlank

/-- Trimming at the start does not go beyond a character that is not blank. -/
theorem trimStart_append {c : Char} (hc : isBlank c = false) (head rest : List Char) :
    trimStart (head ++ c :: rest) = trimStart head ++ c :: rest := by
  unfold trimStart
  rw [List.dropWhile_append]
  split
  · rename_i h
    rw [List.isEmpty_iff.1 h, List.nil_append, List.dropWhile_cons_of_neg (by simp [hc])]
  · rfl

/-- Trimming keeps what starts and ends without a blank, an end of what stands before it and a
beginning of what stands after it. -/
theorem trimChars_around {core : List Char} (hne : core ≠ [])
    (hs : ∀ c, core.head? = some c → isBlank c = false)
    (he : ∀ c, core.getLast? = some c → isBlank c = false) (head tail : List Char) :
    ∃ front back, front <:+ head ∧ back <+: tail ∧
      trimChars (head ++ (core ++ tail)) = front ++ (core ++ back) := by
  refine ⟨trimStart head, (trimStart tail.reverse).reverse, trimStart_suffix head, ?_, ?_⟩
  · exact List.reverse_suffix.1 (by simpa using trimStart_suffix tail.reverse)
  · have hstart : trimStart (head ++ (core ++ tail)) = trimStart head ++ (core ++ tail) := by
      obtain ⟨c, cs, rfl⟩ := List.exists_cons_of_ne_nil hne
      exact trimStart_append (hs c rfl) head (cs ++ tail)
    obtain ⟨c, hc⟩ := List.getLast?_isSome.2 hne |> Option.isSome_iff_exists.1
    obtain ⟨cs, rfl⟩ := List.getLast?_eq_some_iff.1 hc
    unfold trimChars
    rw [hstart, List.append_assoc, List.singleton_append, ← List.append_assoc, List.reverse_append,
      List.reverse_cons, List.append_assoc, List.singleton_append, trimStart_append (he c hc)]
    simp

theorem trimChars_trimChars (cs : List Char) : trimChars (trimChars cs) = trimChars cs :=
  trimChars_eq_self (fun _ => head_trimChars) fun _ => last_trimChars

@[simp] theorem trim_trim (s : String) : trim (trim s) = trim s := by
  unfold trim
  rw [String.toList_ofList, trimChars_trimChars]

end MaterialInspection.Text
