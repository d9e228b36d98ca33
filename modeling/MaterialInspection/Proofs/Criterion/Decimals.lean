import MaterialInspection.Proofs.Criterion.Literals
import MaterialInspection.Proofs.Number.Fixed

/-!
# Decimals of a criterion

Samples are written with the decimals that their acceptance text shows.  These are meant to be the
decimals of the first literal that has any (`literalPlaces`), and are those of the first point that a
digit follows (`places`).  A literal has a digit before its point as well; the point of an abbreviation
that a number follows has none, and sets the decimals all the same.

* `literalPlacesAt?_eq_some_iff` — where a literal with a fraction stands, in the words of the scanner.
* `leftmost_fractionDigitsAt?_iff` — what is counted is the first fraction of the text.
* `literalPlaces_of_firstFraction` — the first fraction is that of a literal if a digit stands before
  it, and otherwise the literals of the text come after its point.
* `places_cases` — both numbers of decimals, for every text.
-/

set_option autoImplicit false

namespace MaterialInspection

namespace Numeral

/-! ## Texts that start with no digit -/

theorem StartsNoDigit.takeWhile {cs : List Char} (h : StartsNoDigit cs) :
    cs.takeWhile Char.isDigit = [] := (takeWhile_append_of_all (List.forall_mem_nil _) h).1

theorem StartsNoDigit.dropWhile {cs : List Char} (h : StartsNoDigit cs) :
    cs.dropWhile Char.isDigit = cs := (takeWhile_append_of_all (List.forall_mem_nil _) h).2

theorem startsNoDigit_or (cs : List Char) :
    StartsNoDigit cs ∨ ∃ d ds, cs = d :: ds ∧ d.isDigit = true := by
  cases cs with
  | nil => exact .inl nofun
  | cons d ds =>
    cases hd : d.isDigit with
    | true => exact .inr ⟨d, ds, rfl, hd⟩
    | false =>
      refine .inl ?_
      rintro c ⟨⟩
      exact hd

theorem startsNoDigit_append_point {cs rest : List Char} :
    StartsNoDigit (cs ++ '.' :: rest) ↔ StartsNoDigit cs := by
  cases cs with
  | nil => exact ⟨fun _ => nofun, fun _ => by rintro c ⟨⟩; decide⟩
  | cons c cs => exact Iff.rfl

end Numeral

namespace Criterion

open Numeral

/-! ## Decimals of literals -/

/-- The number of decimals of the literal that stands here, if it has any. -/
def literalPlacesAt? (cs : List Char) : Option Nat :=
  match scanMagnitude? cs with
  | some (n, _) => if n.fraction.isEmpty then none else some n.fraction.length
  | none => none

/-- The number of decimals of the first literal of a text that has any, otherwise that of a criterion
without decimals. -/
def literalPlaces (c : Criterion) (s : String) : Nat :=
  (Text.leftmost literalPlacesAt? s.toList).getD c.defaultPlaces

/-- Digits with a fraction stand here, and the fraction does not go on. -/
theorem literalPlacesAt?_eq_some_iff {cs : List Char} {k : Nat} :
    literalPlacesAt? cs = some k ↔ ∃ (n : Numeral) (rest : List Char), n.WellFormed ∧
      n.negative = false ∧ n.fraction ≠ [] ∧ StartsNoDigit rest ∧ cs = n.chars ++ rest ∧
      n.fraction.length = k := by
  constructor
  · intro h
    unfold literalPlacesAt? at h
    split at h
    · rename_i n rest hscan
      obtain ⟨hn, hsign, hends, hcs⟩ := scanMagnitude?_eq_some hscan
      split at h
      · cases h
      · rename_i hfraction
        refine ⟨n, rest, hn, hsign, ?_, hends.no_digit, hcs, Option.some.inj h⟩
        rintro hnil
        exact hfraction (List.isEmpty_iff.2 hnil)
    · cases h
  · rintro ⟨n, rest, hn, hsign, hfraction, hrest, rfl, rfl⟩
    have hends : n.Ends rest := ⟨hrest, fun hnil => absurd hnil hfraction⟩
    have hfull : n.fraction.isEmpty = false := List.isEmpty_eq_false_iff.2 hfraction
    unfold literalPlacesAt?
    rw [scanMagnitude?_chars_append hn hsign hends]
    simp [hfull]

/-- A literal has decimals when a fraction comes right after its first digits. -/
theorem literalPlacesAt?_eq (cs : List Char) :
    literalPlacesAt? cs =
      if cs.takeWhile Char.isDigit = [] then none
      else fractionDigitsAt? (cs.dropWhile Char.isDigit) := by
  unfold literalPlacesAt? scanMagnitude? fractionDigitsAt?
  dsimp only
  generalize cs.takeWhile Char.isDigit = whole
  generalize cs.dropWhile Char.isDigit = after
  cases whole with
  | nil => rfl
  | cons d ds =>
    simp only [List.isEmpty_cons, Bool.false_eq_true, if_false, reduceCtorEq]
    cases after with
    | nil => rfl
    | cons p tail =>
      by_cases hpoint : p = '.'
      · subst hpoint
        cases hfraction : tail.takeWhile Char.isDigit <;> simp [hfraction]
      · simp [hpoint]

/-- A digit in front makes a fraction that starts a text the fraction of a literal. -/
theorem leftmost_literalPlacesAt?_cons (c : Char) (cs : List Char) :
    Text.leftmost literalPlacesAt? (c :: cs) =
      if c.isDigit then (fractionDigitsAt? cs).or (Text.leftmost literalPlacesAt? cs)
      else Text.leftmost literalPlacesAt? cs := by
  rw [Text.leftmost_cons, literalPlacesAt?_eq (c :: cs)]
  by_cases hc : c.isDigit = true
  · rw [if_pos hc, List.takeWhile_cons_of_pos hc, List.dropWhile_cons_of_pos hc,
      if_neg (List.cons_ne_nil _ _)]
    rcases startsNoDigit_or cs with hstart | ⟨d, ds, rfl, hd⟩
    · rw [hstart.dropWhile]
    · -- the literal that starts at the next digit is this one without its first
      have hrun : (d :: ds).takeWhile Char.isDigit ≠ [] := by simp [hd]
      have hnext : literalPlacesAt? (d :: ds) =
          fractionDigitsAt? ((d :: ds).dropWhile Char.isDigit) := by
        rw [literalPlacesAt?_eq, if_neg hrun]
      have hpoint : d ≠ '.' := ne_of_isDigit hd (by decide)
      rw [← hnext, fractionDigitsAt?_of_ne hpoint, Option.none_or]
      cases hfound : literalPlacesAt? (d :: ds) with
      | none => rfl
      | some k => exact (Text.leftmost_here hfound).symm
  · rw [if_neg hc, List.takeWhile_cons_of_neg hc, if_pos rfl, Option.none_or]

/-! ## The first fraction -/

/-- The first point of a text that a digit follows, and all digits after it. -/
structure FirstFraction (text before digits after : List Char) : Prop where
  text_eq : text = before ++ '.' :: (digits ++ after)
  digits_ne_nil : digits ≠ []
  isDigit_digits : ∀ c ∈ digits, c.isDigit = true
  after_startsNoDigit : StartsNoDigit after
  first : ∀ front back, before = front ++ '.' :: back → StartsNoDigit back

theorem fractionDigitsAt?_point_eq_none_iff {cs : List Char} :
    fractionDigitsAt? ('.' :: cs) = none ↔ StartsNoDigit cs := by
  rcases startsNoDigit_or cs with hstart | ⟨d, ds, rfl, hd⟩
  · simp [fractionDigitsAt?, hstart.takeWhile, hstart]
  · have hdigit : ¬ StartsNoDigit (d :: ds) := fun h => by simpa [hd] using h d rfl
    simp [fractionDigitsAt?, hd, hdigit]

/-- A point stands here, and a digit after it. -/
theorem fractionDigitsAt?_eq_some_iff {cs : List Char} {k : Nat} :
    fractionDigitsAt? cs = some k ↔ ∃ digits after, cs = '.' :: (digits ++ after) ∧ digits ≠ [] ∧
      (∀ c ∈ digits, c.isDigit = true) ∧ StartsNoDigit after ∧ digits.length = k := by
  constructor
  · intro h
    unfold fractionDigitsAt? at h
    split at h
    · rename_i rest
      dsimp only at h
      split at h
      · cases h
      · rename_i hne
        rw [List.isEmpty_iff] at hne
        exact ⟨_, _, by rw [List.takeWhile_append_dropWhile], hne, isDigit_of_mem_takeWhile,
          startsNoDigit_dropWhile rest, Option.some.inj h⟩
    · cases h
  · rintro ⟨digits, after, rfl, hne, hdigits, hafter, rfl⟩
    have htake := (takeWhile_append_of_all hdigits hafter).1
    simp [fractionDigitsAt?, htake, hne]

/-- No fraction starts before the first one. -/
theorem fractionDigitsAt?_eq_none_of_first {before back : List Char}
    (hfirst : ∀ front back, before = front ++ '.' :: back → StartsNoDigit back)
    (hback : back <:+ before) (hne : back ≠ []) (rest : List Char) :
    fractionDigitsAt? (back ++ '.' :: rest) = none := by
  obtain ⟨front, hfront⟩ := hback
  obtain ⟨c, cs, rfl⟩ := List.exists_cons_of_ne_nil hne
  by_cases hpoint : c = '.'
  · subst hpoint
    apply fractionDigitsAt?_point_eq_none_iff.2
    exact startsNoDigit_append_point.2 (hfirst front cs hfront.symm)
  · exact fractionDigitsAt?_of_ne hpoint _

/-- What is counted is the first fraction of a text. -/
theorem leftmost_fractionDigitsAt?_iff {text : List Char} {k : Nat} :
    Text.leftmost fractionDigitsAt? text = some k ↔
      ∃ before digits after, FirstFraction text before digits after ∧ digits.length = k := by
  rw [Text.leftmost_eq_some_iff]
  constructor
  · rintro ⟨before, rest, htext, hfound, hearlier⟩
    obtain ⟨digits, after, rfl, hne, hdigits, hafter, hlength⟩ :=
      fractionDigitsAt?_eq_some_iff.1 hfound
    refine ⟨before, digits, after, ⟨htext, hne, hdigits, hafter, ?_⟩, hlength⟩
    rintro front back rfl
    have hnone := hearlier ('.' :: back) (List.suffix_append front _) (List.cons_ne_nil _ _)
    exact startsNoDigit_append_point.1 (fractionDigitsAt?_point_eq_none_iff.1 hnone)
  · rintro ⟨before, digits, after, h, hlength⟩
    have hfound : fractionDigitsAt? ('.' :: (digits ++ after)) = some k :=
      fractionDigitsAt?_eq_some_iff.2
        ⟨digits, after, rfl, h.digits_ne_nil, h.isDigit_digits, h.after_startsNoDigit, hlength⟩
    refine ⟨before, '.' :: (digits ++ after), h.text_eq, hfound, ?_⟩
    exact fun back hback hne => fractionDigitsAt?_eq_none_of_first h.first hback hne _

/-- Whether a text ends with a digit. -/
def endsWithDigit (cs : List Char) : Bool := cs.getLast?.any Char.isDigit

/-- The literals of a text, by its first fraction: it belongs to the first literal with decimals if a
digit stands before its point, and otherwise all of these come after the point. -/
theorem literal_of_firstFraction {text before digits after : List Char}
    (h : FirstFraction text before digits after) :
    Text.leftmost literalPlacesAt? text =
      if endsWithDigit before then some digits.length
      else Text.leftmost literalPlacesAt? (digits ++ after) := by
  obtain ⟨rfl, hne, hdigits, hafter, hfirst⟩ := h
  induction before with
  | nil =>
    rw [List.nil_append, leftmost_literalPlacesAt?_cons, if_neg (by decide)]
    rfl
  | cons c cs ih =>
    have hcs := ih fun front back he => hfirst (c :: front) back (by rw [he, List.cons_append])
    rw [List.cons_append, leftmost_literalPlacesAt?_cons, hcs]
    cases cs with
    | nil =>
      have hfound : fractionDigitsAt? ('.' :: (digits ++ after)) = some digits.length :=
        fractionDigitsAt?_eq_some_iff.2 ⟨digits, after, rfl, hne, hdigits, hafter, rfl⟩
      rw [List.nil_append, hfound]
      rfl
    | cons d ds =>
      have hnone : fractionDigitsAt? (d :: ds ++ '.' :: (digits ++ after)) = none :=
        fractionDigitsAt?_eq_none_of_first hfirst (List.suffix_cons c (d :: ds)) (List.cons_ne_nil d ds) _
      rw [hnone, Option.none_or, ite_self]
      rfl

/-- A text without a fraction has no literal with decimals. -/
theorem leftmost_literalPlacesAt?_eq_none {text : List Char}
    (h : Text.leftmost fractionDigitsAt? text = none) : Text.leftmost literalPlacesAt? text = none := by
  rw [Text.leftmost_eq_none_iff] at h ⊢
  rintro before after rfl
  rw [literalPlacesAt?_eq, h (before ++ after.takeWhile Char.isDigit), ite_self]
  rw [List.append_assoc, List.takeWhile_append_dropWhile]

/-! ## Both numbers of decimals -/

/-- **The decimals of samples are those of the first fraction of the text**, whether it belongs to a
literal or not.  They are the decimals of the first literal that has any when a digit stands before
that fraction, or when there is no fraction at all; otherwise that literal comes after the point. -/
theorem places_cases (c : Criterion) (s : String) :
    (∃ before digits after, FirstFraction s.toList before digits after ∧ c.places s = digits.length ∧
      c.literalPlaces s =
        if endsWithDigit before then digits.length
        else (Text.leftmost literalPlacesAt? (digits ++ after)).getD c.defaultPlaces) ∨
    ((∀ before digits after, ¬ FirstFraction s.toList before digits after) ∧
      c.places s = c.defaultPlaces ∧ c.literalPlaces s = c.defaultPlaces) := by
  unfold places literalPlaces
  cases hfound : Text.leftmost fractionDigitsAt? s.toList with
  | some k =>
    obtain ⟨before, digits, after, h, rfl⟩ := leftmost_fractionDigitsAt?_iff.1 hfound
    refine .inl ⟨before, digits, after, h, rfl, ?_⟩
    rw [literal_of_firstFraction h]
    split <;> rfl
  | none =>
    refine .inr ⟨fun before digits after h => ?_, rfl, ?_⟩
    · have hsome := leftmost_fractionDigitsAt?_iff.2 ⟨before, digits, after, h, rfl⟩
      rw [hfound] at hsome
      cases hsome
    · rw [leftmost_literalPlacesAt?_eq_none hfound]
      rfl

/-- The point of an abbreviation sets five decimals for a bound that is written with none. -/
theorem places_abbreviation :
    read "No.12345 ≥ 8" = .minimum 8 ∧ (read "No.12345 ≥ 8").places "No.12345 ≥ 8" = 5 ∧
      (read "No.12345 ≥ 8").literalPlaces "No.12345 ≥ 8" = 1 := by
  decide +kernel

end Criterion

end MaterialInspection
