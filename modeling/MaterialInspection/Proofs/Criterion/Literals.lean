import Mathlib.Data.List.Basic
import MaterialInspection.Criterion.Reading
import MaterialInspection.Proofs.Number.Digits

/-!
# Literals in acceptance texts

A notation is looked for at every place of an acceptance text, so to know what is found means to know
that nothing is found earlier.  Most places are ruled out for all notations alike: no literal starts
there, or one starts there that is the last of the text.

* `scan?_eq_some_iff` — a literal is scanned where one stands that does not go on.
* `scan?_eq_none_of_lacks` — no literal starts a text without digits.
* `suffix_chars` — an end of a literal is a literal again, or starts with its point.
* `leftmost_lead`, `leftmost_literal` — what stands before a literal, and the literal, is passed over.
* `leftmost_lone` — what has digits after a literal is not found in a text with a single literal.
-/

set_option autoImplicit false

namespace MaterialInspection

namespace Text

/-- Characters without the digits `0` to `9` and without some marks. -/
def Lacks (marks cs : List Char) : Prop := ∀ c ∈ cs, c.isDigit = false ∧ c ∉ marks

instance (marks cs : List Char) : Decidable (Lacks marks cs) := List.decidableBAll _ cs

variable {marks cs ds : List Char}

theorem lacks_nil (marks : List Char) : Lacks marks [] := nofun

theorem Lacks.subset (h : Lacks marks cs) (hsub : ds ⊆ cs) : Lacks marks ds :=
  fun c hc => h c (hsub hc)

theorem Lacks.mono {fewer : List Char} (h : Lacks marks cs) (hsub : fewer ⊆ marks) : Lacks fewer cs :=
  fun c hc => ⟨(h c hc).1, fun hm => (h c hc).2 (hsub hm)⟩

theorem Lacks.no_digits (h : Lacks marks cs) : Lacks [] cs := h.mono (List.nil_subset marks)

theorem Lacks.append (hcs : Lacks marks cs) (hds : Lacks marks ds) : Lacks marks (cs ++ ds) :=
  List.forall_mem_append.2 ⟨hcs, hds⟩

theorem Lacks.startsNoDigit (h : Lacks marks cs) : Numeral.StartsNoDigit cs :=
  fun c hc => (h c (List.mem_of_mem_head? hc)).1

end Text

namespace Numeral

variable {n : Numeral}

instance (n : Numeral) : Decidable n.WellFormed :=
  decidable_of_iff (n.whole ≠ [] ∧ n.whole.all Char.isDigit ∧ n.fraction.all Char.isDigit)
    ⟨fun ⟨hne, hwhole, hfraction⟩ => ⟨hne, List.all_eq_true.1 hwhole, List.all_eq_true.1 hfraction⟩,
      fun h => ⟨h.whole_ne_nil, List.all_eq_true.2 h.whole_digits,
        List.all_eq_true.2 h.fraction_digits⟩⟩

/-! ## How a literal is written -/

/-- A literal as a text. -/
def text (n : Numeral) : String := String.ofList n.chars

@[simp] theorem toList_text (n : Numeral) : n.text.toList = n.chars := String.toList_ofList

/-- A literal starts with its minus or with a digit. -/
theorem exists_cons_chars (hn : n.WellFormed) (rest : List Char) :
    ∃ c cs, n.chars ++ rest = c :: cs ∧
      (n.negative = true ∧ c = '-' ∨ n.negative = false ∧ c.isDigit = true) := by
  obtain ⟨negative, whole, fraction⟩ := n
  obtain ⟨w, ws, rfl⟩ := List.exists_cons_of_ne_nil hn.whole_ne_nil
  cases negative with
  | true => exact ⟨'-', _, rfl, .inl ⟨rfl, rfl⟩⟩
  | false => exact ⟨w, _, rfl, .inr ⟨rfl, hn.whole_digits w List.mem_cons_self⟩⟩

/-- What leaves the digits leaves a literal, if it leaves the minus that the literal may have. -/
theorem dropWhile_chars (hn : n.WellFormed) {p : Char → Bool}
    (hminus : n.negative = true → p '-' = false) (hdigit : ∀ c, c.isDigit = true → p c = false)
    (rest : List Char) :
    (n.chars ++ rest).dropWhile p = n.chars ++ rest := by
  obtain ⟨c, cs, hcons, hc⟩ := exists_cons_chars hn rest
  have hp : p c = false := by
    rcases hc with ⟨hnegative, rfl⟩ | ⟨_, hc⟩
    · exact hminus hnegative
    · exact hdigit c hc
  rw [hcons, List.dropWhile_cons_of_neg (by simp [hp])]

theorem chars_of_unsigned (h : n.negative = false) : n.chars = n.magnitudeChars := by
  rw [chars, if_neg (by simp [h])]

theorem scanMagnitude?_chars_append (hn : n.WellFormed) (h : n.negative = false) {rest : List Char}
    (hr : n.Ends rest) : scanMagnitude? (n.chars ++ rest) = some (n, rest) := by
  have hsame : n = ⟨false, n.whole, n.fraction⟩ := by rw [← h]
  rw [chars_of_unsigned h, scanMagnitude?_append hn hr, ← hsame]

theorem chars_ne_nil (hn : n.WellFormed) : n.chars ≠ [] := by
  obtain ⟨c, cs, hcons, _⟩ := exists_cons_chars hn []
  rw [List.append_nil] at hcons
  rw [hcons]
  exact List.cons_ne_nil c cs

/-- A literal has digits. -/
theorem not_lacks_of_chars (hn : n.WellFormed) {marks cs : List Char} (hsub : n.chars ⊆ cs) :
    ¬ Text.Lacks marks cs := by
  obtain ⟨w, ws, hwhole⟩ := List.exists_cons_of_ne_nil hn.whole_ne_nil
  have hmem : w ∈ n.chars := by
    unfold chars magnitudeChars
    rw [hwhole]
    split <;> simp
  intro h
  have hdigit := hn.whole_digits w (by simp [hwhole])
  rw [(h w (hsub hmem)).1] at hdigit
  cases hdigit

/-- A literal ends with a digit. -/
theorem isDigit_getLast?_chars (hn : n.WellFormed) {c : Char} (hc : n.chars.getLast? = some c) :
    c.isDigit = true := by
  have hmagnitude : n.chars.getLast? = n.magnitudeChars.getLast? := by
    unfold chars
    split
    · rw [← List.singleton_append, List.getLast?_append_of_ne_nil]
      exact List.append_ne_nil_of_left_ne_nil hn.whole_ne_nil _
    · rfl
  rw [hmagnitude] at hc
  unfold magnitudeChars at hc
  cases hf : n.fraction with
  | nil =>
    rw [hf, List.isEmpty_nil, if_pos rfl, List.append_nil] at hc
    exact hn.whole_digits c (List.mem_of_getLast? hc)
  | cons f fs =>
    rw [hf, List.isEmpty_cons, if_neg Bool.false_ne_true, ← List.singleton_append,
      ← List.append_assoc, List.getLast?_append_of_ne_nil _ (List.cons_ne_nil f fs)] at hc
    exact hn.fraction_digits c (by rw [hf]; exact List.mem_of_getLast? hc)

/-- A literal consists of digits, a minus and a point. -/
theorem mem_chars (hn : n.WellFormed) {c : Char} (hc : c ∈ n.chars) :
    c.isDigit = true ∨ c = '-' ∨ c = '.' := by
  have hmagnitude : c ∈ n.magnitudeChars → c.isDigit = true ∨ c = '.' := by
    intro hc
    unfold magnitudeChars at hc
    rcases List.mem_append.1 hc with hc | hc
    · exact .inl (hn.whole_digits c hc)
    · split at hc
      · cases hc
      · rcases List.mem_cons.1 hc with rfl | hc
        · exact .inr rfl
        · exact .inl (hn.fraction_digits c hc)
  unfold chars at hc
  split at hc
  · rcases List.mem_cons.1 hc with rfl | hc
    · exact .inr (.inl rfl)
    · exact (hmagnitude hc).imp_right .inr
  · exact (hmagnitude hc).imp_right .inr

theorem suffix_magnitudeChars (hn : n.WellFormed) {back : List Char} (h : back <:+ n.magnitudeChars)
    (hne : back ≠ []) :
    (∃ m : Numeral, m.WellFormed ∧ back = m.chars) ∨ back = '.' :: n.fraction := by
  obtain ⟨front, hfront⟩ := h
  unfold magnitudeChars at hfront
  rcases List.append_eq_append_iff.1 hfront with ⟨digits, hwhole, hback⟩ | ⟨between, _, hpoint⟩
  · -- the end starts in the whole part, or right after it
    cases digits with
    | nil =>
      rw [List.nil_append] at hback
      split at hback
      · exact absurd hback hne
      · exact .inr hback
    | cons d ds =>
      refine .inl ⟨⟨false, d :: ds, n.fraction⟩, ⟨List.cons_ne_nil d ds, ?_, hn.fraction_digits⟩, hback⟩
      intro c hc
      exact hn.whole_digits c (by rw [hwhole]; exact List.mem_append_right front hc)
  · split at hpoint
    · exact absurd (List.append_eq_nil_iff.1 hpoint.symm).2 hne
    · cases between with
      | nil => exact .inr hpoint.symm
      | cons p ps =>
        have hfraction : n.fraction = ps ++ back := (List.cons.inj hpoint).2
        refine .inl ⟨⟨false, back, []⟩, ⟨hne, ?_, fun c hc => nomatch hc⟩, ?_⟩
        · intro c hc
          exact hn.fraction_digits c (by rw [hfraction]; exact List.mem_append_right ps hc)
        · exact (List.append_nil back).symm

/-- An end of a literal is a literal again, or starts with its point. -/
theorem suffix_chars (hn : n.WellFormed) {back : List Char} (h : back <:+ n.chars) (hne : back ≠ []) :
    (∃ m : Numeral, m.WellFormed ∧ back = m.chars) ∨ back = '.' :: n.fraction := by
  have hmagnitude := @suffix_magnitudeChars n hn back
  unfold chars at h
  split at h
  · rename_i hnegative
    rcases List.suffix_cons_iff.1 h with h | h
    · refine .inl ⟨n, hn, ?_⟩
      rw [h, chars, if_pos hnegative]
    · exact hmagnitude h hne
  · exact hmagnitude h hne

/-- The first character of a literal is not blank. -/
theorem isBlank_head?_chars (hn : n.WellFormed) {rest : List Char} {c : Char}
    (hc : (n.chars ++ rest).head? = some c) : Text.isBlank c = false := by
  obtain ⟨d, ds, hcons, hd⟩ := exists_cons_chars hn rest
  rw [hcons] at hc
  cases hc
  rcases hd with ⟨_, rfl⟩ | ⟨_, hd⟩
  · decide
  · exact isBlank_of_isDigit hd

/-- Trimming keeps what ends with a literal, if it does not start with a blank. -/
theorem trimChars_around_literal (hn : n.WellFormed) {start : List Char}
    (hs : ∀ c, (start ++ n.chars).head? = some c → Text.isBlank c = false) (head tail : List Char) :
    ∃ front back, front <:+ head ∧ back <+: tail ∧
      Text.trimChars (head ++ (start ++ (n.chars ++ tail))) =
        front ++ (start ++ (n.chars ++ back)) := by
  have hne := chars_ne_nil hn
  have hlast : ∀ c, (start ++ n.chars).getLast? = some c → Text.isBlank c = false := by
    intro c hc
    rw [List.getLast?_append_of_ne_nil _ hne] at hc
    exact isBlank_of_isDigit (isDigit_getLast?_chars hn hc)
  simpa only [List.append_assoc] using
    Text.trimChars_around (List.append_ne_nil_of_right_ne_nil start hne) hs hlast head tail

/-! ## What is scanned -/

/-- Digits are taken until there are none. -/
theorem startsNoDigit_dropWhile (cs : List Char) : StartsNoDigit (cs.dropWhile Char.isDigit) := by
  intro c hc
  have hstop := List.head?_dropWhile_not Char.isDigit cs
  rw [hc] at hstop
  exact hstop

theorem isDigit_of_mem_takeWhile {cs : List Char} :
    ∀ c ∈ cs.takeWhile Char.isDigit, c.isDigit = true :=
  List.all_eq_true.1 List.all_takeWhile

/-- What is scanned without a sign is a literal, and it does not go on. -/
theorem scanMagnitude?_eq_some {cs rest : List Char} {n : Numeral}
    (h : scanMagnitude? cs = some (n, rest)) :
    n.WellFormed ∧ n.negative = false ∧ n.Ends rest ∧ cs = n.chars ++ rest := by
  have hcs := List.takeWhile_append_dropWhile (p := Char.isDigit) (l := cs)
  have hwhole : ∀ c ∈ cs.takeWhile Char.isDigit, c.isDigit = true := isDigit_of_mem_takeWhile
  have hafter := startsNoDigit_dropWhile cs
  unfold scanMagnitude? at h
  dsimp only at h
  generalize cs.takeWhile Char.isDigit = whole at *
  generalize cs.dropWhile Char.isDigit = after at *
  subst hcs
  split at h
  · cases h
  · rename_i hne
    rw [List.isEmpty_iff] at hne
    split at h
    · rename_i tail
      have htail := List.takeWhile_append_dropWhile (p := Char.isDigit) (l := tail)
      have hstop := startsNoDigit_dropWhile tail
      split at h
      · -- a point without digits after it is left in the text
        rename_i hempty
        rw [List.isEmpty_iff.1 hempty, List.nil_append] at htail
        rw [htail] at hstop
        cases h
        refine ⟨⟨hne, hwhole, nofun⟩, rfl, ⟨hafter, ?_⟩, ?_⟩
        · rintro _ _ ⟨⟩
          exact hstop
        · simp [chars, magnitudeChars]
      · rename_i hfraction
        cases h
        refine ⟨⟨hne, hwhole, isDigit_of_mem_takeWhile⟩, rfl, ⟨hstop, fun hnil => ?_⟩, ?_⟩
        · exact absurd (List.isEmpty_iff.2 hnil) hfraction
        · rw [← htail]
          simp [chars, magnitudeChars, hfraction]
    · rename_i hpoint
      cases h
      refine ⟨⟨hne, hwhole, nofun⟩, rfl, ⟨hafter, fun _ tail htail => ?_⟩, ?_⟩
      · exact absurd htail (hpoint tail)
      · simp [chars, magnitudeChars]

/-- What is scanned is a literal, and it does not go on. -/
theorem scan?_eq_some_iff {cs rest : List Char} {n : Numeral} :
    scan? cs = some (n, rest) ↔ n.WellFormed ∧ n.Ends rest ∧ cs = n.chars ++ rest := by
  constructor
  · intro h
    unfold scan? at h
    split at h
    · rename_i tail
      split at h
      · rename_i m rest hscan
        obtain ⟨hm, hsign, hends, rfl⟩ := scanMagnitude?_eq_some hscan
        cases h
        refine ⟨⟨hm.whole_ne_nil, hm.whole_digits, hm.fraction_digits⟩,
          ⟨hends.no_digit, hends.no_fraction⟩, ?_⟩
        rw [chars_of_unsigned hsign]
        rfl
      · cases h
    · obtain ⟨hn, _, hends, hcs⟩ := scanMagnitude?_eq_some h
      exact ⟨hn, hends, hcs⟩
  · rintro ⟨hn, hends, rfl⟩
    exact scan?_chars_append hn hends

/-! ## Where a literal starts and ends -/

/-- What may follow any literal without becoming part of it. -/
def Clear (rest : List Char) : Prop := ∀ c, rest.head? = some c → c.isDigit = false ∧ c ≠ '.'

theorem Clear.ends {rest : List Char} (h : Clear rest) : n.Ends rest where
  no_digit := fun c hc => (h c hc).1
  no_fraction := by
    rintro _ tail rfl
    exact absurd rfl (h '.' rfl).2

theorem clear_cons {c : Char} (h : c.isDigit = false ∧ c ≠ '.') (cs : List Char) :
    Clear (c :: cs) := by
  rintro d ⟨⟩
  exact h

theorem Clear.append {cs rest : List Char} (h : Clear rest) (hcs : Text.Lacks ['.'] cs) :
    Clear (cs ++ rest) := by
  cases cs with
  | nil => exact h
  | cons c cs =>
    obtain ⟨hdigit, hpoint⟩ := hcs c List.mem_cons_self
    exact clear_cons ⟨hdigit, fun he => hpoint (List.mem_singleton.2 he)⟩ (cs ++ rest)

theorem Clear.of_prefix {cs rest : List Char} (h : Clear rest) (hcs : cs <+: rest) : Clear cs := by
  obtain ⟨more, rfl⟩ := hcs
  intro c hc
  exact h c (by rw [List.head?_append, hc, Option.some_or])

theorem ends_of_lacks {marks rest : List Char} (h : Text.Lacks marks rest) : n.Ends rest where
  no_digit := h.startsNoDigit
  no_fraction := by
    rintro _ tail rfl
    exact (h.subset (List.subset_cons_self '.' tail)).startsNoDigit

theorem scan?_eq_none_of_head {c : Char} (hdigit : c.isDigit = false) (hminus : c ≠ '-')
    (cs : List Char) : scan? (c :: cs) = none := by
  rw [scan?_eq_none_iff]
  constructor
  · rintro d ⟨⟩
    exact hdigit
  · rintro tail ⟨⟩
    exact absurd rfl hminus

theorem scan?_eq_none_of_two {c d : Char} (hc : c.isDigit = false) (hd : d.isDigit = false)
    (cs : List Char) : scan? (c :: d :: cs) = none := by
  rw [scan?_eq_none_iff]
  constructor
  · rintro e ⟨⟩
    exact hc
  · rintro tail ⟨⟩ e ⟨⟩
    exact hd

/-- No literal starts a text without digits. -/
theorem scan?_eq_none_of_lacks {marks cs : List Char} (h : Text.Lacks marks cs) :
    scan? cs = none := by
  rw [scan?_eq_none_iff]
  refine ⟨h.startsNoDigit, ?_⟩
  rintro tail rfl
  exact (h.subset (List.subset_cons_self '-' tail)).startsNoDigit

/-- What may stand before the first literal of a text: no digit, and no minus at the end, which would
be a part of the literal. -/
structure Lead (head : List Char) : Prop where
  lacks : Text.Lacks [] head
  last : head.getLast? ≠ some '-'

theorem Lead.of_suffix {head back : List Char} (h : Lead head) (hback : back <:+ head) :
    Lead back := by
  refine ⟨h.lacks.subset hback.subset, fun hminus => h.last ?_⟩
  obtain ⟨front, rfl⟩ := hback
  rw [List.getLast?_append, hminus, Option.some_or]

/-- No literal starts in a lead. -/
theorem Lead.scan?_eq_none {head : List Char} (h : Lead head) (hne : head ≠ []) (rest : List Char) :
    scan? (head ++ rest) = none := by
  match head with
  | [] => exact absurd rfl hne
  | [c] =>
    refine scan?_eq_none_of_head (h.lacks c List.mem_cons_self).1 ?_ rest
    rintro rfl
    exact h.last rfl
  | c :: d :: cs =>
    exact scan?_eq_none_of_two (h.lacks c List.mem_cons_self).1
      (h.lacks d (List.mem_cons_of_mem c List.mem_cons_self)).1 (cs ++ rest)

/-- A literal that starts with a minus right before another is the other one with the minus. -/
theorem rest_eq_of_scan?_minus (hn : n.WellFormed) {tail rest : List Char} {m : Numeral}
    (htail : ∀ k : Numeral, k.Ends tail) (h : scan? ('-' :: (n.chars ++ tail)) = some (m, rest)) :
    rest = tail := by
  have hminus : n.negative = false := by
    rw [← Bool.not_eq_true]
    intro hnegative
    have htwo : scan? ('-' :: (n.chars ++ tail)) = none := by
      rw [chars, if_pos hnegative]
      exact scan?_eq_none_of_two (by decide) (by decide) _
    rw [htwo] at h
    cases h
  have hsigned : WellFormed ⟨true, n.whole, n.fraction⟩ :=
    ⟨hn.whole_ne_nil, hn.whole_digits, hn.fraction_digits⟩
  have hchars : '-' :: n.chars = chars ⟨true, n.whole, n.fraction⟩ := by
    rw [chars, hminus, if_neg Bool.false_ne_true]
    rfl
  have hscan := scan?_chars_append hsigned (htail _)
  rw [← hchars, List.cons_append, h] at hscan
  exact (Prod.mk.inj (Option.some.inj hscan)).2

/-- If a literal starts before another, in characters without digits, then they are the same but for a
minus, and what follows the two is the same. -/
theorem rest_eq_of_scan?_before (hn : n.WellFormed) {back tail rest : List Char} {m : Numeral}
    (hb : Text.Lacks [] back) (hne : back ≠ []) (htail : ∀ k : Numeral, k.Ends tail)
    (h : scan? (back ++ (n.chars ++ tail)) = some (m, rest)) : rest = tail := by
  by_cases hlast : back.getLast? = some '-'
  · obtain ⟨c, cs, rfl⟩ := List.exists_cons_of_ne_nil hne
    cases cs with
    | nil =>
      obtain rfl : c = '-' := Option.some.inj hlast
      exact rest_eq_of_scan?_minus hn htail h
    | cons d ds =>
      have htwo := scan?_eq_none_of_two (hb c List.mem_cons_self).1
        (hb d (List.mem_cons_of_mem c List.mem_cons_self)).1 (ds ++ (n.chars ++ tail))
      rw [List.cons_append, List.cons_append, htwo] at h
      cases h
  · rw [Lead.scan?_eq_none ⟨hb, hlast⟩ hne] at h
    cases h

/-! ## Looking for a notation -/

variable {α : Type} {recognise : List Char → Option α}

/-- A recogniser that succeeds only where a literal starts. -/
def NeedsLiteral (recognise : List Char → Option α) : Prop :=
  ∀ cs, scan? cs = none → recognise cs = none

/-- A recogniser that succeeds only where a literal starts which digits come after. -/
def NeedsDigitsAfter (recognise : List Char → Option α) : Prop :=
  ∀ cs, (∀ n rest, scan? cs = some (n, rest) → Text.Lacks [] rest) → recognise cs = none

theorem NeedsDigitsAfter.needsLiteral (h : NeedsDigitsAfter recognise) : NeedsLiteral recognise := by
  intro cs hnone
  refine h cs fun n rest hsome => ?_
  rw [hnone] at hsome
  cases hsome

/-- A lead is passed over. -/
theorem leftmost_lead (h : NeedsLiteral recognise) {head : List Char} (hhead : Lead head)
    (rest : List Char) : Text.leftmost recognise (head ++ rest) = Text.leftmost recognise rest :=
  Text.leftmost_pass fun _ hback hne => h _ ((hhead.of_suffix hback).scan?_eq_none hne rest)

/-- A literal is passed over if nothing is recognised at any literal that ends there. -/
theorem leftmost_literal (h : NeedsLiteral recognise) (hn : n.WellFormed) {rest : List Char}
    (hnone : ∀ m : Numeral, m.WellFormed → recognise (m.chars ++ rest) = none) :
    Text.leftmost recognise (n.chars ++ rest) = Text.leftmost recognise rest := by
  refine Text.leftmost_pass fun back hback hne => ?_
  rcases suffix_chars hn hback hne with ⟨m, hm, rfl⟩ | rfl
  · exact hnone m hm
  · exact h _ (scan?_eq_none_of_head (by decide) (by decide) _)

theorem leftmost_eq_none_of_lacks (h : NeedsLiteral recognise) {marks cs : List Char}
    (hcs : Text.Lacks marks cs) : Text.leftmost recognise cs = none := by
  rw [Text.leftmost_eq_none_iff]
  rintro before after rfl
  exact h after (scan?_eq_none_of_lacks (hcs.subset (List.subset_append_right before after)))

/-- What has digits after a literal is not found in a text with a single literal. -/
theorem leftmost_lone (h : NeedsDigitsAfter recognise) (hn : n.WellFormed) {head tail : List Char}
    (hhead : Text.Lacks [] head) (htail : Text.Lacks [] tail) :
    Text.leftmost recognise (head ++ (n.chars ++ tail)) = none := by
  have hends : ∀ k : Numeral, k.Ends tail := fun _ => ends_of_lacks htail
  rw [Text.leftmost_pass, leftmost_literal h.needsLiteral hn,
    leftmost_eq_none_of_lacks h.needsLiteral htail]
  · intro m hm
    refine h _ fun k rest hscan => ?_
    rw [scan?_chars_append hm (hends m)] at hscan
    cases hscan
    exact htail
  · intro back hback hne
    refine h _ fun k rest hscan => ?_
    rw [rest_eq_of_scan?_before hn (hhead.subset hback.subset) hne hends hscan]
    exact htail

end Numeral

end MaterialInspection
