import MaterialInspection.Proofs.Criterion
import MaterialInspection.Proofs.Criterion.Literals

/-!
# Texts that write ranges and tolerances

Both notations are two literals with a sign between them.  A minus can be the sign of a range, the
sign of a literal and a part of the sign of a tolerance, so it has to be shown where each text is cut:
a range at its own sign, whatever units stand around it, and a tolerance never at the minus in its
sign, although ranges are looked for first.

* `rangeAt?_eq_some_iff`, `toleranceAt?_eq_some_iff` — what is found at a place of a text.
* `RangeText`, `ToleranceText` — the texts of the two notations.
* `readChars_range`, `readChars_tolerance` — what they are read as, once trimmed.
* `read_rangeText`, `read_toleranceText` — the same for the texts as they stand.
-/

set_option autoImplicit false

namespace MaterialInspection

/-- The signs of a range. -/
def rangeSigns : List Char := ['~', '～', '-']

/-- The signs of a tolerance. -/
def toleranceSigns : List String := ["±", "+/-", "+-"]

namespace Criterion

variable {a b : Numeral} {head unit gap tail rest : List Char}

/-! ## What may stand between the parts -/

theorem isRangeUnit_iff {c : Char} :
    isRangeUnit c = true ↔ c.isDigit = false ∧ c ∉ ['.', '~', '～', '+', '/', '-'] := by
  simp [isRangeUnit, and_assoc]

theorem isRangeGap_iff {c : Char} :
    isRangeGap c = true ↔ c.isDigit = false ∧ c ∉ ['.', '+', '/', '-'] := by
  simp [isRangeGap, and_assoc]

theorem isRangeSign_iff {c : Char} : isRangeSign c = true ↔ c ∈ rangeSigns := by
  simp [isRangeSign, rangeSigns, or_assoc]

/-- A sign of a range is no part of a literal that has begun, and no unit. -/
theorem rangeSign_spec {c : Char} (h : c ∈ rangeSigns) :
    c.isDigit = false ∧ c ≠ '.' ∧ isRangeUnit c = false := by
  simp only [rangeSigns, List.mem_cons, List.not_mem_nil, or_false] at h
  rcases h with rfl | rfl | rfl
  · decide
  · decide
  · decide

theorem isRangeSign_of_isDigit {c : Char} (h : c.isDigit = true) : isRangeSign c = false := by
  refine Bool.eq_false_iff.2 fun hsign => ?_
  rw [(rangeSign_spec (isRangeSign_iff.1 hsign)).1] at h
  cases h

theorem isToleranceUnit_iff {c : Char} :
    isToleranceUnit c = true ↔ c.isDigit = false ∧ c ∉ ['.', '±', '+'] := by
  simp [isToleranceUnit, and_assoc]

theorem isToleranceGap_iff {c : Char} : isToleranceGap c = true ↔ c.isDigit = false ∧ c ∉ ['.'] := by
  simp [isToleranceGap]

theorem toleranceSign?_eq_some_iff {cs : List Char} :
    toleranceSign? cs = some rest ↔ ∃ sign ∈ toleranceSigns, cs = sign.toList ++ rest := by
  constructor
  · intro h
    unfold toleranceSign? at h
    split at h
    · cases h
      exact ⟨"±", by decide, rfl⟩
    · cases h
      exact ⟨"+/-", by decide, rfl⟩
    · cases h
      exact ⟨"+-", by decide, rfl⟩
    · cases h
  · rintro ⟨sign, hsign, rfl⟩
    simp only [toleranceSigns, List.mem_cons, List.not_mem_nil, or_false] at hsign
    rcases hsign with rfl | rfl | rfl
    · rfl
    · rfl
    · rfl

/-- A sign of a tolerance starts with what no unit has. -/
theorem dropWhile_toleranceSign {sign : String} (hsign : sign ∈ toleranceSigns) (rest : List Char) :
    (sign.toList ++ rest).dropWhile isToleranceUnit = sign.toList ++ rest := by
  simp only [toleranceSigns, List.mem_cons, List.not_mem_nil, or_false] at hsign
  rcases hsign with rfl | rfl | rfl
  · rfl
  · rfl
  · rfl

theorem clear_rangeSign {sign : Char} (hsign : sign ∈ rangeSigns)
    (hunit : Text.Lacks ['.', '~', '～', '+', '/', '-'] unit) (rest : List Char) :
    Numeral.Clear (unit ++ sign :: rest) := by
  obtain ⟨hdigit, hpoint, _⟩ := rangeSign_spec hsign
  exact (Numeral.clear_cons ⟨hdigit, hpoint⟩ rest).append (hunit.mono (by simp))

theorem clear_toleranceSign {sign : String} (hsign : sign ∈ toleranceSigns)
    (hunit : Text.Lacks ['.', '±', '+'] unit) (rest : List Char) :
    Numeral.Clear (unit ++ (sign.toList ++ rest)) := by
  have hsigns : ∀ sign ∈ toleranceSigns,
      sign.toList.head?.any fun c => !c.isDigit && c != '.' := by decide
  obtain ⟨c, hhead, hc⟩ := (Option.any_eq_true _ _).1 (hsigns sign hsign)
  obtain ⟨cs, hcons⟩ := List.head?_eq_some_iff.1 hhead
  have hclear : Numeral.Clear (sign.toList ++ rest) := by
    rw [hcons]
    exact Numeral.clear_cons (by simpa using hc) (cs ++ rest)
  exact hclear.append (hunit.mono (by simp))

/-! ## Two literals at a place -/

/-- A range starts where its parts stand one after another: a literal, units, a sign, anything without
digits and without the signs of a literal, and a literal that does not go on. -/
theorem rangeAt?_eq_some_iff {cs : List Char} :
    rangeAt? cs = some (a, b) ↔ ∃ unit sign gap rest,
      cs = a.chars ++ (unit ++ sign :: (gap ++ (b.chars ++ rest))) ∧ a.WellFormed ∧ b.WellFormed ∧
      Text.Lacks ['.', '~', '～', '+', '/', '-'] unit ∧ sign ∈ rangeSigns ∧
      Text.Lacks ['.', '+', '/', '-'] gap ∧ b.Ends rest := by
  constructor
  · intro h
    unfold rangeAt? at h
    split at h
    · cases h
    · rename_i first rest hscan
      obtain ⟨ha, _, hcs⟩ := Numeral.scan?_eq_some_iff.1 hscan
      split at h
      · cases h
      · rename_i sign tail hdrop
        split at h
        · rename_i hsign
          split at h
          · rename_i second after hsecond
            obtain ⟨hb, hends, htail⟩ := Numeral.scan?_eq_some_iff.1 hsecond
            cases h
            have hrest := List.takeWhile_append_dropWhile (p := isRangeUnit) (l := rest)
            have hgap := List.takeWhile_append_dropWhile (p := isRangeGap) (l := tail)
            refine ⟨rest.takeWhile isRangeUnit, sign, tail.takeWhile isRangeGap, after, ?_, ha, hb,
              fun c hc => isRangeUnit_iff.1 (List.all_eq_true.1 List.all_takeWhile c hc),
              isRangeSign_iff.1 hsign,
              fun c hc => isRangeGap_iff.1 (List.all_eq_true.1 List.all_takeWhile c hc), hends⟩
            rw [← htail, hgap, ← hdrop, hrest, hcs]
          · cases h
        · cases h
  · rintro ⟨unit, sign, gap, rest, rfl, ha, hb, hunit, hsign, hgap, hends⟩
    have hstop := (rangeSign_spec hsign).2.2
    unfold rangeAt?
    rw [Numeral.scan?_chars_append ha (clear_rangeSign hsign hunit _).ends]
    dsimp only
    rw [List.dropWhile_append_of_pos fun c hc => isRangeUnit_iff.2 (hunit c hc),
      List.dropWhile_cons_of_neg (by simp [hstop])]
    dsimp only
    rw [if_pos (isRangeSign_iff.2 hsign),
      List.dropWhile_append_of_pos fun c hc => isRangeGap_iff.2 (hgap c hc),
      Numeral.dropWhile_chars hb (fun _ => by decide) (fun c hc => by simp [isRangeGap, hc]),
      Numeral.scan?_chars_append hb hends]

/-- A tolerance starts where its parts stand one after another. -/
theorem toleranceAt?_eq_some_iff {cs : List Char} :
    toleranceAt? cs = some (a, b) ↔ ∃ unit, ∃ sign ∈ toleranceSigns, ∃ gap rest,
      cs = a.chars ++ (unit ++ (sign.toList ++ (gap ++ (b.chars ++ rest)))) ∧ a.WellFormed ∧
      b.WellFormed ∧ b.negative = false ∧ Text.Lacks ['.', '±', '+'] unit ∧ Text.Lacks ['.'] gap ∧
      b.Ends rest := by
  constructor
  · intro h
    unfold toleranceAt? at h
    split at h
    · cases h
    · rename_i base rest hscan
      obtain ⟨ha, _, hcs⟩ := Numeral.scan?_eq_some_iff.1 hscan
      split at h
      · cases h
      · rename_i tail hsign
        obtain ⟨sign, hmem, hdrop⟩ := toleranceSign?_eq_some_iff.1 hsign
        split at h
        · rename_i deviation after hdeviation
          obtain ⟨hb, hunsigned, hends, htail⟩ := Numeral.scanMagnitude?_eq_some hdeviation
          cases h
          have hrest := List.takeWhile_append_dropWhile (p := isToleranceUnit) (l := rest)
          have hgap := List.takeWhile_append_dropWhile (p := isToleranceGap) (l := tail)
          refine ⟨rest.takeWhile isToleranceUnit, sign, hmem, tail.takeWhile isToleranceGap, after, ?_,
            ha, hb, hunsigned,
            fun c hc => isToleranceUnit_iff.1 (List.all_eq_true.1 List.all_takeWhile c hc),
            fun c hc => isToleranceGap_iff.1 (List.all_eq_true.1 List.all_takeWhile c hc), hends⟩
          rw [← htail, hgap, ← hdrop, hrest, hcs]
        · cases h
  · rintro ⟨unit, sign, hsign, gap, rest, rfl, ha, hb, hunsigned, hunit, hgap, hends⟩
    have hstop := Numeral.dropWhile_chars hb (p := isToleranceGap) (by simp [hunsigned])
      (fun c hc => by simp [isToleranceGap, hc]) rest
    unfold toleranceAt?
    rw [Numeral.scan?_chars_append ha (clear_toleranceSign hsign hunit _).ends]
    dsimp only
    rw [List.dropWhile_append_of_pos fun c hc => isToleranceUnit_iff.2 (hunit c hc),
      dropWhile_toleranceSign hsign, toleranceSign?_eq_some_iff.2 ⟨sign, hsign, rfl⟩]
    dsimp only
    rw [List.dropWhile_append_of_pos fun c hc => isToleranceGap_iff.2 (hgap c hc), hstop,
      Numeral.scanMagnitude?_chars_append hb hunsigned hends]

theorem needsDigitsAfter_rangeAt? : Numeral.NeedsDigitsAfter rangeAt? := by
  intro cs h
  cases hat : rangeAt? cs with
  | none => rfl
  | some pair =>
    obtain ⟨unit, sign, gap, rest, rfl, ha, hb, hunit, hsign, _⟩ := rangeAt?_eq_some_iff.1 hat
    have hlacks := h _ _ (Numeral.scan?_chars_append ha (clear_rangeSign hsign hunit _).ends)
    exact absurd hlacks (Numeral.not_lacks_of_chars hb fun c hc => by simp [hc])

theorem needsDigitsAfter_toleranceAt? : Numeral.NeedsDigitsAfter toleranceAt? := by
  intro cs h
  cases hat : toleranceAt? cs with
  | none => rfl
  | some pair =>
    obtain ⟨unit, sign, hsign, gap, rest, rfl, ha, hb, _, hunit, _⟩ := toleranceAt?_eq_some_iff.1 hat
    have hlacks := h _ _ (Numeral.scan?_chars_append ha (clear_toleranceSign hsign hunit _).ends)
    exact absurd hlacks (Numeral.not_lacks_of_chars hb fun c hc => by simp [hc])

/-- No range starts at a literal after which something else than a sign ends the units. -/
theorem rangeAt?_of_blocked (ha : a.WellFormed) (hrest : a.Ends rest)
    (h : ∀ c, (rest.dropWhile isRangeUnit).head? = some c → isRangeSign c = false) :
    rangeAt? (a.chars ++ rest) = none := by
  unfold rangeAt?
  rw [Numeral.scan?_chars_append ha hrest]
  dsimp only
  split
  · rfl
  · rename_i sign tail hdrop
    rw [h sign (by rw [hdrop]; rfl), if_neg Bool.false_ne_true]

/-- What stops a scan that passes over some characters is one of them, or the one behind them. -/
theorem head?_dropWhile_append {p : Char → Bool} {d : Char} (hp : p d = false) {cs rest : List Char}
    {c : Char} (h : ((cs ++ d :: rest).dropWhile p).head? = some c) : c ∈ cs ∨ c = d := by
  rw [List.dropWhile_append] at h
  split at h
  · rw [List.dropWhile_cons_of_neg (by simp [hp])] at h
    cases h
    exact .inr rfl
  · rename_i hne
    obtain ⟨e, es, hcons⟩ := List.exists_cons_of_ne_nil fun he => hne (List.isEmpty_iff.2 he)
    rw [hcons] at h
    cases h
    refine .inl ((List.dropWhile_suffix p).subset ?_)
    rw [hcons]
    exact List.mem_cons_self

/-- No range starts at the base of a tolerance: after it, no sign of a range comes before the deviation
but the minus in the sign of the tolerance, and that one stands behind a plus. -/
theorem rangeAt?_base (ha : a.WellFormed) (hb : b.WellFormed) (hunsigned : b.negative = false)
    {sign : String} (hunit : Text.Lacks ['.', '±', '+', '~', '～', '-'] unit)
    (hsign : sign ∈ toleranceSigns) (hgap : Text.Lacks ['.', '~', '～', '-'] gap) :
    rangeAt? (a.chars ++ (unit ++ (sign.toList ++ (gap ++ (b.chars ++ rest))))) = none := by
  have hclear := clear_toleranceSign hsign (hunit.mono (by simp)) (gap ++ (b.chars ++ rest))
  have hsigns : ∀ c, c ∉ rangeSigns → isRangeSign c = false := fun c hc =>
    Bool.eq_false_iff.2 fun hsign => hc (isRangeSign_iff.1 hsign)
  have hunits : ∀ c ∈ unit, isRangeSign c = false := fun c hc =>
    hsigns c fun hmem => (hunit c hc).2 (List.mem_append_right ['.', '±', '+'] hmem)
  have hgaps : ∀ c ∈ gap, isRangeSign c = false := fun c hc =>
    hsigns c fun hmem => (hgap c hc).2 (List.mem_append_right ['.'] hmem)
  refine rangeAt?_of_blocked ha hclear.ends fun c hc => ?_
  simp only [toleranceSigns, List.mem_cons, List.not_mem_nil, or_false] at hsign
  rcases hsign with rfl | rfl | rfl
  · -- the sign may be taken for a unit, and then the deviation stops the scan
    obtain ⟨d, ds, hcons, hd⟩ := Numeral.exists_cons_chars hb rest
    have hdigit : d.isDigit = true := by simpa [hunsigned] using hd
    have hstop : isRangeUnit d = false := by simp [isRangeUnit, hdigit]
    have htext : unit ++ ("±".toList ++ (gap ++ (b.chars ++ rest))) =
        (unit ++ '±' :: gap) ++ d :: ds := by
      rw [hcons]
      simp
    rw [htext] at hc
    rcases head?_dropWhile_append hstop hc with hc | rfl
    · rcases List.mem_append.1 hc with hc | hc
      · exact hunits c hc
      · rcases List.mem_cons.1 hc with rfl | hc
        · decide
        · exact hgaps c hc
    · exact isRangeSign_of_isDigit hdigit
  · rcases head?_dropWhile_append (by decide) hc with hc | rfl
    · exact hunits c hc
    · decide
  · rcases head?_dropWhile_append (by decide) hc with hc | rfl
    · exact hunits c hc
    · decide

/-! ## Trimmed texts -/

theorem bothFinite?_eq (ha : a.value.isFinite = true) (hb : b.value.isFinite = true) :
    bothFinite? (a, b) = some (a.value, b.value) := by
  unfold bothFinite? Numeral.finite?
  rw [if_pos ha, if_pos hb]

/-- Characters that write a range, without blanks around them, are read as it. -/
theorem readChars_range (ha : a.WellFormed) (hb : b.WellFormed) (hfa : a.value.isFinite = true)
    (hfb : b.value.isFinite = true) {sign : Char} (hhead : Numeral.Lead head)
    (hunit : Text.Lacks ['.', '~', '～', '+', '/', '-'] unit)
    (hsign : sign ∈ rangeSigns) (hgap : Text.Lacks ['.', '+', '/', '-'] gap)
    (hrest : b.Ends rest) :
    readChars (head ++ (a.chars ++ (unit ++ sign :: (gap ++ (b.chars ++ rest))))) =
      between a.value b.value := by
  have hfound := rangeAt?_eq_some_iff.2
    ⟨unit, sign, gap, rest, rfl, ha, hb, hunit, hsign, hgap, hrest⟩
  unfold readChars readRange?
  rw [Numeral.leftmost_lead needsDigitsAfter_rangeAt?.needsLiteral hhead, Text.leftmost_here hfound,
    Option.bind_some, bothFinite?_eq hfa hfb]
  rfl

/-- Characters that write a tolerance, without blanks around them, are read as it. -/
theorem readChars_tolerance (ha : a.WellFormed) (hb : b.WellFormed) (hunsigned : b.negative = false)
    (hfa : a.value.isFinite = true) (hfb : b.value.isFinite = true) {sign : String}
    (hhead : Numeral.Lead head) (hunit : Text.Lacks ['.', '±', '+', '~', '～', '-'] unit)
    (hsign : sign ∈ toleranceSigns) (hgap : Text.Lacks ['.', '~', '～', '-'] gap)
    (hrest : Text.Lacks [] rest) :
    readChars (head ++ (a.chars ++ (unit ++ (sign.toList ++ (gap ++ (b.chars ++ rest)))))) =
      .range (a.value - b.value) (a.value + b.value) := by
  have hrange : Text.leftmost rangeAt?
      (head ++ (a.chars ++ (unit ++ (sign.toList ++ (gap ++ (b.chars ++ rest)))))) = none := by
    have hsigns : ∀ sign ∈ toleranceSigns, Text.Lacks [] sign.toList := by decide
    have hone := Numeral.leftmost_lone needsDigitsAfter_rangeAt? hb
      (hunit.no_digits.append ((hsigns sign hsign).append hgap.no_digits)) hrest
    rw [Numeral.leftmost_lead needsDigitsAfter_rangeAt?.needsLiteral hhead,
      Numeral.leftmost_literal needsDigitsAfter_rangeAt?.needsLiteral ha
        fun m hm => rangeAt?_base hm hb hunsigned hunit hsign hgap]
    simpa only [List.append_assoc] using hone
  have hfound := toleranceAt?_eq_some_iff.2 ⟨unit, sign, hsign, gap, rest, rfl, ha, hb, hunsigned,
    hunit.mono (by simp), hgap.mono (by simp), Numeral.ends_of_lacks hrest⟩
  unfold readChars readRange? readTolerance?
  rw [hrange, Numeral.leftmost_lead needsDigitsAfter_toleranceAt?.needsLiteral hhead,
    Text.leftmost_here hfound, Option.bind_some, bothFinite?_eq hfa hfb]
  rfl

end Criterion

/-! ## Texts -/

/-- A text that writes a range: two literals with a sign between them.  No digit stands before the
first literal, and no minus right before it; around the sign stands what can be neither a digit nor
the part of another notation; and what follows the second literal does not go on with it. -/
structure RangeText where
  head : String
  first : Numeral
  unit : String
  sign : Char
  gap : String
  second : Numeral
  tail : String
  first_wellFormed : first.WellFormed
  second_wellFormed : second.WellFormed
  head_lead : Numeral.Lead head.toList
  unit_lacks : Text.Lacks ['.', '~', '～', '+', '/', '-'] unit.toList
  sign_mem : sign ∈ rangeSigns
  gap_lacks : Text.Lacks ['.', '+', '/', '-'] gap.toList
  tail_clear : Numeral.Clear tail.toList

/-- A range as it is written. -/
def RangeText.text (t : RangeText) : String :=
  t.head ++ t.first.text ++ t.unit ++ String.singleton t.sign ++ t.gap ++ t.second.text ++ t.tail

/-- A text that writes a tolerance: a base, a sign, and a deviation without a minus. -/
structure ToleranceText where
  head : String
  base : Numeral
  unit : String
  sign : String
  gap : String
  deviation : Numeral
  tail : String
  base_wellFormed : base.WellFormed
  deviation_wellFormed : deviation.WellFormed
  deviation_unsigned : deviation.negative = false
  head_lead : Numeral.Lead head.toList
  unit_lacks : Text.Lacks ['.', '±', '+', '~', '～', '-'] unit.toList
  sign_mem : sign ∈ toleranceSigns
  gap_lacks : Text.Lacks ['.', '~', '～', '-'] gap.toList
  tail_lacks : Text.Lacks [] tail.toList

/-- A tolerance as it is written. -/
def ToleranceText.text (t : ToleranceText) : String :=
  t.head ++ t.base.text ++ t.unit ++ t.sign ++ t.gap ++ t.deviation.text ++ t.tail

namespace Criterion

/-- The criterion of a text that ends with a literal, but for what follows, is read from what is left
between the blanks around it. -/
theorem read_around {n : Numeral} (hn : n.WellFormed) {s : String} {head start tail : List Char}
    (hs : s.toList = head ++ (start ++ (n.chars ++ tail)))
    (hstart : ∀ c, (start ++ n.chars).head? = some c → Text.isBlank c = false) :
    ∃ front back, front <:+ head ∧ back <+: tail ∧
      read s = readChars (front ++ (start ++ (n.chars ++ back))) := by
  obtain ⟨front, back, hfront, hback, htrim⟩ :=
    Numeral.trimChars_around_literal hn hstart head tail
  refine ⟨front, back, hfront, hback, ?_⟩
  rw [read, hs, htrim]

theorem read_range (t : RangeText) (hfirst : t.first.value.isFinite = true)
    (hsecond : t.second.value.isFinite = true) :
    read t.text = between t.first.value t.second.value := by
  have htext : t.text.toList = t.head.toList ++ ((t.first.chars ++ (t.unit.toList ++ t.sign ::
      t.gap.toList)) ++ (t.second.chars ++ t.tail.toList)) := by
    simp [RangeText.text]
  obtain ⟨front, back, hfront, hback, hread⟩ := read_around t.second_wellFormed htext fun c hc =>
    Numeral.isBlank_head?_chars t.first_wellFormed (by simpa only [List.append_assoc] using hc)
  have hrange := readChars_range t.first_wellFormed t.second_wellFormed hfirst hsecond
    (t.head_lead.of_suffix hfront) t.unit_lacks t.sign_mem t.gap_lacks
    (t.tail_clear.of_prefix hback).ends
  rw [hread, ← hrange]
  simp

/-- **A text that writes a range is read as the range between its literals**, whichever is the
larger. -/
theorem read_rangeText (t : RangeText) (hfirst : t.first.value.isFinite = true)
    (hsecond : t.second.value.isFinite = true) :
    ∃ low high, read t.text = .range low high ∧ low ≤ high ∧
      (low = t.first.value ∧ high = t.second.value ∨
        low = t.second.value ∧ high = t.first.value) := by
  have hread := read_range t hfirst hsecond
  have hordered := read_ordered t.text
  unfold between at hread
  split at hread
  · rw [hread] at hordered
    exact ⟨_, _, hread, hordered, .inr ⟨rfl, rfl⟩⟩
  · rw [hread] at hordered
    exact ⟨_, _, hread, hordered, .inl ⟨rfl, rfl⟩⟩

/-- A range down to a literal with a minus, right behind the minus that is its sign. -/
def downward : RangeText where
  head := "常温- "
  first := ⟨false, ['5'], []⟩
  unit := "gf"
  sign := '-'
  gap := ""
  second := ⟨true, ['3'], ['5']⟩
  tail := "gf"
  first_wellFormed := by decide
  second_wellFormed := by decide
  head_lead := ⟨by decide, by decide⟩
  unit_lacks := by decide
  sign_mem := by decide
  gap_lacks := by decide
  tail_clear := Numeral.clear_cons (by decide) ['f']

theorem read_rangeText_downward :
    downward.text = "常温- 5gf--3.5gf" ∧ downward.first.value.isFinite = true ∧
      downward.second.value.isFinite = true ∧ read "常温- 5gf--3.5gf" = .range (-3.5) 5 := by
  have htext : downward.text = "常温- 5gf--3.5gf" := by decide
  have hvalues : downward.first.value = 5 ∧ downward.second.value = -3.5 := by decide +kernel
  have hfirst : downward.first.value.isFinite = true := by decide +kernel
  have hsecond : downward.second.value.isFinite = true := by decide +kernel
  obtain ⟨low, high, hread, hle, hends⟩ := read_rangeText downward hfirst hsecond
  rw [htext] at hread
  rw [hvalues.1, hvalues.2] at hends
  rcases hends with ⟨hlow, hhigh⟩ | ⟨hlow, hhigh⟩
  · rw [hlow, hhigh] at hle
    exact absurd hle (by decide +kernel)
  · rw [hlow, hhigh] at hread
    exact ⟨htext, hfirst, hsecond, hread⟩

/-- **A text that writes a tolerance is read as the range that far around its base**, and not as a
range between two of its literals. -/
theorem read_toleranceText (t : ToleranceText) (hbase : t.base.value.isFinite = true)
    (hdeviation : t.deviation.value.isFinite = true) :
    read t.text =
      .range (t.base.value - t.deviation.value) (t.base.value + t.deviation.value) := by
  have htext : t.text.toList = t.head.toList ++ ((t.base.chars ++ (t.unit.toList ++
      (t.sign.toList ++ t.gap.toList))) ++ (t.deviation.chars ++ t.tail.toList)) := by
    simp [ToleranceText.text]
  obtain ⟨front, back, hfront, hback, hread⟩ := read_around t.deviation_wellFormed htext fun c hc =>
    Numeral.isBlank_head?_chars t.base_wellFormed (by simpa only [List.append_assoc] using hc)
  have htolerance := readChars_tolerance t.base_wellFormed t.deviation_wellFormed
    t.deviation_unsigned hbase hdeviation (t.head_lead.of_suffix hfront) t.unit_lacks t.sign_mem
    t.gap_lacks (t.tail_lacks.subset hback.subset)
  rw [hread, ← htolerance]
  simp

/-- A tolerance whose sign ends with a minus, right before the deviation. -/
def plusMinus : ToleranceText where
  head := "厚度~ "
  base := ⟨true, ['0'], ['0', '5']⟩
  unit := "mm/"
  sign := "+-"
  gap := ""
  deviation := ⟨false, ['0'], ['2', '5']⟩
  tail := "mm~"
  base_wellFormed := by decide
  deviation_wellFormed := by decide
  deviation_unsigned := rfl
  head_lead := ⟨by decide, by decide⟩
  unit_lacks := by decide
  sign_mem := by decide
  gap_lacks := by decide
  tail_lacks := by decide

theorem read_toleranceText_plusMinus :
    plusMinus.text = "厚度~ -0.05mm/+-0.25mm~" ∧ plusMinus.base.value.isFinite = true ∧
      plusMinus.deviation.value.isFinite = true ∧
      read "厚度~ -0.05mm/+-0.25mm~" = .range (-0.05 - 0.25) (-0.05 + 0.25) := by
  have htext : plusMinus.text = "厚度~ -0.05mm/+-0.25mm~" := by decide
  have hvalues : plusMinus.base.value = -0.05 ∧ plusMinus.deviation.value = 0.25 := by decide +kernel
  have hbase : plusMinus.base.value.isFinite = true := by decide +kernel
  have hdeviation : plusMinus.deviation.value.isFinite = true := by decide +kernel
  have hread := read_toleranceText plusMinus hbase hdeviation
  rw [htext, hvalues.1, hvalues.2] at hread
  exact ⟨htext, hbase, hdeviation, hread⟩

end Criterion

end MaterialInspection
