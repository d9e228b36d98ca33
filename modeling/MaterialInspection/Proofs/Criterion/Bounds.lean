import MaterialInspection.Proofs.Criterion.Ranges

/-!
# Texts that write bounds

A bound is a comparison sign, blanks, and a literal.  With a single literal in a text there is no range
and no tolerance, whatever signs of theirs it has.  Comparison signs without a literal do no harm
either: from a sign to the literal there are only blanks, so a sign before another one has no
literal, and neither has one after the literal.

Minima and maxima are looked for alike, and `boundAt?` is what they have in common.

* `boundAt?_eq_some_iff` — what is found at a place of a text.
* `BoundText` — the texts of the notation.
* `read_minimum`, `read_maximum` — what they are read as.
-/

set_option autoImplicit false

namespace MaterialInspection

/-- The signs of a minimum. -/
def minimumSigns : List String := ["≥", ">=", ">"]

/-- The signs of a maximum. -/
def maximumSigns : List String := ["≤", "<=", "<"]

namespace Criterion

/-! ## One recogniser for both bounds -/

/-- What follows an equals sign, or a text that starts with none. -/
def afterEquals : List Char → List Char
  | '=' :: rest => rest
  | rest => rest

/-- The numeral of a bound that starts here with a whole sign, or with a half one that an equals sign
may complete. -/
def boundAt? (whole half : Char) : List Char → Option Numeral
  | [] => none
  | c :: rest =>
    if c = whole then boundNumeral? rest
    else if c = half then boundNumeral? (afterEquals rest)
    else none

theorem afterEquals_of_ne {rest : List Char} (h : rest.head? ≠ some '=') : afterEquals rest = rest := by
  unfold afterEquals
  split
  · exact absurd rfl h
  · rfl

theorem boundAt?_of_other {whole half c : Char} (hwhole : c ≠ whole) (hhalf : c ≠ half)
    (rest : List Char) : boundAt? whole half (c :: rest) = none := by
  rw [boundAt?, if_neg hwhole, if_neg hhalf]

/-- A recogniser with the three cases of a bound is `boundAt?`. -/
theorem eq_boundAt? {whole half : Char} {recognise : List Char → Option Numeral}
    (hwhole : ∀ rest, recognise (whole :: rest) = boundNumeral? rest)
    (hhalf : ∀ rest, recognise (half :: rest) = boundNumeral? (afterEquals rest))
    (hother : ∀ cs, cs.head? ≠ some whole → cs.head? ≠ some half → recognise cs = none) :
    recognise = boundAt? whole half := by
  funext cs
  match cs with
  | [] => exact hother [] nofun nofun
  | c :: rest =>
    rw [boundAt?]
    split
    · rename_i hc
      rw [hc, hwhole]
    · rename_i hc
      split
      · rename_i hd
        rw [hd, hhalf]
      · rename_i hd
        exact hother _ (fun h => hc (Option.some.inj h)) fun h => hd (Option.some.inj h)

theorem minimumAt?_eq : minimumAt? = boundAt? '≥' '>' := by
  refine eq_boundAt? (fun _ => rfl) (fun rest => ?_) fun cs hwhole hhalf => ?_
  · unfold afterEquals
    split
    · rfl
    · rw [minimumAt?]
      assumption
  · unfold minimumAt?
    split
    · exact absurd rfl hwhole
    · exact absurd rfl hhalf
    · exact absurd rfl hhalf
    · rfl

theorem maximumAt?_eq : maximumAt? = boundAt? '≤' '<' := by
  refine eq_boundAt? (fun _ => rfl) (fun rest => ?_) fun cs hwhole hhalf => ?_
  · unfold afterEquals
    split
    · rfl
    · rw [maximumAt?]
      assumption
  · unfold maximumAt?
    split
    · exact absurd rfl hwhole
    · exact absurd rfl hhalf
    · exact absurd rfl hhalf
    · rfl

/-! ## Where no bound starts -/

variable {whole half : Char} {n : Numeral} {head gap tail : List Char}

/-- The characters that comparison signs start with. -/
def comparisons : List Char := ['≥', '>', '≤', '<']

theorem comparison_spec {c : Char} (h : c ∈ comparisons) :
    c.isDigit = false ∧ c ≠ '-' ∧ c ≠ '.' ∧ Text.isBlank c = false := by
  simp only [comparisons, List.mem_cons, List.not_mem_nil, or_false] at h
  rcases h with rfl | rfl | rfl | rfl
  · decide
  · decide
  · decide
  · decide

theorem exists_cons_sign {sign : String} (h : sign ∈ minimumSigns ++ maximumSigns) :
    ∃ c cs, sign.toList = c :: cs ∧ c ∈ comparisons := by
  have hfirst : ∀ sign ∈ minimumSigns ++ maximumSigns,
      sign.toList.head?.any (· ∈ comparisons) = true := by decide
  obtain ⟨c, hhead, hc⟩ := (Option.any_eq_true _ _).1 (hfirst sign h)
  obtain ⟨cs, hcons⟩ := List.head?_eq_some_iff.1 hhead
  exact ⟨c, cs, hcons, of_decide_eq_true hc⟩

/-- From one comparison sign to another there is no literal. -/
theorem boundNumeral?_before (hhead : Text.Lacks [] head) {c : Char} (hc : c ∈ comparisons)
    (rest : List Char) : boundNumeral? (head ++ c :: rest) = none := by
  obtain ⟨hdigit, hminus, _, hblank⟩ := comparison_spec hc
  have hlead : Numeral.Lead (Text.trimStart head ++ [c]) := by
    constructor
    · refine (hhead.subset (Text.trimStart_suffix head).subset).append fun d hd => ?_
      rw [List.mem_singleton.1 hd]
      exact ⟨hdigit, List.not_mem_nil⟩
    · rw [List.getLast?_concat]
      exact fun h => hminus (Option.some.inj h)
  unfold boundNumeral?
  rw [Text.trimStart_append hblank, List.append_cons, hlead.scan?_eq_none (by simp)]
  rfl

/-- No bound starts before a comparison sign. -/
theorem boundAt?_before (hhead : Text.Lacks [] head) (hne : head ≠ []) {c : Char}
    (hc : c ∈ comparisons) (rest : List Char) : boundAt? whole half (head ++ c :: rest) = none := by
  obtain ⟨d, ds, rfl⟩ := List.exists_cons_of_ne_nil hne
  have hds : Text.Lacks [] ds := hhead.subset (List.subset_cons_self d ds)
  rw [List.cons_append, boundAt?]
  split
  · exact boundNumeral?_before hds hc rest
  · split
    · cases ds with
      | nil =>
        have hequals : '=' ∉ comparisons := by decide
        rw [List.nil_append, afterEquals_of_ne]
        · exact boundNumeral?_before (Text.lacks_nil []) hc rest
        · rintro ⟨⟩
          exact hequals hc
      | cons e es =>
        by_cases he : e = '='
        · subst he
          exact boundNumeral?_before (hds.subset (List.subset_cons_self '=' es)) hc rest
        · have hhead : (e :: es ++ c :: rest).head? ≠ some '=' := fun h => he (Option.some.inj h)
          rw [afterEquals_of_ne hhead]
          exact boundNumeral?_before hds hc rest
    · rfl

theorem boundNumeral?_of_lacks (h : Text.Lacks [] tail) : boundNumeral? tail = none := by
  unfold boundNumeral?
  rw [Numeral.scan?_eq_none_of_lacks (h.subset (Text.trimStart_suffix tail).subset)]
  rfl

theorem afterEquals_suffix (cs : List Char) : afterEquals cs <:+ cs := by
  unfold afterEquals
  split
  · exact List.suffix_cons '=' _
  · exact List.suffix_rfl

/-- No bound is found in a text without digits. -/
theorem leftmost_boundAt?_of_lacks (h : Text.Lacks [] tail) :
    Text.leftmost (boundAt? whole half) tail = none := by
  rw [Text.leftmost_eq_none_iff]
  rintro before after rfl
  have hafter : Text.Lacks [] after := h.subset (List.subset_append_right before after)
  cases after with
  | nil => rfl
  | cons c cs =>
    have hcs : Text.Lacks [] cs := hafter.subset (List.subset_cons_self c cs)
    rw [boundAt?]
    split
    · exact boundNumeral?_of_lacks hcs
    · split
      · exact boundNumeral?_of_lacks (hcs.subset (afterEquals_suffix cs).subset)
      · rfl

/-- No bound starts within blanks. -/
theorem leftmost_gap (hwhole : whole ∈ comparisons) (hhalf : half ∈ comparisons)
    (hgap : ∀ c ∈ gap, Text.isBlank c = true) (rest : List Char) :
    Text.leftmost (boundAt? whole half) (gap ++ rest) = Text.leftmost (boundAt? whole half) rest := by
  have hne : ∀ c ∈ gap, ∀ d ∈ comparisons, c ≠ d := by
    rintro c hc _ hd rfl
    have hblank := hgap c hc
    rw [(comparison_spec hd).2.2.2] at hblank
    cases hblank
  exact Text.leftmost_skip
    (fun c hc => boundAt?_of_other (hne c hc whole hwhole) (hne c hc half hhalf)) rest

/-- No bound starts within a literal. -/
theorem leftmost_chars (hwhole : whole ∈ comparisons) (hhalf : half ∈ comparisons)
    (hn : n.WellFormed) (rest : List Char) :
    Text.leftmost (boundAt? whole half) (n.chars ++ rest) =
      Text.leftmost (boundAt? whole half) rest := by
  have hne : ∀ c ∈ n.chars, ∀ d ∈ comparisons, c ≠ d := by
    rintro c hc _ hd rfl
    obtain ⟨hdigit, hminus, hpoint, _⟩ := comparison_spec hd
    rcases Numeral.mem_chars hn hc with hc | hc | hc
    · rw [hc] at hdigit
      cases hdigit
    · exact hminus hc
    · exact hpoint hc
  exact Text.leftmost_skip
    (fun c hc => boundAt?_of_other (hne c hc whole hwhole) (hne c hc half hhalf)) rest

/-! ## Where a bound starts -/

theorem isDigit_of_isBlank {c : Char} (h : Text.isBlank c = true) : c.isDigit = false := by
  rw [← Bool.not_eq_true]
  intro hdigit
  rw [isBlank_of_isDigit hdigit] at h
  cases h

/-- No equals sign starts a literal after blanks. -/
theorem head?_ne_equals (hn : n.WellFormed) (hgap : ∀ c ∈ gap, Text.isBlank c = true) :
    (gap ++ (n.chars ++ tail)).head? ≠ some '=' := by
  intro h
  cases gap with
  | nil =>
    obtain ⟨c, cs, hcons, hc⟩ := Numeral.exists_cons_chars hn tail
    rw [List.nil_append, hcons] at h
    cases h
    rcases hc with ⟨_, hc⟩ | ⟨_, hc⟩
    · exact absurd hc (by decide)
    · exact absurd hc (by decide)
  | cons c cs =>
    cases h
    exact absurd (hgap '=' List.mem_cons_self) (by decide)

/-- A numeral is found where a literal that does not go on stands after blanks. -/
theorem boundNumeral?_eq_some_iff {cs : List Char} :
    boundNumeral? cs = some n ↔ ∃ gap tail, cs = gap ++ (n.chars ++ tail) ∧ n.WellFormed ∧
      (∀ c ∈ gap, Text.isBlank c = true) ∧ n.Ends tail := by
  unfold boundNumeral? Text.trimStart
  constructor
  · intro h
    obtain ⟨⟨_, tail⟩, hscan, rfl⟩ := Option.map_eq_some_iff.1 h
    obtain ⟨hn, hends, htrim⟩ := Numeral.scan?_eq_some_iff.1 hscan
    refine ⟨cs.takeWhile Text.isBlank, tail, ?_, hn, List.all_eq_true.1 List.all_takeWhile, hends⟩
    rw [← htrim, List.takeWhile_append_dropWhile]
  · rintro ⟨gap, tail, rfl, hn, hgap, hends⟩
    rw [List.dropWhile_append_of_pos hgap,
      Numeral.dropWhile_chars hn (fun _ => by decide) (fun _ => isBlank_of_isDigit),
      Numeral.scan?_chars_append hn hends]
    rfl

/-- A bound starts where its parts stand one after another: a sign, blanks, and a literal that does
not go on. -/
theorem boundAt?_eq_some_iff {cs : List Char} (hne : half ≠ whole) :
    boundAt? whole half cs = some n ↔ ∃ sign ∈ [[whole], [half, '='], [half]], ∃ gap tail,
      cs = sign ++ (gap ++ (n.chars ++ tail)) ∧ n.WellFormed ∧
      (∀ c ∈ gap, Text.isBlank c = true) ∧ n.Ends tail := by
  constructor
  · intro h
    unfold boundAt? at h
    split at h
    · cases h
    · rename_i c rest
      split at h
      · rename_i hc
        obtain ⟨gap, tail, rfl, hparts⟩ := boundNumeral?_eq_some_iff.1 h
        exact ⟨[whole], by simp, gap, tail, by rw [hc]; rfl, hparts⟩
      · split at h
        · rename_i hc
          obtain ⟨gap, tail, hrest, hparts⟩ := boundNumeral?_eq_some_iff.1 h
          unfold afterEquals at hrest
          split at hrest
          · exact ⟨[half, '='], by simp, gap, tail, by rw [hc, hrest]; rfl, hparts⟩
          · exact ⟨[half], by simp, gap, tail, by rw [hc, hrest]; rfl, hparts⟩
        · cases h
  · rintro ⟨sign, hsign, gap, tail, rfl, hn, hgap, hends⟩
    have hnumeral := boundNumeral?_eq_some_iff.2 ⟨gap, tail, rfl, hn, hgap, hends⟩
    simp only [List.mem_cons, List.not_mem_nil, or_false] at hsign
    rcases hsign with rfl | rfl | rfl
    · rw [List.singleton_append, boundAt?, if_pos rfl, hnumeral]
    · rw [List.cons_append, List.singleton_append, boundAt?, if_neg hne, if_pos rfl, afterEquals,
        hnumeral]
    · rw [List.singleton_append, boundAt?, if_neg hne, if_pos rfl,
        afterEquals_of_ne (head?_ne_equals hn hgap), hnumeral]

/-! ## Trimmed texts -/

/-- A text with a comparison sign in it is searched from there on. -/
theorem leftmost_from_sign (hhead : Text.Lacks [] head) {sign : String}
    (hsign : sign ∈ minimumSigns ++ maximumSigns) (rest : List Char) :
    Text.leftmost (boundAt? whole half) (head ++ (sign.toList ++ rest)) =
      Text.leftmost (boundAt? whole half) (sign.toList ++ rest) := by
  obtain ⟨c, cs, hcons, hc⟩ := exists_cons_sign hsign
  rw [hcons]
  exact Text.leftmost_pass fun back hback hne =>
    boundAt?_before (hhead.subset hback.subset) hne hc (cs ++ rest)

/-- The bound of a text is found at its sign. -/
theorem leftmost_boundAt? (hn : n.WellFormed) (hne : half ≠ whole) (hhead : Text.Lacks [] head)
    {sign : String} (hmem : sign ∈ minimumSigns ++ maximumSigns)
    (hsign : sign.toList ∈ [[whole], [half, '='], [half]])
    (hgap : ∀ c ∈ gap, Text.isBlank c = true) (htail : Text.Lacks [] tail) :
    Text.leftmost (boundAt? whole half) (head ++ (sign.toList ++ (gap ++ (n.chars ++ tail)))) =
      some n := by
  rw [leftmost_from_sign hhead hmem]
  exact Text.leftmost_here ((boundAt?_eq_some_iff hne).2
    ⟨_, hsign, gap, tail, rfl, hn, hgap, Numeral.ends_of_lacks htail⟩)

/-- Characters that write a bound, without blanks around them, write neither a range nor a tolerance:
there is no second literal. -/
theorem readChars_lone (hn : n.WellFormed) (hhead : Text.Lacks [] head) {sign : String}
    (hsign : sign ∈ minimumSigns ++ maximumSigns) (hgap : ∀ c ∈ gap, Text.isBlank c = true)
    (htail : Text.Lacks [] tail) :
    readRange? (head ++ (sign.toList ++ (gap ++ (n.chars ++ tail)))) = none ∧
      readTolerance? (head ++ (sign.toList ++ (gap ++ (n.chars ++ tail)))) = none := by
  have hsigns : ∀ sign ∈ minimumSigns ++ maximumSigns, Text.Lacks [] sign.toList := by decide
  have hgaps : Text.Lacks [] gap := fun c hc => ⟨isDigit_of_isBlank (hgap c hc), List.not_mem_nil⟩
  have hlead := hhead.append ((hsigns sign hsign).append hgaps)
  have htext : head ++ (sign.toList ++ (gap ++ (n.chars ++ tail))) =
      (head ++ (sign.toList ++ gap)) ++ (n.chars ++ tail) := by
    simp only [List.append_assoc]
  unfold readRange? readTolerance?
  rw [htext, Numeral.leftmost_lone needsDigitsAfter_rangeAt? hn hlead htail,
    Numeral.leftmost_lone needsDigitsAfter_toleranceAt? hn hlead htail]
  exact ⟨rfl, rfl⟩

theorem readChars_minimum (hn : n.WellFormed) (hfinite : n.value.isFinite = true)
    (hhead : Text.Lacks [] head) {sign : String} (hsign : sign ∈ minimumSigns)
    (hgap : ∀ c ∈ gap, Text.isBlank c = true) (htail : Text.Lacks [] tail) :
    readChars (head ++ (sign.toList ++ (gap ++ (n.chars ++ tail)))) = .minimum n.value := by
  have hmem : sign ∈ minimumSigns ++ maximumSigns := List.mem_append_left _ hsign
  have hsigns : ∀ sign ∈ minimumSigns, sign.toList ∈ [['≥'], ['>', '='], ['>']] := by decide
  obtain ⟨hrange, htolerance⟩ := readChars_lone hn hhead hmem hgap htail
  have hfound := leftmost_boundAt? hn (by decide) hhead hmem (hsigns sign hsign) hgap htail
  unfold readChars readMinimum?
  rw [hrange, htolerance, minimumAt?_eq, hfound, Option.bind_some, Numeral.finite?, if_pos hfinite]
  rfl

theorem readChars_maximum (hn : n.WellFormed) (hfinite : n.value.isFinite = true)
    (hhead : Text.Lacks [] head) {sign : String} (hsign : sign ∈ maximumSigns)
    (hgap : ∀ c ∈ gap, Text.isBlank c = true) (htail : Text.Lacks [] tail) :
    readChars (head ++ (sign.toList ++ (gap ++ (n.chars ++ tail)))) = .maximum n.value := by
  have hmem : sign ∈ minimumSigns ++ maximumSigns := List.mem_append_right _ hsign
  have hsigns : ∀ sign ∈ maximumSigns, sign.toList ∈ [['≤'], ['<', '='], ['<']] := by decide
  have hother : ∀ sign ∈ maximumSigns, '≥' ∉ sign.toList ∧ '>' ∉ sign.toList := by decide
  obtain ⟨hrange, htolerance⟩ := readChars_lone hn hhead hmem hgap htail
  have hnone : Text.leftmost minimumAt? (head ++ (sign.toList ++ (gap ++ (n.chars ++ tail)))) =
      none := by
    obtain ⟨hwhole, hhalf⟩ := hother sign hsign
    have hskip : ∀ c ∈ sign.toList, ∀ cs, boundAt? '≥' '>' (c :: cs) = none := fun c hc =>
      boundAt?_of_other (ne_of_mem_of_not_mem hc hwhole) (ne_of_mem_of_not_mem hc hhalf)
    rw [minimumAt?_eq, leftmost_from_sign hhead hmem, Text.leftmost_skip hskip,
      leftmost_gap (by decide) (by decide) hgap, leftmost_chars (by decide) (by decide) hn,
      leftmost_boundAt?_of_lacks htail]
  have hfound := leftmost_boundAt? hn (by decide) hhead hmem (hsigns sign hsign) hgap htail
  unfold readChars readMinimum? readMaximum?
  rw [hrange, htolerance, hnone, maximumAt?_eq, hfound, Option.bind_some, Numeral.finite?,
    if_pos hfinite]
  rfl

end Criterion

/-! ## Texts -/

/-- A text that writes a bound: a comparison sign, blanks and a literal, with no other digits around
them. -/
structure BoundText where
  head : String
  sign : String
  gap : String
  bound : Numeral
  tail : String
  bound_wellFormed : bound.WellFormed
  head_lacks : Text.Lacks [] head.toList
  sign_mem : sign ∈ minimumSigns ++ maximumSigns
  gap_blank : Text.blank gap = true
  tail_lacks : Text.Lacks [] tail.toList

/-- A bound as it is written. -/
def BoundText.text (t : BoundText) : String := t.head ++ t.sign ++ t.gap ++ t.bound.text ++ t.tail

namespace Criterion

/-- A text that writes a bound does so without the blanks around it. -/
theorem read_boundText_eq (t : BoundText) :
    ∃ front back, Text.Lacks [] front ∧ Text.Lacks [] back ∧ read t.text =
      readChars (front ++ (t.sign.toList ++ (t.gap.toList ++ (t.bound.chars ++ back)))) := by
  have htext : t.text.toList = t.head.toList ++ ((t.sign.toList ++ t.gap.toList) ++
      (t.bound.chars ++ t.tail.toList)) := by
    simp [BoundText.text]
  obtain ⟨front, back, hfront, hback, hread⟩ := read_around t.bound_wellFormed htext fun d hd => by
    obtain ⟨c, cs, hcons, hc⟩ := exists_cons_sign t.sign_mem
    rw [hcons] at hd
    cases hd
    exact (comparison_spec hc).2.2.2
  refine ⟨front, back, t.head_lacks.subset hfront.subset, t.tail_lacks.subset hback.subset, ?_⟩
  rw [hread, List.append_assoc]

theorem read_minimum (t : BoundText) (hsign : t.sign ∈ minimumSigns)
    (hfinite : t.bound.value.isFinite = true) : read t.text = .minimum t.bound.value := by
  obtain ⟨front, back, hfront, hback, hread⟩ := read_boundText_eq t
  rw [hread, readChars_minimum t.bound_wellFormed hfinite hfront hsign
    (List.all_eq_true.1 t.gap_blank) hback]

theorem read_maximum (t : BoundText) (hsign : t.sign ∈ maximumSigns)
    (hfinite : t.bound.value.isFinite = true) : read t.text = .maximum t.bound.value := by
  obtain ⟨front, back, hfront, hback, hread⟩ := read_boundText_eq t
  rw [hread, readChars_maximum t.bound_wellFormed hfinite hfront hsign
    (List.all_eq_true.1 t.gap_blank) hback]

/-- **A text that writes a bound is read as the minimum or the maximum of its sign**, whatever other
signs stand around them. -/
theorem read_boundText (t : BoundText) (hfinite : t.bound.value.isFinite = true) :
    (t.sign ∈ minimumSigns → read t.text = .minimum t.bound.value) ∧
      (t.sign ∈ maximumSigns → read t.text = .maximum t.bound.value) :=
  ⟨fun hsign => read_minimum t hsign hfinite, fun hsign => read_maximum t hsign hfinite⟩

/-- A minimum after signs of a maximum, a range and a tolerance. -/
def amidSigns : BoundText where
  head := "<±~ - "
  sign := ">="
  gap := " "
  bound := ⟨true, ['0'], ['5', '0']⟩
  tail := "mm <= -"
  bound_wellFormed := by decide
  head_lacks := by decide
  sign_mem := by decide
  gap_blank := by decide
  tail_lacks := by decide

/-- A maximum after the sign of a minimum. -/
def afterMinimumSign : BoundText :=
  { amidSigns with head := "> ", sign := "<", sign_mem := by decide, head_lacks := by decide }

theorem read_boundText_amidSigns :
    amidSigns.text = "<±~ - >= -0.50mm <= -" ∧ amidSigns.bound.value.isFinite = true ∧
      amidSigns.sign ∈ minimumSigns ∧ read "<±~ - >= -0.50mm <= -" = .minimum (-0.5) ∧
      afterMinimumSign.text = "> < -0.50mm <= -" ∧ afterMinimumSign.sign ∈ maximumSigns ∧
      read "> < -0.50mm <= -" = .maximum (-0.5) := by
  have htext : amidSigns.text = "<±~ - >= -0.50mm <= -" := by decide
  have hafter : afterMinimumSign.text = "> < -0.50mm <= -" := by decide
  have hvalue : amidSigns.bound.value = -0.5 := by decide +kernel
  have hfinite : amidSigns.bound.value.isFinite = true := by decide +kernel
  have hminimum : amidSigns.sign ∈ minimumSigns := by decide
  have hmaximum : afterMinimumSign.sign ∈ maximumSigns := by decide
  have hread := (read_boundText amidSigns hfinite).1 hminimum
  have hreadAfter := (read_boundText afterMinimumSign hfinite).2 hmaximum
  rw [htext, hvalue] at hread
  rw [hafter, show afterMinimumSign.bound.value = -0.5 from hvalue] at hreadAfter
  exact ⟨htext, hfinite, hminimum, hread, hafter, hmaximum, hreadAfter⟩

end Criterion

end MaterialInspection
