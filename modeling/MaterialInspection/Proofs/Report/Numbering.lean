import MaterialInspection.Proofs.Number.Digits
import MaterialInspection.Store

/-!
# The sequence of report numbers

A stem and a sequence of three digits make a number of ten characters, all of them capital letters
and digits.  For such texts the pattern search of the store is a plain comparison of prefixes, its
order is the order of the sequences, and the sequence that is read off a number is the one that was
written.

* `wellFormed_withSequence`, `acceptable_withSequence` — what the numbers up to 999 are, and that
  1000 is the first one refused.
* `matchesStart_plain` — a search by a text without wildcards and small letters, such as a stem, finds
  exactly the texts that start with it.
* `greatestLike_of_sequence`, `next_of_sequence` — when the numbers of a stem are the first `k`
  ones, the greatest is the `k`th and the next one the store is offered is the one after.
-/

set_option autoImplicit false

namespace MaterialInspection.ReportNumber

/-! ## Characters -/

/-- A text of capital letters and digits. -/
def Coded (cs : List Char) : Prop := ∀ c ∈ cs, c.isUpper = true ∨ c.isDigit = true

theorem isUpper_bounds {c : Char} (h : c.isUpper = true) : 65 ≤ c.toNat ∧ c.toNat ≤ 90 := by
  have hv : c.val ≥ 'A'.val ∧ c.val ≤ 'Z'.val := of_decide_eq_true h
  rw [ge_iff_le, UInt32.le_iff_toNat_le, UInt32.le_iff_toNat_le] at hv
  exact hv

theorem bounds_of_coded {c : Char} (h : c.isUpper = true ∨ c.isDigit = true) :
    48 ≤ c.toNat ∧ c.toNat ≤ 90 := by
  rcases h with hu | hd
  · have := isUpper_bounds hu
    omega
  · have := isDigit_bounds hd
    omega

/-- The characters of a coded text lie between the digit zero and the letter Z. -/
theorem Coded.bounds {cs : List Char} (h : Coded cs) {c : Char} (hc : c ∈ cs) :
    48 ≤ c.toNat ∧ c.toNat ≤ 90 :=
  bounds_of_coded (h c hc)

theorem Coded.append {a b : List Char} (ha : Coded a) (hb : Coded b) : Coded (a ++ b) := by
  intro c hc
  rcases List.mem_append.1 hc with hc | hc
  · exact ha c hc
  · exact hb c hc

theorem coded_padded (width n : Nat) : Coded (padded width n) :=
  fun _ hc => Or.inr (isDigit_of_mem_padded hc)

theorem toNat_toLower_of_isUpper {c : Char} (h : c.isUpper = true) :
    c.toLower.toNat = c.toNat + 32 := by
  have hb := isUpper_bounds h
  have hv : c.val ≥ 'A'.val ∧ c.val ≤ 'Z'.val := of_decide_eq_true h
  have hs : 'a'.val - 'A'.val = 32 := rfl
  unfold Char.toLower
  rw [dif_pos hv]
  show (c.val + ('a'.val - 'A'.val)).toNat = c.val.toNat + 32
  have : c.val.toNat ≤ 90 := hb.2
  rw [hs, UInt32.toNat_add, show (32 : UInt32).toNat = 32 from rfl]
  omega

theorem toNat_toLower_of_isDigit {c : Char} (h : c.isDigit = true) : c.toLower.toNat = c.toNat := by
  have hb := isDigit_bounds h
  have hv : ¬(c.val ≥ 'A'.val ∧ c.val ≤ 'Z'.val) := by
    rintro ⟨h1, _⟩
    have : 65 ≤ c.val.toNat := UInt32.le_iff_toNat_le.1 h1
    have : c.val.toNat ≤ 57 := hb.2
    omega
  unfold Char.toLower
  rw [dif_neg hv]

/-- Lowering the letters keeps capital letters and digits apart. -/
theorem toLower_inj {a b : Char} (ha : a.isUpper = true ∨ a.isDigit = true)
    (hb : b.isUpper = true ∨ b.isDigit = true) (h : a.toLower = b.toLower) : a = b := by
  have hn := congrArg Char.toNat h
  apply char_eq_of_toNat
  rcases ha with ha | ha <;> rcases hb with hb | hb
  · rw [toNat_toLower_of_isUpper ha, toNat_toLower_of_isUpper hb] at hn
    omega
  · have h1 := isUpper_bounds ha
    have h2 := isDigit_bounds hb
    rw [toNat_toLower_of_isUpper ha, toNat_toLower_of_isDigit hb] at hn
    omega
  · have h1 := isDigit_bounds ha
    have h2 := isUpper_bounds hb
    rw [toNat_toLower_of_isDigit ha, toNat_toLower_of_isUpper hb] at hn
    omega
  · rw [toNat_toLower_of_isDigit ha, toNat_toLower_of_isDigit hb] at hn
    exact hn

/-! ## Searching by a stem -/

theorem seen_eq_self {c : Char} (h : c.toNat ≤ 90) : Pattern.seen c = c := by
  have hne : ¬(c = '\uFFFE' ∨ c = '\uFFFF') := by
    rintro (rfl | rfl)
    · exact absurd h (by decide)
    · exact absurd h (by decide)
  unfold Pattern.seen
  simp only [decide_eq_true_eq, Bool.or_eq_true, hne, if_false]

/-- A pattern without wildcards, small letters and NULs. -/
def Plain (cs : List Char) : Prop := ∀ c ∈ cs, c ≠ '%' ∧ c ≠ '_' ∧ c ≠ '\x00' ∧ c.isLower = false

theorem isLower_iff {c : Char} : c.isLower = true ↔ 97 ≤ c.toNat ∧ c.toNat ≤ 122 := by
  unfold Char.isLower
  rw [Bool.and_eq_true, decide_eq_true_eq, decide_eq_true_eq, ge_iff_le, UInt32.le_iff_toNat_le,
    UInt32.le_iff_toNat_le]
  rfl

/-- Capital letters and digits make plain patterns. -/
theorem Coded.plain {cs : List Char} (h : Coded cs) : Plain cs := by
  intro c hc
  have hb := h.bounds hc
  have hlower : c.isLower = false := by
    rw [Bool.eq_false_iff, ne_eq, isLower_iff]
    omega
  refine ⟨?_, ?_, ?_, hlower⟩
  · rintro rfl
    exact absurd hb.1 (by decide)
  · rintro rfl
    exact absurd hb.2 (by decide)
  · rintro rfl
    exact absurd hb.1 (by decide)

/-- A character without a capital letter is its own small letter. -/
theorem toLower_of_not_isUpper {c : Char} (h : c.isUpper = false) : c.toLower = c := by
  have hv : ¬(c.val ≥ 'A'.val ∧ c.val ≤ 'Z'.val) := fun hv => by
    rw [show c.isUpper = true from decide_eq_true hv] at h
    cases h
  unfold Char.toLower
  rw [dif_neg hv]

/-- In a plain pattern every character stands for itself alone among capital letters and digits. -/
theorem standsFor_iff {p c : Char} (hwild : p ≠ '_') (hlower : p.isLower = false)
    (hc : c.isUpper = true ∨ c.isDigit = true) : Pattern.standsFor p c = true ↔ p = c := by
  have hbc := bounds_of_coded hc
  have hsmall : c.toLower.toNat ≤ 122 := by
    rcases hc with hu | hd
    · rw [toNat_toLower_of_isUpper hu]
      omega
    · rw [toNat_toLower_of_isDigit hd]
      omega
  unfold Pattern.standsFor
  rw [seen_eq_self hbc.2, beq_eq_false_iff_ne.2 hwild, Bool.false_or, beq_iff_eq]
  constructor
  · intro h
    by_cases hend : p = '\uFFFE' ∨ p = '\uFFFF'
    · -- the two codes that count as a replacement character are beyond the letters
      have hseen : (Pattern.seen p).toLower.toNat = 65533 := by
        rcases hend with rfl | rfl
        · decide
        · decide
      rw [h] at hseen
      omega
    · have hseen : Pattern.seen p = p := if_neg (by simpa using hend)
      rw [hseen] at h
      cases hu : p.isUpper with
      | true => exact toLower_inj (.inl hu) hc h
      | false =>
        rw [toLower_of_not_isUpper hu] at h
        rcases hc with hcu | hcd
        · have hb := isUpper_bounds hcu
          have hn := toNat_toLower_of_isUpper hcu
          rw [← h] at hn
          rw [isLower_iff.2 (by omega)] at hlower
          cases hlower
        · rw [h]
          exact char_eq_of_toNat (toNat_toLower_of_isDigit hcd)
  · rintro rfl
    rw [seen_eq_self hbc.2]

theorem counted_coded {cs : List Char} (h : ∀ c ∈ cs, c ≠ '\x00') : Pattern.counted cs = cs := by
  have ht : ∀ c ∈ cs, (c != '\x00') = true := fun c hc => by simpa using h c hc
  unfold Pattern.counted
  rw [← List.append_nil cs, List.takeWhile_append_of_pos ht, List.takeWhile_nil]

theorem Coded.ne_nul {cs : List Char} (h : Coded cs) : ∀ c ∈ cs, c ≠ '\x00' := by
  rintro c hc rfl
  exact absurd (h.bounds hc).1 (by decide)

theorem matchChars_plain {pattern cs : List Char} (hp : Plain pattern) (hc : Coded cs) :
    Pattern.matchChars (pattern ++ ['%']) cs = pattern.isPrefixOf cs := by
  induction pattern generalizing cs with
  | nil =>
    have h : Pattern.matchChars ['%'] cs = Pattern.anySuffix (Pattern.matchChars []) cs := by
      simp [Pattern.matchChars]
    rw [List.nil_append, h, Pattern.anySuffix_matchChars_nil]
    rfl
  | cons p rest ih =>
    obtain ⟨⟨hne, hwild, _, hlower⟩, hrest⟩ := List.forall_mem_cons.1 hp
    cases cs with
    | nil => simp [Pattern.matchChars, hne]
    | cons c more =>
      obtain ⟨hcc, hmore⟩ := List.forall_mem_cons.1 hc
      have hs : Pattern.standsFor p c = (p == c) := by
        rw [Bool.eq_iff_iff, standsFor_iff hwild hlower hcc, beq_iff_eq]
      simp only [List.cons_append, Pattern.matchChars, hne, if_false, hs]
      rw [ih hrest hmore]
      rfl

/-- A search by a plain text finds exactly the coded texts that start with it. -/
theorem matchesStart_plain {pattern text : String} (hp : Plain pattern.toList)
    (ht : Coded text.toList) :
    Pattern.matchesStart pattern text = pattern.toList.isPrefixOf text.toList := by
  have hc : ∀ c ∈ pattern.toList ++ ['%'], c ≠ '\x00' := by
    intro c hc
    rcases List.mem_append.1 hc with hc | hc
    · exact (hp c hc).2.2.1
    · rw [List.mem_singleton] at hc
      rw [hc]
      decide
  rw [Pattern.matchesStart_eq, counted_coded hc, counted_coded ht.ne_nul, matchChars_plain hp ht]

/-! ## Stems and sequences -/

theorem letter_eq (category : String) : letter category = 'Y' ∨ letter category = 'F' := by
  unfold letter
  split
  · exact Or.inl rfl
  · exact Or.inr rfl

theorem yearOfCentury_lt (date : Date) : date.yearOfCentury < 100 := by
  have h1 := Int.emod_lt_of_pos date.year (show (0 : Int) < 100 by decide)
  have h2 := Int.emod_nonneg date.year (show (100 : Int) ≠ 0 by decide)
  unfold Date.yearOfCentury
  omega

theorem month_bounds (date : Date) : 1 ≤ date.month ∧ date.month ≤ 12 := date.exist.2.1

theorem length_stemChars (category : String) (date : Date) : (stemChars category date).length = 7 := by
  have hm := month_bounds date
  have h1 := length_padded 2 (by decide) (yearOfCentury_lt date)
  have h2 := length_padded 2 (by decide) (show date.month < 100 by omega)
  simp only [stemChars, List.length_cons, List.length_append, h1, h2]

theorem coded_stemChars (category : String) (date : Date) : Coded (stemChars category date) := by
  have hl : (letter category).isUpper = true := by
    rcases letter_eq category with h | h <;> rw [h] <;> decide
  intro c hc
  unfold stemChars at hc
  rcases List.mem_cons.1 hc with rfl | hc
  · exact Or.inl (by decide)
  · rcases List.mem_cons.1 hc with rfl | hc
    · exact Or.inl (by decide)
    · rcases List.mem_cons.1 hc with rfl | hc
      · exact Or.inl hl
      · exact (coded_padded 2 _).append (coded_padded 2 _) c hc

@[simp] theorem toList_stem (category : String) (date : Date) :
    (stem category date).toList = stemChars category date := String.toList_ofList

@[simp] theorem toList_withSequence (stem : List Char) (n : Nat) :
    (withSequence stem n).toList = stem ++ padded 3 n := String.toList_ofList

theorem coded_withSequence {stem : List Char} (h : Coded stem) (n : Nat) :
    Coded (withSequence stem n).toList := by
  rw [toList_withSequence]
  exact h.append (coded_padded 3 n)

/-- Capital letters and digits have one byte. -/
theorem utf8Size_coded {c : Char} (h : c.isUpper = true ∨ c.isDigit = true) : c.utf8Size = 1 := by
  have hb := bounds_of_coded h
  rw [Char.utf8Size_eq_one_iff, UInt32.le_iff_toNat_le]
  have : c.val.toNat ≤ 90 := hb.2
  have : (127 : UInt32).toNat = 127 := rfl
  omega

/-- A text whose characters have one byte each has as many bytes as characters. -/
theorem utf8ByteSize_coded {s : String} (h : Coded s.toList) : s.utf8ByteSize = s.toList.length := by
  have hl : ∀ cs : List Char, Coded cs → (String.ofList cs).utf8ByteSize = cs.length := by
    intro cs hcs
    induction cs with
    | nil => rfl
    | cons c rest ih =>
      have hc := utf8Size_coded (hcs c List.mem_cons_self)
      rw [String.ofList_cons, String.utf8ByteSize_append, String.utf8ByteSize_singleton, hc,
        ih fun d hd => hcs d (by simp [hd]), List.length_cons, Nat.add_comm]
  rw [← hl s.toList h, String.ofList_toList]

theorem length_withSequence {category : String} {date : Date} {n : Nat} (h : n ≤ 999) :
    (withSequence (stemChars category date) n).toList.length = 10 := by
  rw [toList_withSequence, List.length_append, length_stemChars,
    length_padded 3 (by decide) (show n < 1000 by omega)]

/-- The numbers up to 999 are well formed. -/
theorem wellFormed_withSequence (category : String) (date : Date) {n : Nat} (h : n ≤ 999) :
    wellFormed (withSequence (stemChars category date) n) = true := by
  have hm := month_bounds date
  have h1 := length_padded 2 (by decide) (yearOfCentury_lt date)
  have h2 := length_padded 2 (by decide) (show date.month < 100 by omega)
  have h3 := length_padded 3 (by decide) (show n < 1000 by omega)
  have hall : ∀ c ∈ padded 2 date.yearOfCentury ++ padded 2 date.month ++ padded 3 n,
      c.isDigit = true := by
    intro c hc
    rcases List.mem_append.1 hc with hc | hc
    · rcases List.mem_append.1 hc with hc | hc
      · exact isDigit_of_mem_padded hc
      · exact isDigit_of_mem_padded hc
    · exact isDigit_of_mem_padded hc
  have hmonth : ((padded 2 date.yearOfCentury ++ padded 2 date.month ++ padded 3 n).drop 2).take 2 =
      padded 2 date.month := by
    rw [List.append_assoc, List.drop_left' h1, List.take_left' h2]
  have hlen : (padded 2 date.yearOfCentury ++ padded 2 date.month ++ padded 3 n).length = 7 := by
    simp only [List.length_append, h1, h2, h3]
  have hl : (letter category == 'Y' || letter category == 'F') = true := by
    rcases letter_eq category with h | h <;> rw [h] <;> decide
  unfold wellFormed
  rw [toList_withSequence]
  simp only [stemChars, List.cons_append]
  rw [hl, hlen, hmonth, ofDigitChars_padded, List.all_eq_true.2 hall]
  simp [hm]

/-- The numbers up to 999 have ten characters, and the ones after them have more. -/
theorem length_withSequence_eq_iff (category : String) (date : Date) (n : Nat) :
    (withSequence (stemChars category date) n).toList.length = 10 ↔ n ≤ 999 := by
  refine ⟨fun h => Nat.le_of_not_lt fun hn => ?_, length_withSequence⟩
  have hlong : ¬(Nat.toDigits 10 n).length ≤ 3 := by
    rw [Nat.length_toDigits_le_iff (by decide) (by decide)]
    omega
  rw [toList_withSequence, List.length_append, length_stemChars, padded, List.length_append] at h
  omega

/-- A stem takes its numbers up to 999; the next one is too long. -/
theorem acceptable_withSequence (category : String) (date : Date) (n : Nat) :
    Store.acceptable (stem category date) (withSequence (stemChars category date) n) =
      decide (n ≤ 999) := by
  have hc := coded_withSequence (coded_stemChars category date) n
  have hp : (stem category date).toList.isPrefixOf
      (withSequence (stemChars category date) n).toList = true := by
    rw [toList_stem, toList_withSequence]
    exact List.isPrefixOf_iff_prefix.2 (List.prefix_append _ _)
  unfold Store.acceptable
  rw [hp, Bool.and_true, utf8ByteSize_coded hc, Bool.eq_iff_iff, beq_iff_eq, decide_eq_true_eq]
  exact length_withSequence_eq_iff category date n

/-! ## The numbers of a stem so far -/

/-- The first numbers of a stem. -/
def sequence (stem : List Char) (k : Nat) : List String :=
  (List.range k).map fun i => withSequence stem (i + 1)

theorem sequence_succ (stem : List Char) (k : Nat) :
    sequence stem (k + 1) = sequence stem k ++ [withSequence stem (k + 1)] := by
  simp [sequence, List.range_succ]

@[simp] theorem length_sequence (stem : List Char) (k : Nat) : (sequence stem k).length = k := by
  simp [sequence]

theorem mem_sequence {stem : List Char} {k : Nat} {number : String} :
    number ∈ sequence stem k ↔ ∃ n, 1 ≤ n ∧ n ≤ k ∧ number = withSequence stem n := by
  unfold sequence
  rw [List.mem_map]
  constructor
  · rintro ⟨i, hi, rfl⟩
    rw [List.mem_range] at hi
    exact ⟨i + 1, by omega, by omega, rfl⟩
  · rintro ⟨n, h1, hk, rfl⟩
    exact ⟨n - 1, List.mem_range.2 (by omega), by rw [Nat.sub_add_cancel h1]⟩

/-- A stem and a sequence can be told from the number they make. -/
theorem withSequence_inj {a b : List Char} {m n : Nat} (hl : a.length = b.length)
    (h : withSequence a m = withSequence b n) : a = b ∧ m = n := by
  have ht := congrArg String.toList h
  rw [toList_withSequence, toList_withSequence] at ht
  obtain ⟨hab, hmn⟩ := List.append_inj ht hl
  exact ⟨hab, padded_injective hmn⟩

theorem withSequence_le {stem : List Char} {m n : Nat} (h : m ≤ n) (hn : n ≤ 999) :
    withSequence stem m ≤ withSequence stem n := by
  show ¬(withSequence stem n).toList < (withSequence stem m).toList
  rw [toList_withSequence, toList_withSequence]
  intro hgt
  rcases Nat.lt_or_eq_of_le h with hlt | rfl
  · have hp : padded 3 m < padded 3 n :=
      (padded_lt_padded 3 (by decide) (show m < 1000 by omega) (show n < 1000 by omega)).2 hlt
    exact List.lt_asymm hgt (List.append_left_lt hp)
  · exact List.lt_irrefl _ hgt

theorem pairwise_sortTexts (texts : List String) :
    (ReportTable.sortTexts texts).Pairwise fun a b => a ≤ b := by
  have trans : ∀ a b c : String, decide (a ≤ b) = true → decide (b ≤ c) = true →
      decide (a ≤ c) = true := by
    intro a b c hab hbc
    rw [decide_eq_true_eq] at *
    exact String.le_trans hab hbc
  have total : ∀ a b : String, (decide (a ≤ b) || decide (b ≤ a)) = true := by
    intro a b
    rw [Bool.or_eq_true, decide_eq_true_eq, decide_eq_true_eq]
    exact String.le_total a b
  exact (List.pairwise_mergeSort trans total texts).imp of_decide_eq_true

/-- In the order of texts the numbers of a stem stand as they were given out. -/
theorem sortTexts_sequence {stem : List Char} {k : Nat} (h : k ≤ 999) :
    ReportTable.sortTexts (sequence stem k) = sequence stem k := by
  apply List.mergeSort_of_pairwise
  unfold sequence
  rw [List.pairwise_map]
  refine List.pairwise_lt_range.imp_of_mem ?_
  intro i j _ hj hij
  rw [List.mem_range] at hj
  exact decide_eq_true (withSequence_le (by omega) (by omega))

/-- A stem is short enough to be searched for. -/
theorem isShort_stem (category : String) (date : Date) :
    Pattern.isShort (stem category date) = true := by
  have hcs : Coded (stem category date).toList := by
    rw [toList_stem]
    exact coded_stemChars category date
  unfold Pattern.isShort
  rw [utf8ByteSize_coded hcs, toList_stem, length_stemChars]
  decide

/-- A number up to 999 counts ten characters. -/
theorem patternLength_withSequence (category : String) (date : Date) {n : Nat} (h : n ≤ 999) :
    Pattern.length (withSequence (stemChars category date) n) = ReportNumber.length := by
  have hn := coded_withSequence (coded_stemChars category date) n
  unfold Pattern.length
  rw [counted_coded hn.ne_nul, length_withSequence h]
  rfl

/-- When a table's numbers of a stem are the first ones, the greatest is the last of them. -/
theorem greatestLike_of_sequence {t : ReportTable} {category : String} {date : Date} {k : Nat}
    (hc : ∀ row ∈ t.rows, Coded row.number.toList)
    (hs : (t.rows.map (·.number)).filter
        (fun number => (stemChars category date).isPrefixOf number.toList) =
      sequence (stemChars category date) k)
    (hk : k ≤ 999) :
    t.greatestLike (stem category date) = .ok (sequence (stemChars category date) k).getLast? := by
  have hfilter : (t.rows.map (·.number)).filter (Pattern.matchesStart (stem category date)) =
      sequence (stemChars category date) k := by
    rw [← hs]
    apply List.filter_congr
    intro number hn
    obtain ⟨row, hrow, rfl⟩ := List.mem_map.1 hn
    rw [matchesStart_plain (by rw [toList_stem]; exact (coded_stemChars category date).plain)
      (hc row hrow), toList_stem]
  have hten : (sequence (stemChars category date) k).filter
      (fun number => Pattern.length number == ReportNumber.length) =
        sequence (stemChars category date) k := by
    rw [List.filter_eq_self]
    intro number hn
    obtain ⟨n, _, hle, rfl⟩ := mem_sequence.1 hn
    rw [patternLength_withSequence category date (by omega)]
    rfl
  unfold ReportTable.greatestLike ReportTable.numbersLike
  rw [isShort_stem, Bool.or_true, if_pos rfl, hfilter, sortTexts_sequence hk]
  simp only [Except.map, hten]

theorem isBlank_coded {c : Char} (h : c.isUpper = true ∨ c.isDigit = true) :
    Text.isBlank c = false := by
  have hb := bounds_of_coded h
  unfold Text.isBlank
  simp
  omega

/-- The sequence after a number that was given out. -/
theorem nextSequence_withSequence (category : String) (date : Date) {n : Nat} (h : n ≤ 999) :
    nextSequence (some (withSequence (stemChars category date) n)) = n + 1 := by
  have hc := coded_withSequence (coded_stemChars category date) n
  have hl : (withSequence (stemChars category date) n).toList.length = 10 := length_withSequence h
  have htrim : Text.trimChars (withSequence (stemChars category date) n).toList =
      (withSequence (stemChars category date) n).toList := by
    apply Text.trimChars_eq_self
    · exact fun c hm => isBlank_coded (hc c (List.mem_of_mem_head? hm))
    · exact fun c hm => isBlank_coded (hc c (List.mem_of_mem_getLast? hm))
  have hend : (withSequence (stemChars category date) n).toList.drop 7 = padded 3 n := by
    rw [toList_withSequence, List.drop_left' (length_stemChars category date)]
  have hdigits : (padded 3 n).all Char.isDigit = true :=
    List.all_eq_true.2 fun _ hm => isDigit_of_mem_padded hm
  unfold nextSequence
  simp only [Option.getD_some, htrim, hl, hend, hdigits, ofDigitChars_padded]
  rfl

/-- After the first numbers of a stem comes the number after them. -/
theorem next_of_sequence (category : String) (date : Date) {k : Nat} (h : k ≤ 999) :
    next category date (sequence (stemChars category date) k).getLast? =
      withSequence (stemChars category date) (k + 1) := by
  unfold next
  cases k with
  | zero => rfl
  | succ n =>
    rw [sequence_succ, List.getLast?_concat, nextSequence_withSequence category date (by omega)]

end MaterialInspection.ReportNumber
