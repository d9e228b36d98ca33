import MaterialInspection.Proofs.Report.Issued
import MaterialInspection.Proofs.Sheet.Quoted

/-!
# Searching for report numbers

The numbers of a store are searched by a text as by a pattern, so the answer holds every number that
starts with the text, and it may hold others: a percent sign and an underscore in the text stand for any
characters, and a small letter stands for the capital one.

* `Store.InSequence.ascending_found` — the answer goes up in the order of bytes.
* `Store.InSequence.startingWith_iff` — when the answer holds the numbers that start with the text and no
  others, with `startingWith_of_plain`, where it does, and `startingWith_of_foreign`, where no number
  starts with the text.
* `Floor.numbers_searched` — all of it on every floor that is reached from a store without reports, with
  `numbers_searched_amiss`, where others are found.
-/

set_option autoImplicit false

namespace MaterialInspection

open ReportNumber
open Sheet.Separated (bytes utf8 bytes_eq utf8_cons)

/-! ## The order of bytes -/

namespace ReportNumber

/-- The bytes of capital letters and digits are their codes. -/
theorem utf8_coded {cs : List Char} (h : Coded cs) : utf8 cs = cs.map fun c => c.val.toUInt8 := by
  induction cs with
  | nil => rfl
  | cons c rest ih =>
    obtain ⟨hc, hrest⟩ := List.forall_mem_cons.1 h
    rw [utf8_cons, String.utf8EncodeChar_eq_singleton (utf8Size_coded hc), ih hrest]
    rfl

/-- The byte of a capital letter or digit is its code. -/
theorem toNat_byte {c : Char} (h : c.isUpper = true ∨ c.isDigit = true) :
    c.val.toUInt8.toNat = c.toNat := by
  have hb := bounds_of_coded h
  rw [UInt32.toNat_toUInt8]
  exact Nat.mod_eq_of_lt (show c.toNat < 2 ^ 8 by omega)

theorem utf8_lt_utf8 {a b : List Char} (ha : Coded a) (hb : Coded b) (h : a < b) :
    utf8 a < utf8 b := by
  rw [utf8_coded ha, utf8_coded hb]
  induction a generalizing b with
  | nil =>
    cases b with
    | nil => exact absurd h (List.lt_irrefl _)
    | cons d ds => exact List.nil_lt_cons _ _
  | cons c cs ih =>
    cases b with
    | nil => exact absurd h (List.not_lt_nil _)
    | cons d ds =>
      obtain ⟨hc, hcs⟩ := List.forall_mem_cons.1 ha
      obtain ⟨hd, hds⟩ := List.forall_mem_cons.1 hb
      rw [List.map_cons, List.map_cons, List.cons_lt_cons_iff]
      rcases List.cons_lt_cons_iff.1 h with hlt | ⟨rfl, hlt⟩
      · left
        rw [UInt8.lt_iff_toNat_lt, toNat_byte hc, toNat_byte hd]
        exact char_lt_iff.1 hlt
      · exact .inr ⟨rfl, ih hcs hds hlt⟩

/-- Coded texts stand in the order of their bytes. -/
theorem bytes_lt_bytes {a b : String} (ha : Coded a.toList) (hb : Coded b.toList) (h : a < b) :
    bytes a < bytes b := by
  rw [bytes_eq, bytes_eq]
  exact utf8_lt_utf8 ha hb h

end ReportNumber

/-! ## What is found -/

namespace Store

variable {s : Store} {text number : String}

/-- Some texts are exactly the report numbers of a store that start with a text, in the order of their
bytes. -/
structure StartingWith (s : Store) (text : String) (found : List String) : Prop where
  mem_iff : ∀ number, number ∈ found ↔ number ∈ s.numbers ∧ text.toList <+: number.toList
  ascending : found.Pairwise fun a b => bytes a < bytes b

/-- Two lists of the same texts that both go up in the order of bytes are one. -/
theorem ascending_unique {a b : List String} (ha : a.Pairwise fun x y => bytes x < bytes y)
    (hb : b.Pairwise fun x y => bytes x < bytes y) (hmem : ∀ number, number ∈ a ↔ number ∈ b) :
    a = b := by
  have hnodup : ∀ {c : List String}, (c.Pairwise fun x y => bytes x < bytes y) → c.Nodup := by
    intro c hc
    refine hc.imp ?_
    rintro x _ hlt rfl
    exact List.lt_irrefl _ hlt
  have hperm := (List.perm_ext_iff_of_nodup (hnodup ha) (hnodup hb)).2 hmem
  exact hperm.eq_of_pairwise (fun _ _ _ _ hlt hgt => absurd hgt (List.lt_asymm hlt)) ha hb

/-- There is one such list for each text. -/
theorem StartingWith.unique {a b : List String} (ha : s.StartingWith text a)
    (hb : s.StartingWith text b) : a = b :=
  ascending_unique ha.ascending hb.ascending fun number => by rw [ha.mem_iff, hb.mem_iff]

/-- The numbers that start with the form of a pattern, in the order of texts. -/
def found (s : Store) (pattern : String) : List String :=
  ReportTable.sortTexts (s.numbers.filter (Pattern.matchesStart pattern))

theorem mem_found : number ∈ s.found text ↔
    number ∈ s.numbers ∧ Pattern.matchesStart text number = true := by
  unfold found ReportTable.sortTexts
  rw [List.mem_mergeSort, List.mem_filter]

/-- A search of a table answers with what is found, unless the pattern is too long for a table with
numbers. -/
theorem numbersLike_eq {reports : ReportTable} (hr : s.reports = some reports) (text : String) :
    s.numbersLike text =
      if s.numbers = [] ∨ Pattern.isShort text = true then .ok (s.found text)
      else .error .longPattern := by
  have hnumbers : s.numbers = reports.rows.map (·.number) := by rw [numbers, reportRows_eq hr]
  have hempty : s.numbers = [] ↔ reports.rows.isEmpty = true := by
    rw [hnumbers, List.map_eq_nil_iff, List.isEmpty_iff]
  unfold numbersLike found
  rw [hr]
  show ReportTable.numbersLike reports text = _
  unfold ReportTable.numbersLike
  by_cases hshort : s.numbers = [] ∨ Pattern.isShort text = true
  · rw [if_pos hshort, if_pos (by rw [Bool.or_eq_true, ← hempty]; exact hshort), hnumbers]
  · rw [if_neg hshort, if_neg (by rw [Bool.or_eq_true, ← hempty]; exact hshort)]

theorem greatestNumber_eq_map (s : Store) (text : String) :
    s.greatestNumber text = (s.numbersLike text).map fun numbers =>
      (numbers.filter fun number => Pattern.length number == ReportNumber.length).getLast? := by
  unfold greatestNumber numbersLike
  cases table s.reports .reports <;> rfl

namespace InSequence

variable (h : s.InSequence)
include h

theorem coded_number (hn : number ∈ s.numbers) : Coded number.toList := by
  obtain ⟨row, hrow, rfl⟩ := List.mem_map.1 hn
  exact h.coded row hrow

/-- Every number has ten characters, as many as a search counts. -/
theorem length_number (hn : number ∈ s.numbers) :
    number.length = 10 ∧ Pattern.length number = ReportNumber.length := by
  obtain ⟨row, hrow, rfl⟩ := List.mem_map.1 hn
  obtain ⟨date, n, _, _, hle, he⟩ := h.own row hrow
  rw [he, patternLength_withSequence row.category date hle, ← String.length_toList,
    length_withSequence hle]
  exact ⟨rfl, rfl⟩

/-- **What is found goes up in the order of bytes**, no number twice. -/
theorem ascending_found (text : String) : (s.found text).Pairwise fun a b => bytes a < bytes b := by
  have hnodup : (s.found text).Nodup :=
    (List.mergeSort_perm _ _).nodup_iff.2 (h.distinct.filter _)
  have hsorted := (pairwise_sortTexts (s.numbers.filter (Pattern.matchesStart text))).and hnodup
  refine hsorted.imp_of_mem fun {a b} ha hb hab => ?_
  have hlt : a < b := by
    by_contra hnot
    exact hab.2 (String.le_antisymm hab.1 (String.not_lt.1 hnot))
  exact bytes_lt_bytes (h.coded_number (mem_found.1 ha).1) (h.coded_number (mem_found.1 hb).1) hlt

/-- A number that starts with a text is found by it. -/
theorem matchesStart_of_prefix (hn : number ∈ s.numbers) (hstarts : text.toList <+: number.toList) :
    Pattern.matchesStart text number = true := by
  have hcoded := h.coded_number hn
  have htext : Coded text.toList := fun c hc => hcoded c (hstarts.subset hc)
  rw [matchesStart_plain htext.plain hcoded]
  exact List.isPrefixOf_iff_prefix.2 hstarts

/-- **When a search is exact**: when each number of the form of the text starts with it. -/
theorem startingWith_iff (text : String) :
    s.StartingWith text (s.found text) ↔
      ∀ number ∈ s.numbers, Pattern.matchesStart text number = true →
        text.toList <+: number.toList := by
  constructor
  · intro hexact number hn hmatch
    exact ((hexact.mem_iff number).1 (mem_found.2 ⟨hn, hmatch⟩)).2
  · intro hall
    refine ⟨fun number => ?_, h.ascending_found text⟩
    rw [mem_found]
    constructor
    · rintro ⟨hn, hmatch⟩
      exact ⟨hn, hall number hn hmatch⟩
    · rintro ⟨hn, hstarts⟩
      exact ⟨hn, h.matchesStart_of_prefix hn hstarts⟩

/-- A search by a text without wildcards, small letters and NULs is exact. -/
theorem startingWith_of_plain (hp : Plain text.toList) : s.StartingWith text (s.found text) := by
  refine (h.startingWith_iff text).2 fun number hn hmatch => ?_
  rw [matchesStart_plain hp (h.coded_number hn)] at hmatch
  exact List.isPrefixOf_iff_prefix.1 hmatch

/-- No number starts with a text that has other characters than capital letters and digits, so a search
by it is exact when it finds nothing. -/
theorem startingWith_of_foreign (hforeign : ¬Coded text.toList) :
    s.StartingWith text (s.found text) ↔ s.found text = [] := by
  have hnone : ∀ number ∈ s.numbers, ¬text.toList <+: number.toList := fun number hn hstarts =>
    hforeign fun c hc => h.coded_number hn c (hstarts.subset hc)
  rw [h.startingWith_iff, List.eq_nil_iff_forall_not_mem]
  constructor
  · intro hall number hfound
    obtain ⟨hn, hmatch⟩ := mem_found.1 hfound
    exact hnone number hn (hall number hn hmatch)
  · intro hempty number hn hmatch
    exact absurd (mem_found.2 ⟨hn, hmatch⟩) (hempty number)

end InSequence

/-- Every move keeps the table of reports. -/
theorem move_reports {after : Store} (h : s.reports.isSome = true) (hm : Move s after) :
    after.reports.isSome = true := by
  cases hm with
  | stay => exact h
  | report hi =>
    obtain ⟨_, _, _, _, _, _, rfl⟩ := insertReport_ok_iff.1 hi
    rfl
  | items catalog => exact h
  | settings rows => exact h
  | tables => rfl

end Store

namespace Floor

theorem Reaches.reports {start floor : Floor} (hreports : start.store.reports = some Numbered.empty)
    (hr : Reaches start floor) : ∃ reports, floor.store.reports = some reports :=
  Option.isSome_iff_exists.1 (hr.keeps (P := fun s => s.reports.isSome = true)
    (fun _ _ => Store.move_reports) (by rw [hreports]; rfl))

/-- **What a search for report numbers finds.**  On every floor that started from an empty table of
reports:

* a search by a text answers with numbers of the store that go up in the order of bytes, those that have
  the form of the text as a pattern, and the greatest number that it answers with is the last of them;
  all have ten characters.  Only a text that is too long is refused, once there are numbers;
* the answer holds exactly the numbers that start with the text when each number of its form does; so it
  is whenever no character of the text is a wildcard, a small letter or NUL, and for a text with any
  other character than capital letters and digits, with which no number starts, when nothing is found. -/
theorem numbers_searched {start floor : Floor} (hreports : start.store.reports = some Numbered.empty)
    (hr : Reaches start floor) (text : String) :
    ∃ found,
      (found.Pairwise fun a b => bytes a < bytes b) ∧
      (∀ number, number ∈ found ↔
        number ∈ floor.store.numbers ∧ Pattern.matchesStart text number = true) ∧
      (∀ number ∈ found, number.length = 10) ∧
      (floor.store.numbers = [] ∨ Pattern.isShort text = true →
        floor.store.numbersLike text = .ok found ∧
          floor.store.greatestNumber text = .ok found.getLast?) ∧
      (floor.store.numbers ≠ [] → Pattern.isShort text = false →
        floor.store.numbersLike text = .error .longPattern ∧
          floor.store.greatestNumber text = .error .longPattern) ∧
      (floor.store.StartingWith text found ↔
        ∀ number ∈ floor.store.numbers, Pattern.matchesStart text number = true →
          text.toList <+: number.toList) ∧
      (Plain text.toList → floor.store.StartingWith text found) ∧
      (¬Coded text.toList → (floor.store.StartingWith text found ↔ found = [])) := by
  have hempty : start.store.reportRows = [] := by
    rw [Store.reportRows_eq hreports]
    rfl
  have h : floor.store.InSequence :=
    hr.keeps (fun _ _ => Store.move_inSequence) (Store.inSequence_of_empty hempty)
  obtain ⟨reports, htable⟩ := hr.reports hreports
  have hten : ∀ number ∈ floor.store.found text, number.length = 10 ∧
      Pattern.length number = ReportNumber.length := fun number hn =>
    h.length_number (Store.mem_found.1 hn).1
  refine ⟨floor.store.found text, h.ascending_found text, fun _ => Store.mem_found,
    fun number hn => (hten number hn).1, ?_, ?_, h.startingWith_iff text, h.startingWith_of_plain,
    h.startingWith_of_foreign⟩
  · intro hshort
    have hlist := Store.numbersLike_eq htable text
    rw [if_pos hshort] at hlist
    refine ⟨hlist, ?_⟩
    have hall : ((floor.store.found text).filter fun number =>
        Pattern.length number == ReportNumber.length) = floor.store.found text :=
      List.filter_eq_self.2 fun number hn => beq_iff_eq.2 (hten number hn).2
    rw [Store.greatestNumber_eq_map, hlist, Except.map, hall]
  · intro hne hlong
    have hlist := Store.numbersLike_eq htable text
    rw [if_neg (by rw [hlong]; simpa using hne)] at hlist
    refine ⟨hlist, ?_⟩
    rw [Store.greatestNumber_eq_map, hlist, Except.map]

/-- What is found where two calls took turns, by a text with the form of the numbers for boxes alone. -/
theorem numbersLike_takingTurns {text : String} (hshort : Pattern.isShort text = true)
    (hform : ["TJF2501001", "TJF2501002", "TJY2501001"].filter (Pattern.matchesStart text) =
      ["TJF2501001", "TJF2501002"]) :
    takingTurns.store.numbersLike text = .ok ["TJF2501001", "TJF2501002"] := by
  obtain ⟨reports, htable⟩ := reaches_takingTurns.reports rfl
  have hsorted : ReportTable.sortTexts ["TJF2501001", "TJF2501002"] = ["TJF2501001", "TJF2501002"] :=
    List.mergeSort_of_pairwise (by decide)
  rw [Store.numbersLike_eq htable, if_pos (.inr hshort)]
  unfold Store.found
  rw [numbers_takingTurns, hform, hsorted]

/-- Among the numbers of two stems, a search by the first letters of one finds its numbers alone. -/
theorem numbers_searched_boxes :
    ∃ start floor : Floor, start.store.reports = some Numbered.empty ∧ Reaches start floor ∧
      floor.store.numbers = ["TJF2501001", "TJF2501002", "TJY2501001"] ∧
      floor.store.numbersLike "TJF25" = .ok ["TJF2501001", "TJF2501002"] ∧
      floor.store.greatestNumber "TJF25" = .ok (some "TJF2501002") ∧
      floor.store.StartingWith "TJF25" ["TJF2501001", "TJF2501002"] := by
  obtain ⟨found, _, _, _, hanswer, _, _, hplain, _⟩ :=
    numbers_searched rfl reaches_takingTurns "TJF25"
  obtain ⟨hlist, hgreatest⟩ := hanswer (.inr (by decide))
  have hfound := @numbersLike_takingTurns "TJF25" (by decide) (by decide)
  obtain rfl : found = ["TJF2501001", "TJF2501002"] := Except.ok.inj (hlist.symm.trans hfound)
  exact ⟨_, takingTurns, rfl, reaches_takingTurns, numbers_takingTurns, hlist, hgreatest,
    hplain (by simp [Plain])⟩

/-- **A search can find what does not start with its text**: an underscore stands for any character and
a small letter for the capital one. -/
theorem numbers_searched_amiss :
    ∃ start floor : Floor, start.store.reports = some Numbered.empty ∧ Reaches start floor ∧
      ∀ text ∈ ["T_F", "tjf"],
        floor.store.numbersLike text = .ok ["TJF2501001", "TJF2501002"] ∧
        floor.store.greatestNumber text = .ok (some "TJF2501002") ∧
        floor.store.StartingWith text [] := by
  refine ⟨_, takingTurns, rfl, reaches_takingTurns, fun text htext => ?_⟩
  have hform : Pattern.isShort text = true ∧
      ["TJF2501001", "TJF2501002", "TJY2501001"].filter (Pattern.matchesStart text) =
        ["TJF2501001", "TJF2501002"] ∧
      ∀ number ∈ ["TJF2501001", "TJF2501002", "TJY2501001"], ¬text.toList <+: number.toList := by
    revert text
    decide
  obtain ⟨hshort, hmatch, hforeign⟩ := hform
  have hlist := numbersLike_takingTurns hshort hmatch
  refine ⟨hlist, ?_, ⟨fun number => ?_, List.Pairwise.nil⟩⟩
  · rw [Store.greatestNumber_eq_map, hlist]
    rfl
  · rw [numbers_takingTurns]
    exact ⟨fun hn => absurd hn List.not_mem_nil, fun ⟨hn, hstarts⟩ =>
      absurd hstarts (hforeign number hn)⟩

end Floor

end MaterialInspection
