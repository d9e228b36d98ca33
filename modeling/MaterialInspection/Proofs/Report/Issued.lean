import MaterialInspection.Proofs.Desk.Floor
import MaterialInspection.Proofs.Report.Numbering
import MaterialInspection.Proofs.Store.Transaction

/-!
# Report numbers follow one another without a gap

The numbers of a stem start at 001 and go up by one with each report, whatever desks work on the
store and however their transactions fall between each other.  Stems do not touch one another.

* `Store.InSequence` — what holds of the numbers in a store, with `issue_inSequence` (entering a
  report keeps it) and `move_inSequence` (so does every step of a floor).
* `Store.issue_ok_iff` — in such a store a report is entered exactly when the tables take it and its
  stem has a number left, and it gets the first one that is left.
* `Floor.numbers_in_sequence` — all of it on every floor that is reached from a store without
  reports, with what becomes of a report whose stem is used up.
-/

set_option autoImplicit false

namespace MaterialInspection

open ReportNumber

/-- A draft is filed under the category of its delivery and the day of the inspection. -/
theorem Report.draft_filed {r : Report} {settings : Settings} {catalog : List Item}
    {delivery : Delivery} {inspector : String} {date : Date} {words rest : WordStream}
    (hd : Report.draft settings delivery catalog inspector date words = (r, rest)) :
    r.category = delivery.materialCategory ∧ r.inspected = date := by
  unfold Report.draft Draw.map at hd
  dsimp only at hd
  generalize Settings.inspectAll _ _ _ words = drawn at hd
  cases hd
  constructor
  · dsimp only
  · dsimp only

/-- A draft is about the quantity of its delivery. -/
theorem Report.draft_quantity {r : Report} {settings : Settings} {catalog : List Item}
    {delivery : Delivery} {inspector : String} {date : Date} {words rest : WordStream}
    (hd : Report.draft settings delivery catalog inspector date words = (r, rest)) :
    r.quantity = delivery.quantity := by
  unfold Report.draft Draw.map at hd
  dsimp only at hd
  generalize Settings.inspectAll _ _ _ words = drawn at hd
  cases hd
  dsimp only

namespace Store

/-- The rows of the reports, in the order of their entry. -/
def reportRows (s : Store) : List ReportRow := s.reports.elim [] (·.rows)

/-- The numbers of the reports, in the order of their entry. -/
def numbers (s : Store) : List String := s.reportRows.map (·.number)

@[simp] theorem length_numbers (s : Store) : s.numbers.length = s.reportRows.length :=
  List.length_map _

/-- The numbers that start as those of a category and a month do, in the order of their entry. -/
def numbersUnder (s : Store) (category : String) (date : Date) : List String :=
  s.numbers.filter fun number => (stemChars category date).isPrefixOf number.toList

/-- What holds of the numbers in a store: no two are the same, each is its report's stem with three
digits, and those of a stem are its first ones, one after another. -/
structure InSequence (s : Store) : Prop where
  distinct : s.numbers.Nodup
  own : ∀ row ∈ s.reportRows, ∃ date n, row.inspected = Date.text date ∧ 1 ≤ n ∧ n ≤ 999 ∧
    row.number = withSequence (stemChars row.category date) n
  first : ∀ category date, ∃ k ≤ 999,
    s.numbersUnder category date = sequence (stemChars category date) k

variable {s after : Store} {r : Report} {number : String}

theorem inSequence_of_empty (h : s.reportRows = []) : InSequence s := by
  refine ⟨?_, ?_, ?_⟩
  · simp [numbers, h]
  · simp [h]
  · intro category date
    exact ⟨0, by decide, by simp [numbersUnder, numbers, h, ReportNumber.sequence]⟩

theorem InSequence.of_reports (h : InSequence s) {t : Store} (ht : t.reportRows = s.reportRows) :
    InSequence t := by
  have hn : t.numbers = s.numbers := by rw [numbers, numbers, ht]
  refine ⟨hn ▸ h.distinct, ht ▸ h.own, ?_⟩
  intro category date
  unfold numbersUnder
  rw [hn]
  exact h.first category date

/-- How many numbers of a stem are taken says which. -/
theorem InSequence.numbersUnder_eq (h : InSequence s) (category : String) (date : Date) :
    (s.numbersUnder category date).length ≤ 999 ∧
      s.numbersUnder category date =
        sequence (stemChars category date) (s.numbersUnder category date).length := by
  obtain ⟨k, hk, he⟩ := h.first category date
  rw [he, length_sequence]
  exact ⟨hk, rfl⟩

theorem InSequence.coded (h : InSequence s) : ∀ row ∈ s.reportRows, Coded row.number.toList := by
  intro row hrow
  obtain ⟨date, n, _, _, _, hn⟩ := h.own row hrow
  rw [hn]
  exact coded_withSequence (coded_stemChars row.category date) n

/-- Every number is well formed. -/
theorem InSequence.wellFormed (h : InSequence s) :
    ∀ number ∈ s.numbers, ReportNumber.wellFormed number = true := by
  intro number hnumber
  obtain ⟨row, hrow, rfl⟩ := List.mem_map.1 hnumber
  obtain ⟨date, n, _, _, hle, hn⟩ := h.own row hrow
  rw [hn]
  exact wellFormed_withSequence row.category date hle

/-- Every number is the stem of its report's category and day with three digits. -/
theorem InSequence.stem_and_digits (h : InSequence s) :
    ∀ row ∈ s.reportRows, ∃ date digits, row.inspected = Date.text date ∧ digits.length = 3 ∧
      (∀ c ∈ digits, c.isDigit = true) ∧
      row.number.toList = stemChars row.category date ++ digits := by
  intro row hrow
  obtain ⟨date, n, hd, _, hle, hn⟩ := h.own row hrow
  refine ⟨date, padded 3 n, hd, length_padded 3 (by decide) (show n < 1000 by omega),
    fun _ hc => isDigit_of_mem_padded hc, ?_⟩
  rw [hn, toList_withSequence]

/-! ## The next number -/

theorem reportRows_eq {reports : ReportTable} (h : s.reports = some reports) :
    s.reportRows = reports.rows := by
  rw [reportRows, h]
  rfl

/-- The number that the next report of a stem is offered is the first one left. -/
theorem InSequence.next_eq (h : InSequence s) {reports : ReportTable} (hr : s.reports = some reports)
    (category : String) (date : Date) :
    ∃ greatest, s.greatestNumber (stem category date) = .ok greatest ∧
      next category date greatest =
        withSequence (stemChars category date) ((s.numbersUnder category date).length + 1) := by
  have hrows := reportRows_eq hr
  obtain ⟨hk, hs⟩ := h.numbersUnder_eq category date
  have hs' : (reports.rows.map (·.number)).filter
      (fun number => (stemChars category date).isPrefixOf number.toList) =
        sequence (stemChars category date) (s.numbersUnder category date).length := by
    rw [← hrows]
    exact hs
  refine ⟨_, ?_, next_of_sequence category date hk⟩
  simp only [greatestNumber, table, hr]
  exact greatestLike_of_sequence (hrows ▸ h.coded) hs' hk

/-- The first number left is not taken. -/
theorem InSequence.unused (h : InSequence s) (category : String) (date : Date) :
    ∀ row ∈ s.reportRows, row.number ≠
      withSequence (stemChars category date) ((s.numbersUnder category date).length + 1) := by
  intro row hrow he
  have hmem : row.number ∈ s.numbersUnder category date := by
    refine List.mem_filter.2 ⟨List.mem_map_of_mem hrow, ?_⟩
    rw [he, toList_withSequence]
    exact List.isPrefixOf_iff_prefix.2 (List.prefix_append _ _)
  rw [(h.numbersUnder_eq category date).2, he] at hmem
  obtain ⟨n, _, hle, hn⟩ := mem_sequence.1 hmem
  have := (withSequence_inj rfl hn).2
  omega

/-- What the tables refuse a report for, its number aside, unless none of it holds. -/
structure Accepts (s : Store) (r : Report) (reports : ReportTable) (findings : FindingTable) :
    Prop where
  reports_eq : s.reports = some reports
  findings_eq : s.findings = some findings
  id_left : reports.greatestId ReportRow.id < maxInt64
  quantity : r.quantity.isNaN = false
  room : r.findings = [] ∨ findings.greatestId FindingRow.id + r.findings.length ≤ maxInt64

/-- A report is entered exactly when the tables accept it and its stem has a number left, and it gets
the first one. -/
theorem issue_ok_iff (h : InSequence s) :
    s.issue r = (.ok number, after) ↔
      ∃ reports findings, s.Accepts r reports findings ∧
        (s.numbersUnder r.category r.inspected).length < 999 ∧
        number = withSequence (stemChars r.category r.inspected)
          ((s.numbersUnder r.category r.inspected).length + 1) ∧
        after = s.enter number r reports findings := by
  unfold issue
  rw [insertReport_ok_iff]
  constructor
  · rintro ⟨greatest, reports, findings, hg, hn, ha, he⟩
    obtain ⟨greatest', hg', hnext⟩ := h.next_eq ha.reports_eq r.category r.inspected
    rw [hg] at hg'
    cases hg'
    rw [hnext] at hn
    have hacc := ha.acceptable
    rw [hn, acceptable_withSequence, decide_eq_true_eq] at hacc
    exact ⟨reports, findings,
      ⟨ha.reports_eq, ha.findings_eq, ha.takes.id_left, ha.takes.quantity, ha.room⟩,
      by omega, hn, he⟩
  · rintro ⟨reports, findings, ha, hk, hn, he⟩
    obtain ⟨greatest, hg, hnext⟩ := h.next_eq ha.reports_eq r.category r.inspected
    refine ⟨greatest, reports, findings, hg, by rw [hnext, hn], ?_, he⟩
    refine ⟨ha.reports_eq, ha.findings_eq, ?_, ⟨ha.id_left, ha.quantity, ?_⟩, ha.room⟩
    · rw [hn, acceptable_withSequence, decide_eq_true_eq]
      omega
    · rw [hn, ← reportRows_eq ha.reports_eq]
      exact h.unused r.category r.inspected

/-- Over empty tables a report is entered under the first number of its stem. -/
theorem issue_first (hq : r.quantity.isNaN = false) (hroom : (r.findings.length : Int) ≤ maxInt64) :
    blank.prepare.issue r =
      (.ok (withSequence (stemChars r.category r.inspected) 1),
        blank.prepare.enter (withSequence (stemChars r.category r.inspected) 1) r
          Numbered.empty Numbered.empty) := by
  have hnone : blank.prepare.numbersUnder r.category r.inspected = [] := rfl
  refine (issue_ok_iff (inSequence_of_empty rfl)).2
    ⟨Numbered.empty, Numbered.empty, ⟨rfl, rfl, by decide, hq, Or.inr ?_⟩, ?_, ?_, rfl⟩
  · have hgreatest : Numbered.empty.greatestId FindingRow.id = 0 := rfl
    rw [hgreatest, Int.zero_add]
    exact hroom
  · rw [hnone]
    decide
  · rw [hnone]
    rfl

/-- Once the numbers of a stem are used up, a report under it is refused for its number and the store
stays as it is. -/
theorem issue_used_up (h : InSequence s)
    (hk : (s.numbersUnder r.category r.inspected).length = 999) :
    s.issue r = (.error (.refusedNumber
      (withSequence (stemChars r.category r.inspected) 1000) (stem r.category r.inspected)), s) := by
  have hsome : ∃ reports, s.reports = some reports := by
    cases hr : s.reports with
    | some reports => exact ⟨reports, rfl⟩
    | none =>
      have hnil : s.reportRows = [] := by simp [reportRows, hr]
      simp [numbersUnder, numbers, hnil] at hk
  obtain ⟨reports, hr⟩ := hsome
  obtain ⟨greatest, hg, hnext⟩ := h.next_eq hr r.category r.inspected
  rw [hk] at hnext
  have hlong : acceptable (stem r.category r.inspected) (next r.category r.inspected greatest) =
      false := by
    rw [hnext, acceptable_withSequence]
    rfl
  rw [issue, insertReport_refused hg hlong, hnext]

/-! ## What keeps the numbers in sequence -/

theorem numbers_enter {reports : ReportTable} (findings : FindingTable)
    (hr : s.reports = some reports) :
    (s.enter number r reports findings).numbers = s.numbers ++ [number] := by
  rw [numbers, numbers, reportRows_eq hr]
  simp [reportRows, enter, ReportTable.enter, Numbered.append, ReportRow.ofReport]

/-- One more number counts for its own stem and for no other. -/
theorem numbersUnder_concat {t : Store} {category : String} {date : Date} {n : Nat}
    (hn : t.numbers = s.numbers ++ [withSequence (stemChars category date) n]) (c : String)
    (d : Date) :
    t.numbersUnder c d = s.numbersUnder c d ++
      if stemChars c d = stemChars category date then [withSequence (stemChars category date) n]
      else [] := by
  have hp : (stemChars c d).isPrefixOf (withSequence (stemChars category date) n).toList = true ↔
      stemChars c d = stemChars category date := by
    rw [toList_withSequence, List.isPrefixOf_iff_prefix]
    constructor
    · rintro ⟨rest, he⟩
      exact (List.append_inj he (by rw [length_stemChars, length_stemChars])).1
    · intro he
      rw [he]
      exact List.prefix_append _ _
  unfold numbersUnder
  rw [hn, List.filter_append, List.filter_cons, List.filter_nil]
  by_cases h : stemChars c d = stemChars category date
  · rw [hp.2 h, if_pos h, if_pos rfl]
  · rw [Bool.eq_false_iff.2 (mt hp.1 h), if_neg h, if_neg Bool.false_ne_true]

/-- A report that is entered gets the next number of its stem, and the other stems keep theirs. -/
theorem issue_inSequence (h : InSequence s) (hi : s.issue r = (.ok number, after)) :
    InSequence after := by
  obtain ⟨reports, findings, ha, hk, hn, rfl⟩ := (issue_ok_iff h).1 hi
  have hr := ha.reports_eq
  have hnumbers := @numbers_enter s r number reports findings hr
  refine ⟨?_, ?_, ?_⟩
  · rw [hnumbers, List.nodup_append]
    refine ⟨h.distinct, by simp, ?_⟩
    intro a ha b hb
    rw [List.mem_singleton] at hb
    obtain ⟨row, hrow, rfl⟩ := List.mem_map.1 ha
    rw [hb, hn]
    exact h.unused r.category r.inspected row hrow
  · intro row hrow
    have hrows : (s.enter number r reports findings).reportRows =
        s.reportRows ++ [.ofReport reports.nextId number r] := by
      rw [reportRows_eq hr]
      rfl
    rw [hrows] at hrow
    rcases List.mem_append.1 hrow with hrow | hrow
    · exact h.own row hrow
    · rw [List.mem_singleton] at hrow
      subst hrow
      exact ⟨r.inspected, _, rfl, by omega, by omega, hn⟩
  · intro category date
    obtain ⟨hle, hs⟩ := h.numbersUnder_eq category date
    rw [hn] at hnumbers
    rw [hn, numbersUnder_concat hnumbers]
    split
    · rename_i hstem
      have hsame : s.numbersUnder r.category r.inspected = s.numbersUnder category date := by
        unfold numbersUnder
        rw [hstem]
      rw [hsame] at hk ⊢
      refine ⟨(s.numbersUnder category date).length + 1, by omega, ?_⟩
      rw [sequence_succ, ← hs, hstem]
    · exact ⟨_, hle, by rw [List.append_nil]; exact hs⟩

/-- Every step of a floor keeps the numbers in sequence. -/
theorem move_inSequence (h : InSequence s) (hm : Move s after) : InSequence after := by
  cases hm with
  | stay => exact h
  | report hi => exact issue_inSequence h hi
  | items catalog => exact h.of_reports rfl
  | settings rows => exact h.of_reports rfl
  | tables =>
    apply h.of_reports
    unfold reportRows prepare
    cases s.reports with
    | some reports => rfl
    | none => rfl

/-- A report on a delivery is refused for its number once its stem is used up, at whichever desk and
whether it comes alone or in a batch. -/
theorem save_used_up (h : InSequence s) (settings : Settings) (catalog : List Item)
    (delivery : Delivery) (inspector : String) (date : Date) (words : WordStream)
    (hb : Text.blank delivery.product = false)
    (hk : (s.numbersUnder delivery.materialCategory date).length = 999) :
    Desk.save settings catalog delivery inspector date s words =
      (.error (.store (.refusedNumber
          (withSequence (stemChars delivery.materialCategory date) 1000)
          (stem delivery.materialCategory date))),
        s, (Report.draft settings delivery catalog inspector date words).2) := by
  cases hd : Report.draft settings delivery catalog inspector date words with
  | mk report rest =>
    obtain ⟨hc, hi⟩ := Report.draft_filed hd
    rw [← hc, ← hi] at hk ⊢
    have he := issue_used_up h hk
    unfold issue at he
    unfold Desk.save
    rw [hb, if_neg Bool.false_ne_true, hi, hd]
    simp only [Desk.maxAttempts, Desk.write, ← hi, he]

/-- What a step gives out comes after all numbers so far, and none of those is changed. -/
theorem move_numbers (hm : Move s after) : ∃ issued, after.numbers = s.numbers ++ issued := by
  cases hm with
  | stay => exact ⟨[], (List.append_nil _).symm⟩
  | report hi =>
    obtain ⟨_, reports, findings, _, _, ha, rfl⟩ := insertReport_ok_iff.1 hi
    exact ⟨_, numbers_enter findings ha.reports_eq⟩
  | items catalog => exact ⟨[], (List.append_nil _).symm⟩
  | settings rows => exact ⟨[], (List.append_nil _).symm⟩
  | tables =>
    refine ⟨[], ?_⟩
    rw [List.append_nil]
    unfold numbers reportRows prepare
    cases s.reports with
    | some reports => rfl
    | none => rfl

end Store

namespace Floor

/-- **Report numbers follow one another without a gap.**  On every floor reached from a store without
reports, whatever calls, items, settings and imports there were and in whatever order their
transactions fell:

* no two reports have the same number, and each number is well formed and consists of the stem of its
  report's category and day and three digits;
* the numbers of a stem are its first ones in the order of their entry, at most 999 of them, and they
  stay in place in all that follows;
* a report is entered exactly when the tables accept it and its stem has a number left, and it gets
  the first one; no other stem has a say in it;
* a report whose stem is used up is refused for its number, which is a violation of a business rule,
  and the store stays as it is. -/
theorem numbers_in_sequence {start floor : Floor} (hempty : start.store.reportRows = [])
    (hr : Reaches start floor) :
    floor.store.numbers.Nodup ∧
    (∀ number ∈ floor.store.numbers, wellFormed number = true) ∧
    (∀ row ∈ floor.store.reportRows, ∃ date digits, row.inspected = Date.text date ∧
      digits.length = 3 ∧ (∀ c ∈ digits, c.isDigit = true) ∧
      row.number.toList = stemChars row.category date ++ digits) ∧
    (∀ category date, ∃ k ≤ 999,
      floor.store.numbersUnder category date = sequence (stemChars category date) k) ∧
    (∀ later, Reaches floor later → ∃ issued,
      later.store.numbers = floor.store.numbers ++ issued) ∧
    (∀ r number after, floor.store.issue r = (.ok number, after) ↔
      ∃ reports findings, floor.store.Accepts r reports findings ∧
        (floor.store.numbersUnder r.category r.inspected).length < 999 ∧
        number = withSequence (stemChars r.category r.inspected)
          ((floor.store.numbersUnder r.category r.inspected).length + 1) ∧
        after = floor.store.enter number r reports findings) ∧
    (∀ r, (floor.store.numbersUnder r.category r.inspected).length = 999 →
      floor.store.issue r = (.error (.refusedNumber
        (withSequence (stemChars r.category r.inspected) 1000)
        (stem r.category r.inspected)), floor.store)) ∧
    ∀ settings catalog delivery inspector date words,
      (floor.store.numbersUnder (Delivery.materialCategory delivery) date).length = 999 →
      Text.blank delivery.product = false →
      ∃ e rest, Desk.save settings catalog delivery inspector date floor.store words =
          (.error e, floor.store, rest) ∧
        e.message = "业务规则违反: " ++ StoreError.refusalText
          (withSequence (stemChars delivery.materialCategory date) 1000)
          (stem delivery.materialCategory date) := by
  have h : floor.store.InSequence :=
    hr.keeps (fun _ _ => Store.move_inSequence) (Store.inSequence_of_empty hempty)
  refine ⟨h.distinct, h.wellFormed, h.stem_and_digits, h.first, ?_, fun _ _ _ => Store.issue_ok_iff h,
    fun _ => Store.issue_used_up h, ?_⟩
  · intro later hlater
    refine hlater.keeps (P := fun s => ∃ issued, s.numbers = floor.store.numbers ++ issued) ?_
      ⟨[], (List.append_nil _).symm⟩
    rintro s t ⟨issued, hs⟩ hm
    obtain ⟨more, ht⟩ := Store.move_numbers hm
    exact ⟨issued ++ more, by rw [ht, hs, List.append_assoc]⟩
  · intro settings catalog delivery inspector date words hk hb
    exact ⟨_, _, Store.save_used_up h settings catalog delivery inspector date words hb hk, rfl⟩

/-- Two calls over empty tables, one for reports on boxes and on paper and one for a report on boxes,
after both have drawn a report before either writes. -/
def takingTurns : Floor :=
  let day : Date := ⟨2025, 1, 15, by decide⟩
  let boxes : Delivery := ⟨"甲", "纸箱", none, some "纸箱", .zero false, 3, none, none⟩
  let paper : Delivery := ⟨"甲", "铜版纸", none, none, .zero false, 3, none, none⟩
  let words : WordStream := ⟨fun _ => 0, 0⟩
  [0, 1, 0, 1, 1, 0, 0, 0].foldl turn ⟨Store.blank.prepare,
    [.start {} [boxes, paper] "乙" day words, .start {} [boxes] "丙" day words]⟩

theorem reaches_takingTurns : Reaches ⟨Store.blank.prepare, []⟩ takingTurns :=
  (Reaches.step (.step (.here _) (.start _ _ _ _ _ _)) (.start _ _ _ _ _ _)).trans
    (reaches_turns _ _)

theorem numbers_takingTurns :
    takingTurns.store.numbers = ["TJF2501001", "TJF2501002", "TJY2501001"] := by decide +kernel

/-- Reports on boxes and on paper by two calls that take turns are numbered each under its stem. -/
theorem numbers_in_sequence_first :
    ∃ start floor : Floor, start.store.reportRows = [] ∧ Reaches start floor ∧
      floor.store.numbers = ["TJF2501001", "TJF2501002", "TJY2501001"] ∧ floor.store.numbers.Nodup ∧
      (∀ number ∈ floor.store.numbers, wellFormed number = true) ∧
      ∀ category date, ∃ k ≤ 999,
        floor.store.numbersUnder category date = sequence (stemChars category date) k := by
  obtain ⟨hn, hw, _, hfirst, _⟩ := numbers_in_sequence rfl reaches_takingTurns
  exact ⟨_, takingTurns, rfl, reaches_takingTurns, numbers_takingTurns, hn, hw, hfirst⟩

end Floor

end MaterialInspection
