import Mathlib.Data.List.Nodup
import MaterialInspection.Proofs.Report.Issued

/-!
# Ids are used up one by one

The tables of reports and findings refuse a row once their ids have run out.  How far that is away
can be read off the tables: nothing takes rows out, so from empty tables on the last id is the number
of rows.  For reports it is out of reach, since the numbers run out long before.

* `Store.Counted` — the last ids are the numbers of rows.
* `Store.insertReport_counted`, `Store.move_counted` — entering a report keeps this, whatever its
  stem and its allocator, and so does every step of a floor.
* `Store.Counted.accepts` — a report is accepted as long as there are fewer rows than ids.
* `Store.InSequence.length_numbers_le` — a floor gives out at most 2397600 numbers.
-/

set_option autoImplicit false

namespace MaterialInspection

/-! ## Ids after a report is entered -/

namespace FindingTable

@[simp] theorem length_numbered (first reportId : Int) (fs : List Finding) :
    (FindingRow.numbered first reportId fs).length = fs.length := by
  induction fs generalizing first with
  | nil => rfl
  | cons f rest ih => rw [FindingRow.numbered, List.length_cons, List.length_cons, ih]

/-- Each finding uses up one id. -/
theorem greatestId_enter (t : FindingTable) (reportId : Int) (fs : List Finding) :
    (enter t reportId fs).greatestId FindingRow.id = t.greatestId FindingRow.id + fs.length := by
  induction fs generalizing t with
  | nil => rw [enter_nil, List.length_nil, Int.ofNat_zero, Int.add_zero]
  | cons f rest ih =>
    rw [← enter_enterOne, ih, greatestId_enterOne, List.length_cons]
    omega

end FindingTable

/-- A report uses up one id. -/
theorem ReportTable.greatestId_enter (t : ReportTable) (number : String) (r : Report) :
    (enter t number r).greatestId ReportRow.id = t.greatestId ReportRow.id + 1 :=
  Numbered.greatestId_append t ReportRow.id rfl

namespace Store

variable {s after : Store} {r : Report}

/-- The rows of the findings, in the order of their entry. -/
def findingRows (s : Store) : List FindingRow := s.findings.elim [] (·.rows)

theorem findingRows_eq {findings : FindingTable} (h : s.findings = some findings) :
    s.findingRows = findings.rows := by
  rw [findingRows, h]
  rfl

theorem findingRows_enter {findings : FindingTable} (reports : ReportTable) (number : String)
    (r : Report) (hf : s.findings = some findings) :
    (s.enter number r reports findings).findingRows =
      s.findingRows ++ FindingRow.numbered findings.nextId reports.nextId r.findings := by
  rw [findingRows_eq hf]
  rfl

/-- The last ids of the tables of reports and findings are the numbers of their rows. -/
structure Counted (s : Store) : Prop where
  reports : ∃ t, s.reports = some t ∧ t.greatestId ReportRow.id = t.rows.length
  findings : ∃ t, s.findings = some t ∧ t.greatestId FindingRow.id = t.rows.length

theorem counted_of_empty (hr : s.reports = some Numbered.empty)
    (hf : s.findings = some Numbered.empty) : Counted s :=
  ⟨⟨_, hr, rfl⟩, ⟨_, hf, rfl⟩⟩

theorem Counted.of_tables (h : Counted s) {t : Store} (hr : t.reports = s.reports)
    (hf : t.findings = s.findings) : Counted t :=
  ⟨hr ▸ h.reports, hf ▸ h.findings⟩

/-- A report uses up as many ids as it adds rows. -/
theorem Counted.enter {reports : ReportTable} {findings : FindingTable} (h : Counted s)
    (hr : s.reports = some reports) (hf : s.findings = some findings) (number : String)
    (r : Report) : Counted (s.enter number r reports findings) := by
  obtain ⟨_, hr', hreports⟩ := h.reports
  obtain ⟨_, hf', hfindings⟩ := h.findings
  rw [hr] at hr'
  cases hr'
  rw [hf] at hf'
  cases hf'
  refine ⟨⟨reports.enter number r, rfl, ?_⟩,
    ⟨FindingTable.enter findings reports.nextId r.findings, rfl, ?_⟩⟩
  · rw [ReportTable.greatestId_enter, hreports, ReportTable.enter, Numbered.append,
      List.length_append, List.length_singleton]
    omega
  · rw [FindingTable.greatestId_enter, hfindings, FindingTable.enter, List.length_append,
      FindingTable.length_numbered]
    omega

/-- Entering a report, or refusing to, keeps the count. -/
theorem insertReport_counted (h : Counted s) (stem : String) (r : Report)
    (allocate : Option String → String) : Counted (s.insertReport stem r allocate).2 := by
  rcases insertReport_cases stem r allocate s with he | ⟨number, reports, findings, ha, he⟩
  · rw [he]
    exact h
  · rw [he]
    exact h.enter ha.reports_eq ha.findings_eq number r

/-- Every step of a floor keeps the count. -/
theorem move_counted (h : Counted s) (hm : Move s after) : Counted after := by
  cases hm with
  | stay => exact h
  | @report r number _ hi =>
    have hcounted := insertReport_counted h (ReportNumber.stem r.category r.inspected) r
      (ReportNumber.next r.category r.inspected)
    rw [← issue, hi] at hcounted
    exact hcounted
  | items catalog => exact h.of_tables rfl rfl
  | settings rows => exact h.of_tables rfl rfl
  | tables =>
    obtain ⟨_, hr, _⟩ := h.reports
    obtain ⟨_, hf, _⟩ := h.findings
    apply h.of_tables
    · rw [prepare, hr]
      rfl
    · rw [prepare, hf]
      rfl

/-- While there are fewer rows than ids, the tables accept every report whose quantity is a number. -/
theorem Counted.accepts (h : Counted s) (hquantity : r.quantity.isNaN = false)
    (hreports : (s.reportRows.length : Int) < maxInt64)
    (hroom : r.findings = [] ∨ (s.findingRows.length + r.findings.length : Int) ≤ maxInt64) :
    ∃ reports findings, s.Accepts r reports findings := by
  obtain ⟨reports, hr, hrows⟩ := h.reports
  obtain ⟨findings, hf, hfinds⟩ := h.findings
  rw [reportRows_eq hr, ← hrows] at hreports
  rw [findingRows_eq hf, ← hfinds] at hroom
  exact ⟨reports, findings, hr, hf, hreports, hquantity, hroom⟩

/-! ## There are more ids than numbers -/

/-- The numbers that desks can give out: two letters, a hundred years, twelve months, 999 each. -/
def allNumbers : List String :=
  ['Y', 'F'].flatMap fun material => (List.range 100).flatMap fun year =>
    (List.range 12).flatMap fun month =>
      ReportNumber.sequence ('T' :: 'J' :: material :: (padded 2 year ++ padded 2 (month + 1))) 999

theorem length_allNumbers : allNumbers.length = 2397600 := by
  simp [allNumbers, List.length_flatMap]

/-- A store in sequence has numbers of these only. -/
theorem InSequence.mem_allNumbers (h : InSequence s) {number : String} (hn : number ∈ s.numbers) :
    number ∈ allNumbers := by
  obtain ⟨row, hrow, rfl⟩ := List.mem_map.1 hn
  obtain ⟨date, n, _, hpos, hle, hnumber⟩ := h.own row hrow
  have hmonth := ReportNumber.month_bounds date
  have hletter : ReportNumber.letter row.category ∈ ['Y', 'F'] := by
    rcases ReportNumber.letter_eq row.category with he | he
    · rw [he]
      exact List.mem_cons_self
    · rw [he]
      exact List.mem_cons_of_mem _ List.mem_cons_self
  refine List.mem_flatMap.2 ⟨_, hletter, List.mem_flatMap.2 ⟨date.yearOfCentury,
    List.mem_range.2 (ReportNumber.yearOfCentury_lt date), List.mem_flatMap.2 ⟨date.month - 1,
      List.mem_range.2 (by omega), ReportNumber.mem_sequence.2 ⟨n, hpos, hle, ?_⟩⟩⟩⟩
  rw [Nat.sub_add_cancel hmonth.1]
  exact hnumber

/-- A store in sequence has at most 2397600 reports. -/
theorem InSequence.length_numbers_le (h : InSequence s) : s.numbers.length ≤ 2397600 := by
  rw [← length_allNumbers]
  exact h.distinct.length_le_of_subset fun _ hn => h.mem_allNumbers hn

end Store

end MaterialInspection
