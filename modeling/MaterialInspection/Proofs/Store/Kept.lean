import MaterialInspection.Proofs.Calendar
import MaterialInspection.Proofs.Desk.Floor
import MaterialInspection.Proofs.Json.Texts
import MaterialInspection.Proofs.Store.Transaction

/-!
# Reports that are kept

A report is taken apart when it is written: its row, one row for each finding, dates and samples as
texts, verdicts as labels, sizes as 64-bit numbers.  `Store.findReport` puts it together again by
separate code.

* `Store.Refers` — a finding belongs to a report.  It is the rule of the tables themselves, and no
  step breaks it (`move_refers`).
* `Store.Keeps` — what a store holds of a report that was entered, with `keeps_of_insert` (a
  transaction that succeeds makes it so) and `move_keeps` (no later step undoes it).
* `findReport_of_keeps` — such a report is read back as it was, except that a quantity of negative
  zero is zero.
-/

set_option autoImplicit false

namespace MaterialInspection

/-! ## Cells -/

/-- A whole number within the bounds of its column reads back. -/
theorem NumberCell.int?_whole {low high n : Int} (hlow : low ≤ n) (hhigh : n ≤ high) :
    int? low high (.whole n) = some n := by
  simp only [int?, decide_eq_true hlow, decide_eq_true hhigh, Bool.and_self, if_true]

/-- A size that fits in 64 bits with a sign is kept as it is. -/
theorem wrapSize_of_le {n : Nat} (h : (n : Int) ≤ maxInt64) : wrapSize n = (n : Int) := by
  unfold maxInt64 at h
  unfold wrapSize wordCount
  apply Int.bmod_eq_of_le_mul_two
  · omega
  · omega

/-! ## Rows of findings -/

namespace FindingRow

theorem mem_numbered {first reportId : Int} {fs : List Finding} {row : FindingRow}
    (h : row ∈ numbered first reportId fs) : first ≤ row.id ∧ row.reportId = reportId := by
  induction fs generalizing first with
  | nil => cases h
  | cons f fs ih =>
    rcases List.mem_cons.1 h with rfl | h
    · exact ⟨Int.le_refl _, rfl⟩
    · obtain ⟨h1, h2⟩ := ih h
      exact ⟨by omega, h2⟩

/-- The rows of a report's findings stand in the order of their ids. -/
theorem pairwise_numbered (first reportId : Int) (fs : List Finding) :
    (numbered first reportId fs).Pairwise fun a b => decide (a.id ≤ b.id) = true := by
  induction fs generalizing first with
  | nil => exact .nil
  | cons f fs ih =>
    refine .cons ?_ (ih (first + 1))
    intro row hrow
    have := (mem_numbered hrow).1
    have hfirst : (ofFinding first reportId f).id = first := rfl
    rw [decide_eq_true_eq, hfirst]
    omega

/-- A finding reads back from its row. -/
theorem finding?_ofFinding (id reportId : Int) {f : Finding} (hlow : minInt64 ≤ f.itemId)
    (hhigh : f.itemId ≤ maxInt64) : (ofFinding id reportId f).finding? = .ok f := by
  unfold finding? ofFinding
  simp only [NumberCell.int?_whole hlow hhigh, readValues_render, Verdict.ofLabel_label]

theorem findings?_numbered (first reportId : Int) {fs : List Finding}
    (h : ∀ f ∈ fs, minInt64 ≤ f.itemId ∧ f.itemId ≤ maxInt64) :
    findings? (numbered first reportId fs) = .ok fs := by
  induction fs generalizing first with
  | nil => rfl
  | cons f fs ih =>
    obtain ⟨hlow, hhigh⟩ := h f List.mem_cons_self
    have hrest := ih (first + 1) fun g hg => h g (List.mem_cons_of_mem _ hg)
    unfold numbered findings?
    rw [finding?_ofFinding _ _ hlow hhigh, hrest]

end FindingRow

namespace FindingTable

/-- The rows of a report that was just entered are its findings. -/
theorem rowsOf_enter_self {t : FindingTable} {reportId : Int} (fs : List Finding)
    (h : ∀ row ∈ t.rows, row.reportId ≠ reportId) :
    (t.enter reportId fs).rowsOf reportId = FindingRow.numbered (nextId t) reportId fs := by
  have hold : t.rows.filter (fun row => row.reportId == reportId) = [] := by
    rw [List.filter_eq_nil_iff]
    intro row hrow
    simpa using h row hrow
  have hnew : (FindingRow.numbered (nextId t) reportId fs).filter
      (fun row => row.reportId == reportId) = FindingRow.numbered (nextId t) reportId fs := by
    rw [List.filter_eq_self]
    intro row hrow
    simpa using (FindingRow.mem_numbered hrow).2
  unfold rowsOf enter
  rw [List.filter_append, hold, hnew, List.nil_append]
  exact List.mergeSort_of_pairwise (FindingRow.pairwise_numbered _ _ _)

/-- The rows of the other reports stay as they are. -/
theorem rowsOf_enter_other (t : FindingTable) {reportId other : Int} (fs : List Finding)
    (h : other ≠ reportId) : (t.enter reportId fs).rowsOf other = t.rowsOf other := by
  have hnew : (FindingRow.numbered (nextId t) reportId fs).filter
      (fun row => row.reportId == other) = [] := by
    rw [List.filter_eq_nil_iff]
    intro row hrow
    rw [(FindingRow.mem_numbered hrow).2]
    simpa using Ne.symm h
  unfold rowsOf enter
  rw [List.filter_append, hnew, List.append_nil]

end FindingTable

/-! ## Findings belong to reports -/

/-- The numbers of a report fit their columns. -/
structure Report.Fits (r : Report) : Prop where
  packages : minInt32 ≤ r.packages ∧ r.packages ≤ maxInt32
  sampleSize : (r.sampleSize : Int) ≤ maxInt64
  items : ∀ f ∈ r.findings, minInt64 ≤ f.itemId ∧ f.itemId ≤ maxInt64

namespace Store

variable {s after : Store} {r : Report} {number stem : String}
  {allocate : Option String → String}

/-- Every finding belongs to a report, as the tables demand. -/
def Refers (s : Store) : Prop :=
  ∀ findings ∈ s.findings, ∀ row ∈ findings.rows, ∃ reports ∈ s.reports,
    ∃ report ∈ reports.rows, report.id = row.reportId

theorem blank_refers : Refers blank := by
  intro findings hf
  cases hf

theorem enter_refers {reports : ReportTable} {findings : FindingTable} (h : Refers s)
    (hr : s.reports = some reports) (hf : s.findings = some findings) :
    Refers (s.enter number r reports findings) := by
  rintro _ ⟨⟩ row hrow
  refine ⟨_, rfl, ?_⟩
  rcases List.mem_append.1 hrow with hrow | hrow
  · obtain ⟨_, hsome, report, hmem, hid⟩ := h findings hf row hrow
    rw [hr] at hsome
    cases hsome
    exact ⟨report, List.mem_append_left _ hmem, hid⟩
  · exact ⟨_, List.mem_append_right _ List.mem_cons_self, (FindingRow.mem_numbered hrow).2.symm⟩

/-- Every step of a floor leaves each finding with its report. -/
theorem move_refers (h : Refers s) (hm : Move s after) : Refers after := by
  cases hm with
  | stay => exact h
  | report hi =>
    obtain ⟨_, reports, findings, _, _, ha, rfl⟩ := insertReport_ok_iff.1 hi
    exact enter_refers h ha.reports_eq ha.findings_eq
  | items catalog => exact h
  | settings rows => exact h
  | tables =>
    rintro _ ⟨⟩ row hrow
    cases hf : s.findings with
    | none =>
      rw [hf] at hrow
      cases hrow
    | some findings =>
      rw [hf] at hrow
      obtain ⟨reports, hr, hmem⟩ := h findings hf row hrow
      refine ⟨reports, ?_, hmem⟩
      unfold prepare
      rw [Option.mem_def.1 hr]
      rfl

/-! ## Kept reports -/

/-- What a store holds of a report that was entered under a number. -/
def Keeps (s : Store) (number : String) (r : Report) : Prop :=
  ∃ reports findings id first, s.reports = some reports ∧ s.findings = some findings ∧
    reports.find? number = some (.ofReport id number r) ∧
    findings.rowsOf id = FindingRow.numbered first id r.findings

/-- The row of a report that was just entered is found under its number. -/
theorem find?_enter_self {t : ReportTable} (h : ∀ row ∈ t.rows, row.number ≠ number) :
    (t.enter number r).find? number = some (.ofReport t.nextId number r) := by
  have hnone : t.rows.find? (fun row => row.number == number) = none := by
    rw [List.find?_eq_none]
    intro row hrow
    simpa using h row hrow
  unfold ReportTable.find? ReportTable.enter Numbered.append
  rw [List.find?_append, hnone, Option.none_or]
  simp [ReportRow.ofReport]

/-- What is found under a number is found there after one more report was entered. -/
theorem find?_enter_other {t : ReportTable} {other : String} {row : ReportRow}
    (h : t.find? other = some row) : (t.enter number r).find? other = some row := by
  unfold ReportTable.find? at h ⊢
  unfold ReportTable.enter Numbered.append
  rw [List.find?_append, h, Option.some_or]

/-- A report that was entered is kept. -/
theorem keeps_of_insert (hrefers : Refers s)
    (h : s.insertReport stem r allocate = (.ok number, after)) : Keeps after number r := by
  obtain ⟨_, reports, findings, _, _, ha, rfl⟩ := insertReport_ok_iff.1 h
  refine ⟨_, _, reports.nextId, findings.nextId, rfl, rfl, find?_enter_self ha.takes.unused, ?_⟩
  apply FindingTable.rowsOf_enter_self
  intro row hrow he
  obtain ⟨_, hsome, report, hmem, hid⟩ := hrefers findings ha.findings_eq row hrow
  rw [ha.reports_eq] at hsome
  cases hsome
  have := Numbered.lt_nextId reports ReportRow.id hmem
  rw [hid, he] at this
  exact Int.lt_irrefl _ this

/-- **A report that is kept stays kept**, whatever step comes next. -/
theorem move_keeps (h : Keeps s number r) (hm : Move s after) : Keeps after number r := by
  obtain ⟨reports, findings, id, first, hr, hf, hfind, hrows⟩ := h
  cases hm with
  | stay => exact ⟨reports, findings, id, first, hr, hf, hfind, hrows⟩
  | items catalog => exact ⟨reports, findings, id, first, hr, hf, hfind, hrows⟩
  | settings rows => exact ⟨reports, findings, id, first, hr, hf, hfind, hrows⟩
  | tables =>
    refine ⟨reports, findings, id, first, ?_, ?_, hfind, hrows⟩
    · unfold prepare
      rw [hr]
      rfl
    · unfold prepare
      rw [hf]
      rfl
  | @report r' number' after' hi =>
    obtain ⟨_, reports', findings', _, _, ha, rfl⟩ := insertReport_ok_iff.1 hi
    have hreports := ha.reports_eq
    have hfindings := ha.findings_eq
    rw [hr] at hreports
    rw [hf] at hfindings
    cases hreports
    cases hfindings
    refine ⟨_, _, id, first, rfl, rfl, find?_enter_other hfind, ?_⟩
    -- the new report has an id of its own, so its findings are not taken for those of this one
    have hmem : ReportRow.ofReport id number r ∈ reports.rows := List.mem_of_find?_eq_some hfind
    have hne : id ≠ reports.nextId := Int.ne_of_lt (Numbered.lt_nextId reports ReportRow.id hmem)
    rw [FindingTable.rowsOf_enter_other _ _ hne, hrows]

/-! ## Reading back -/

/-- The numbers of a row are those of the report. -/
theorem numbers?_ofReport (id : Int) (number : String) (h : r.Fits) :
    (ReportRow.ofReport id number r).numbers? =
      .ok (NumberCell.unsignedZero r.quantity, r.packages, (r.sampleSize : Int)) := by
  obtain ⟨⟨hlow, hhigh⟩, hsize, _⟩ := h
  have hsign : minInt64 ≤ (r.sampleSize : Int) := by
    unfold minInt64
    omega
  have hq : (ReportRow.ofReport id number r).quantity =
      .real (NumberCell.unsignedZero r.quantity) := rfl
  have hp : (ReportRow.ofReport id number r).packages = .whole r.packages := rfl
  have hs : (ReportRow.ofReport id number r).sampleSize = .whole (wrapSize r.sampleSize) := rfl
  unfold ReportRow.numbers?
  rw [hq, hp, hs, wrapSize_of_le hsize, NumberCell.int?_whole hlow hhigh,
    NumberCell.int?_whole hsign hsize]
  generalize NumberCell.unsignedZero r.quantity = quantity
  rfl

/-- **A kept report is read back as it was**, but for the sign of a zero quantity. -/
theorem findReport_of_keeps (h : Keeps s number r) (hfits : r.Fits) :
    s.findReport number =
      .ok (some { r with number, quantity := NumberCell.unsignedZero r.quantity }) := by
  obtain ⟨reports, findings, id, first, hr, hf, hfind, hrows⟩ := h
  have hreceived : (r.received.map Date.text).bind (Date.read? .strict) = r.received := by
    cases r.received with
    | none => rfl
    | some day => exact Date.read?_text day
  have hreport : (ReportRow.ofReport id number r).report?
      (NumberCell.unsignedZero r.quantity, r.packages, (r.sampleSize : Int)) r.findings =
        .ok { r with number, quantity := NumberCell.unsignedZero r.quantity } := by
    unfold ReportRow.report? ReportRow.ofReport
    simp only [Date.read?_text, hreceived, Verdict.ofLabel_label, Int.toNat_natCast]
  have hid : (ReportRow.ofReport id number r).id = id := rfl
  unfold findReport
  simp only [table, hr, hf, hfind, numbers?_ofReport id number hfits, hid, hrows,
    FindingRow.findings?_numbered first id hfits.items, hreport]
  rfl

end Store

end MaterialInspection
