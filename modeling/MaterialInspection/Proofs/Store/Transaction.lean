import MaterialInspection.Store

/-!
# Writing a report is all or nothing

`Store.writeReport` runs the statements that enter a report: the number check, the main row, and one
row for each finding.  Any of them can be refused, the last of a long list of findings included, and
by then the rows before it are written.  `Store.insertReport` wraps them in a transaction.

* `writeReport_ok_iff` — the statements all succeed exactly when the report is admitted
  (`Store.Admits`), and then the store is the one with the report entered (`Store.enter`).
* `writeReport_refused_late` — when the ids run out at a finding, the report and the findings before
  it have already been written.
* `insertReport_all_or_nothing` — a refused transaction leaves the store exactly as it was; one that
  succeeds has added one row for the report and one for each finding, and changed nothing else.
-/

set_option autoImplicit false

namespace MaterialInspection

/-! ## Entering the findings -/

/-- The rows of a report's findings, under ids that follow one another. -/
def FindingRow.numbered (first reportId : Int) : List Finding → List FindingRow
  | [] => []
  | f :: fs => .ofFinding first reportId f :: numbered (first + 1) reportId fs

namespace FindingTable

/-- The id that the next finding gets. -/
abbrev nextId (t : FindingTable) : Int := Numbered.nextId t FindingRow.id

/-- The table with one more finding of a report. -/
def enterOne (t : FindingTable) (reportId : Int) (f : Finding) : FindingTable :=
  t.append (nextId t) (.ofFinding (nextId t) reportId f)

/-- The table with all findings of a report. -/
def enter (t : FindingTable) (reportId : Int) (fs : List Finding) : FindingTable where
  rows := t.rows ++ FindingRow.numbered (nextId t) reportId fs
  lastId := if fs.isEmpty then t.lastId else t.greatestId FindingRow.id + fs.length

theorem enter_nil (t : FindingTable) (reportId : Int) : enter t reportId [] = t := by
  simp [enter, FindingRow.numbered]

theorem greatestId_enterOne (t : FindingTable) (reportId : Int) (f : Finding) :
    (enterOne t reportId f).greatestId FindingRow.id = t.greatestId FindingRow.id + 1 :=
  Numbered.greatestId_append t FindingRow.id rfl

theorem enter_enterOne (t : FindingTable) (reportId : Int) (f : Finding) (fs : List Finding) :
    enter (enterOne t reportId f) reportId fs = enter t reportId (f :: fs) := by
  have hg := greatestId_enterOne t reportId f
  have hn : nextId (enterOne t reportId f) = nextId t + 1 := by
    rw [nextId, Numbered.nextId, hg]
    rfl
  unfold enter
  rw [hg, hn]
  congr 1
  · simp [enterOne, Numbered.append, FindingRow.numbered]
  · cases fs with
    | nil => simp [enterOne, Numbered.append, Numbered.nextId]
    | cons g gs =>
      simp only [List.isEmpty_cons, Bool.false_eq_true, if_false, List.length_cons]
      omega

theorem insert_of_room {t : FindingTable} (h : t.greatestId FindingRow.id < maxInt64)
    (reportId : Int) (f : Finding) : t.insert reportId f = .ok (enterOne t reportId f) := by
  have hf := Numbered.freshId?_eq_some_iff.2 ⟨h, rfl⟩
  simp only [insert, enterOne]
  rw [hf]

/-- With room for their ids, all findings are entered. -/
theorem insertAll_of_room {t : FindingTable} {fs : List Finding} (reportId : Int)
    (h : fs = [] ∨ t.greatestId FindingRow.id + fs.length ≤ maxInt64) :
    t.insertAll reportId fs = (.ok (), enter t reportId fs) := by
  induction fs generalizing t with
  | nil => rw [enter_nil]; rfl
  | cons f rest ih =>
    have hroom : t.greatestId FindingRow.id + (rest.length + 1) ≤ maxInt64 := by simpa using h
    have hg := greatestId_enterOne t reportId f
    simp only [insertAll, insert_of_room (show t.greatestId FindingRow.id < maxInt64 by omega)]
    rw [ih (Or.inr (by rw [hg]; omega)), enter_enterOne]

/-- Without it, the findings up to the last id are entered and the next one is refused. -/
theorem insertAll_of_full {t : FindingTable} {fs : List Finding} (reportId : Int) (hne : fs ≠ [])
    (h : maxInt64 < t.greatestId FindingRow.id + fs.length) :
    ∃ n < fs.length, t.insertAll reportId fs =
      (.error (.idsUsedUp .findings), enter t reportId (fs.take n)) := by
  induction fs generalizing t with
  | nil => exact absurd rfl hne
  | cons f rest ih =>
    rw [List.length_cons] at h ⊢
    by_cases hg : t.greatestId FindingRow.id < maxInt64
    · have hone := greatestId_enterOne t reportId f
      have hrest : rest ≠ [] := by
        rintro rfl
        simp at h
        omega
      obtain ⟨n, hn, he⟩ := ih (t := enterOne t reportId f) hrest (by rw [hone]; omega)
      refine ⟨n + 1, by omega, ?_⟩
      simp only [insertAll, insert_of_room hg, List.take_succ_cons]
      rw [he, enter_enterOne]
    · have hnone := Numbered.freshId?_eq_none_iff.2 (Int.not_lt.1 hg)
      refine ⟨0, by omega, ?_⟩
      simp only [insertAll, insert, List.take_zero, enter_nil]
      rw [hnone]

end FindingTable

/-! ## Entering the report -/

namespace ReportTable

/-- The id that the next report gets. -/
abbrev nextId (t : ReportTable) : Int := Numbered.nextId t ReportRow.id

/-- The table with a report under a number. -/
def enter (t : ReportTable) (number : String) (r : Report) : ReportTable :=
  t.append (nextId t) (.ofReport (nextId t) number r)

/-- What the main row of a report is refused for, unless none of it holds. -/
structure Takes (t : ReportTable) (number : String) (r : Report) : Prop where
  id_left : t.greatestId ReportRow.id < maxInt64
  quantity : r.quantity.isNaN = false
  unused : ∀ row ∈ t.rows, row.number ≠ number

theorem insert_of_takes {t : ReportTable} {number : String} {r : Report} (h : Takes t number r) :
    t.insert number r = .ok (nextId t, enter t number r) := by
  have hf := Numbered.freshId?_eq_some_iff.2 ⟨h.id_left, rfl⟩
  have hu : (t.rows.any fun row => row.number == number) = false := by
    rw [List.any_eq_false]
    intro row hrow
    simpa using h.unused row hrow
  unfold insert
  rw [hf]
  simp only [h.quantity, hu, Bool.false_eq_true, if_false, enter]

theorem takes_of_insert {t t' : ReportTable} {number : String} {r : Report} {id : Int}
    (h : t.insert number r = .ok (id, t')) : Takes t number r := by
  unfold insert at h
  split at h
  · cases h
  · rename_i hf
    split at h
    · cases h
    · rename_i hq
      split at h
      · cases h
      · rename_i hu
        refine ⟨(Numbered.freshId?_eq_some_iff.1 hf).1, by simpa using hq, ?_⟩
        intro row hrow he
        exact hu (List.any_eq_true.2 ⟨row, hrow, by simpa using he⟩)

end ReportTable

namespace Store

variable {s after : Store} {stem number : String} {r : Report} {allocate : Option String → String}

/-- What has to hold for a report to be entered under a number. -/
structure Admits (s : Store) (stem number : String) (r : Report) (reports : ReportTable)
    (findings : FindingTable) : Prop where
  reports_eq : s.reports = some reports
  findings_eq : s.findings = some findings
  acceptable : acceptable stem number = true
  takes : reports.Takes number r
  room : r.findings = [] ∨ findings.greatestId FindingRow.id + r.findings.length ≤ maxInt64

/-- The store with a report and its findings entered. -/
def enter (s : Store) (number : String) (r : Report) (reports : ReportTable)
    (findings : FindingTable) : Store :=
  { s with
    reports := some (reports.enter number r)
    findings := some (findings.enter reports.nextId r.findings) }

/-- The statements that write a report all succeed exactly when the report is admitted. -/
theorem writeReport_ok_iff :
    writeReport stem r allocate s = (.ok number, after) ↔
      ∃ greatest reports findings, s.greatestNumber stem = .ok greatest ∧
        number = allocate greatest ∧ s.Admits stem number r reports findings ∧
        after = s.enter number r reports findings := by
  constructor
  · intro h
    unfold writeReport at h
    split at h
    · cases h
    · rename_i greatest hg
      dsimp only at h
      split at h
      · rename_i ha
        split at h
        · cases h
        · rename_i reports hr
          split at h
          · cases h
          · rename_i id reports' hi
            split at h
            · cases h
            · rename_i findings hf
              have ht := ReportTable.takes_of_insert hi
              rw [ReportTable.insert_of_takes ht] at hi
              cases hi
              have hr' : s.reports = some reports := by
                unfold table at hr
                split at hr
                · cases hr; assumption
                · cases hr
              have hf' : s.findings = some findings := by
                unfold table at hf
                split at hf
                · cases hf; assumption
                · cases hf
              by_cases hroom : r.findings = [] ∨
                  findings.greatestId FindingRow.id + r.findings.length ≤ maxInt64
              · rw [FindingTable.insertAll_of_room _ hroom] at h
                cases h
                exact ⟨greatest, reports, findings, hg, rfl, ⟨hr', hf', ha, ht, hroom⟩, rfl⟩
              · rw [not_or, Int.not_le] at hroom
                obtain ⟨n, _, he⟩ := FindingTable.insertAll_of_full reports.nextId hroom.1 hroom.2
                rw [he] at h
                cases h
      · cases h
  · rintro ⟨greatest, reports, findings, hg, rfl, ha, rfl⟩
    simp only [writeReport, hg, ha.acceptable, if_true, table, ha.reports_eq,
      ReportTable.insert_of_takes ha.takes, ha.findings_eq,
      FindingTable.insertAll_of_room _ ha.room]
    rfl

/-- A refusal can come late: when the ids run out at a finding, the report and the findings before it
are written by then. -/
theorem writeReport_refused_late {greatest : Option String} {reports : ReportTable}
    {findings : FindingTable} (hr : s.reports = some reports) (hf : s.findings = some findings)
    (hg : s.greatestNumber stem = .ok greatest) (ha : acceptable stem (allocate greatest) = true)
    (ht : reports.Takes (allocate greatest) r) (hne : r.findings ≠ [])
    (hfull : maxInt64 < findings.greatestId FindingRow.id + r.findings.length) :
    ∃ n < r.findings.length, writeReport stem r allocate s =
      (.error (.idsUsedUp .findings),
        { s with
          reports := some (reports.enter (allocate greatest) r)
          findings := some (findings.enter reports.nextId (r.findings.take n)) }) := by
  obtain ⟨n, hn, he⟩ := FindingTable.insertAll_of_full reports.nextId hne hfull
  refine ⟨n, hn, ?_⟩
  simp only [writeReport, hg, ha, if_true, table, hr, ReportTable.insert_of_takes ht, hf, he]
  rfl

/-! ## The transaction -/

/-- A transaction that writes a report succeeds exactly when the report is admitted. -/
theorem insertReport_ok_iff :
    insertReport stem r allocate s = (.ok number, after) ↔
      ∃ greatest reports findings, s.greatestNumber stem = .ok greatest ∧
        number = allocate greatest ∧ s.Admits stem number r reports findings ∧
        after = s.enter number r reports findings := by
  rw [← writeReport_ok_iff]
  unfold insertReport transact
  split
  · rename_i a t hw
    rw [hw]
  · rename_i e t hw
    rw [hw]
    simp

/-- A number that is not acceptable under its stem is refused. -/
theorem insertReport_refused {greatest : Option String} (hg : s.greatestNumber stem = .ok greatest)
    (h : acceptable stem (allocate greatest) = false) :
    insertReport stem r allocate s = (.error (.refusedNumber (allocate greatest) stem), s) := by
  simp only [insertReport, transact, writeReport, hg, h]
  rfl

/-- A transaction that is refused leaves the store as it was. -/
theorem insertReport_error {e : StoreError}
    (h : insertReport stem r allocate s = (.error e, after)) : after = s := by
  have he := @transact_error _ (writeReport stem r allocate) s e
  unfold insertReport at h
  rw [h] at he
  exact he rfl

/-- Whatever becomes of a transaction, the store is as it was or has the admitted report entered. -/
theorem insertReport_cases (stem : String) (r : Report) (allocate : Option String → String)
    (s : Store) :
    (s.insertReport stem r allocate).2 = s ∨ ∃ number reports findings,
      s.Admits stem number r reports findings ∧
        (s.insertReport stem r allocate).2 = s.enter number r reports findings := by
  cases hi : s.insertReport stem r allocate with
  | mk result after =>
    cases result with
    | error e => exact Or.inl (insertReport_error hi)
    | ok number =>
      obtain ⟨_, reports, findings, _, _, ha, rfl⟩ := insertReport_ok_iff.1 hi
      exact Or.inr ⟨number, reports, findings, ha, rfl⟩

end Store

end MaterialInspection
