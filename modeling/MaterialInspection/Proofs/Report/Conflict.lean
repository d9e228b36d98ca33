import MaterialInspection.Proofs.Store.Counted

/-!
# Numbers that are taken

`Store.insertReport` leaves the choice of a number to its caller: any text of ten bytes that starts
with the stem is entered.  After numbers of a caller's own making the next number of a stem can be
one that is taken.  The greatest number found may end in letters, and then the sequence starts again
at one; it may start with the stem in small letters, which sort after the capital ones.

* `Store.insertReport_eq` — what becomes of a report that the tables accept.
* `Store.insertReport_duplicate` — a number is reported as taken only when it is.
* `Store.next_unused` — the next number is free when the greatest one found is the stem with three
  digits, or there is none.
* `Store.insert_next_after_any` — what becomes of the next number of a stem after any entries.
-/

set_option autoImplicit false

namespace MaterialInspection

open ReportNumber

namespace Store

variable {start s after : Store} {r : Report} {reports : ReportTable} {findings : FindingTable}
  {greatest : Option String} {number : String} {allocate : Option String → String}

/-! ## Entries of any kind -/

/-- The stores that are reached from one by entering reports, under any stems and with any
allocators. -/
inductive Filled (start : Store) : Store → Prop
  | here : Filled start start
  | insert {s : Store} (h : Filled start s) (stem : String) (r : Report)
      (allocate : Option String → String) : Filled start (s.insertReport stem r allocate).2

/-- What holds of the numbers in a store whoever made them: no two are the same, and each has ten
bytes. -/
structure Distinct (s : Store) : Prop where
  nodup : s.numbers.Nodup
  bytes : ∀ number ∈ s.numbers, number.utf8ByteSize = ReportNumber.length

theorem distinct_of_empty (h : s.reports = some Numbered.empty) : Distinct s := by
  have hnone : s.numbers = [] := by
    rw [numbers, reportRows_eq h]
    rfl
  constructor
  · rw [hnone]
    exact List.nodup_nil
  · rw [hnone]
    intro number hnumber
    cases hnumber

/-- A report that is admitted has ten bytes of number, and no other report has them. -/
theorem Distinct.enter (h : Distinct s) {stem : String}
    (ha : s.Admits stem number r reports findings) :
    Distinct (s.enter number r reports findings) := by
  have hacceptable := ha.acceptable
  rw [acceptable, Bool.and_eq_true, beq_iff_eq] at hacceptable
  have hunused : ∀ other ∈ s.numbers, other ≠ number := by
    intro other hother
    rw [numbers, reportRows_eq ha.reports_eq] at hother
    obtain ⟨row, hrow, rfl⟩ := List.mem_map.1 hother
    exact ha.takes.unused row hrow
  constructor
  · rw [numbers_enter findings ha.reports_eq, List.nodup_append]
    refine ⟨h.nodup, List.nodup_singleton number, ?_⟩
    intro other hother b hb
    rw [List.mem_singleton.1 hb]
    exact hunused other hother
  · rw [numbers_enter findings ha.reports_eq]
    intro other hother
    rcases List.mem_append.1 hother with hold | hnew
    · exact h.bytes other hold
    · rw [List.mem_singleton.1 hnew]
      exact hacceptable.1

/-- What entries keep holds after any of them. -/
theorem Filled.keeps {P : Store → Prop}
    (hi : ∀ s stem r allocate, P s → P (s.insertReport stem r allocate).2) (h : Filled start s)
    (hs : P start) : P s := by
  induction h with
  | here => exact hs
  | insert _ stem r allocate ih => exact hi _ stem r allocate ih

/-- After any entries the numbers are distinct if they were before. -/
theorem Filled.distinct (h : Filled start s) (hs : Distinct start) : Distinct s := by
  refine h.keeps (fun s stem r allocate hd => ?_) hs
  rcases insertReport_cases stem r allocate s with he | ⟨number, reports, findings, ha, he⟩
  · rw [he]
    exact hd
  · rw [he]
    exact hd.enter ha

/-- After any entries the last ids are the numbers of rows if they were before. -/
theorem Filled.counted (h : Filled start s) (hs : Counted start) : Counted s :=
  h.keeps (fun _ stem r allocate hc => insertReport_counted hc stem r allocate) hs

/-! ## What becomes of an entry -/

theorem mem_numbers_iff (hr : s.reports = some reports) :
    number ∈ s.numbers ↔ (reports.rows.any fun row => row.number == number) = true := by
  rw [numbers, reportRows_eq hr, List.mem_map, List.any_eq_true]
  simp only [beq_iff_eq]

/-- A report that the tables accept is entered under an acceptable number, unless that is taken. -/
theorem insertReport_eq (ha : s.Accepts r reports findings) {stem : String}
    (hg : s.greatestNumber stem = .ok greatest)
    (hacceptable : acceptable stem (allocate greatest) = true) :
    s.insertReport stem r allocate =
      if allocate greatest ∈ s.numbers then (.error (.duplicate .reports "report_no"), s)
      else (.ok (allocate greatest), s.enter (allocate greatest) r reports findings) := by
  split
  · rename_i htaken
    have hfresh := Numbered.freshId?_eq_some_iff.2 ⟨ha.id_left, rfl⟩
    have hinsert : reports.insert (allocate greatest) r =
        .error (.duplicate .reports "report_no") := by
      unfold ReportTable.insert
      rw [hfresh]
      simp only [ha.quantity, (mem_numbers_iff ha.reports_eq).1 htaken, Bool.false_eq_true,
        if_false, if_true]
    simp only [insertReport, transact, writeReport, hg, hacceptable, if_true, table, ha.reports_eq,
      hinsert]
  · rename_i hfree
    refine insertReport_ok_iff.2 ⟨greatest, reports, findings, hg, rfl,
      ⟨ha.reports_eq, ha.findings_eq, hacceptable, ⟨ha.id_left, ha.quantity, ?_⟩, ha.room⟩, rfl⟩
    intro row hrow he
    refine hfree ((mem_numbers_iff ha.reports_eq).2 (List.any_eq_true.2 ⟨row, hrow, ?_⟩))
    rw [he, beq_self_eq_true]

/-- A main row is refused as a duplicate only when its number is taken. -/
theorem taken_of_insert {t : Table} {column : String}
    (h : reports.insert number r = .error (.duplicate t column)) :
    (reports.rows.any fun row => row.number == number) = true := by
  unfold ReportTable.insert at h
  split at h
  · cases h
  · split at h
    · cases h
    · split at h
      · assumption
      · cases h

/-- The findings of a report are refused for nothing but their ids. -/
theorem insertAll_error {reportId : Int} {fs : List Finding} {e : StoreError}
    (h : (findings.insertAll reportId fs).1 = .error e) : e = .idsUsedUp .findings := by
  by_cases hroom : fs = [] ∨ findings.greatestId FindingRow.id + fs.length ≤ maxInt64
  · rw [FindingTable.insertAll_of_room reportId hroom] at h
    cases h
  · rw [not_or, Int.not_le] at hroom
    obtain ⟨_, _, he⟩ := FindingTable.insertAll_of_full reportId hroom.1 hroom.2
    rw [he] at h
    exact (Except.error.inj h).symm

/-- A number is reported as taken only when it is. -/
theorem insertReport_duplicate {stem column : String} {t : Table}
    (hg : s.greatestNumber stem = .ok greatest)
    (h : (s.insertReport stem r allocate).1 = .error (.duplicate t column)) :
    allocate greatest ∈ s.numbers := by
  have hbody : (writeReport stem r allocate s).1 = .error (.duplicate t column) := by
    unfold insertReport transact at h
    split at h
    · cases h
    · rename_i e _ he
      rw [he]
      exact h
  unfold writeReport at hbody
  rw [hg] at hbody
  dsimp only at hbody
  split at hbody
  · cases hr : s.reports with
    | none =>
      rw [hr] at hbody
      cases hbody
    | some reports =>
      rw [hr] at hbody
      dsimp only [table] at hbody
      split at hbody
      · rename_i e hinsert
        cases hbody
        exact (mem_numbers_iff hr).2 (taken_of_insert hinsert)
      · cases hf : s.findings with
        | none =>
          rw [hf] at hbody
          cases hbody
        | some findings =>
          rw [hf] at hbody
          dsimp only at hbody
          cases hall : (findings.insertAll _ r.findings).1 with
          | ok _ =>
            rw [hall] at hbody
            cases hbody
          | error e =>
            rw [hall] at hbody
            cases hbody
            cases insertAll_error hall
  · cases hbody

/-! ## The greatest number found -/

/-- The greatest number found is the last, in the order of texts, of those that start with the form of
the stem and count ten characters. -/
theorem greatestNumber_eq (hr : s.reports = some reports) {stem : String}
    (hshort : Pattern.isShort stem = true) :
    s.greatestNumber stem =
      .ok ((ReportTable.sortTexts (s.numbers.filter (Pattern.matchesStart stem))).filter
        fun number => Pattern.length number == ReportNumber.length).getLast? := by
  rw [numbers, reportRows_eq hr]
  simp only [greatestNumber, table, hr, ReportTable.greatestLike, ReportTable.numbersLike, hshort,
    Bool.or_true, if_true, Except.map]

/-- When all numbers are found and stand in order, the greatest is the last. -/
theorem greatestNumber_of_sorted (hr : s.reports = some reports) {stem : String}
    (hshort : Pattern.isShort stem = true)
    (hall : ∀ number ∈ s.numbers, Pattern.matchesStart stem number = true ∧
      Pattern.length number = ReportNumber.length)
    (hsorted : s.numbers.Pairwise fun a b => a ≤ b) :
    s.greatestNumber stem = .ok s.numbers.getLast? := by
  have hfound : s.numbers.filter (Pattern.matchesStart stem) = s.numbers :=
    List.filter_eq_self.2 fun number hn => (hall number hn).1
  have hten : s.numbers.filter (fun number => Pattern.length number == ReportNumber.length) =
      s.numbers :=
    List.filter_eq_self.2 fun number hn => beq_iff_eq.2 (hall number hn).2
  have hsort : ReportTable.sortTexts s.numbers = s.numbers :=
    List.mergeSort_of_pairwise (hsorted.imp decide_eq_true)
  rw [greatestNumber_eq hr hshort, hfound, hsort, hten]

/-- The greatest number found is not below any number that is found. -/
theorem le_greatestNumber {stem : String} (hr : s.reports = some reports)
    (hshort : Pattern.isShort stem = true) (hn : number ∈ s.numbers)
    (hstarts : Pattern.matchesStart stem number = true)
    (hten : Pattern.length number = ReportNumber.length) :
    ∃ last, s.greatestNumber stem = .ok (some last) ∧ number ≤ last := by
  have hlike := greatestNumber_eq hr hshort
  have hsorted := (pairwise_sortTexts (s.numbers.filter (Pattern.matchesStart stem))).filter
    fun number => Pattern.length number == ReportNumber.length
  have hmem : number ∈ ReportTable.sortTexts (s.numbers.filter (Pattern.matchesStart stem)) :=
    List.mem_mergeSort.2 (List.mem_filter.2 ⟨hn, hstarts⟩)
  have hfound := List.mem_filter (p := fun number => Pattern.length number == ReportNumber.length).2
    ⟨hmem, beq_iff_eq.2 hten⟩
  generalize List.filter _ (ReportTable.sortTexts _) = found at hlike hsorted hfound
  cases hlast : found.getLast? with
  | none =>
    rw [List.getLast?_eq_none_iff.1 hlast] at hfound
    cases hfound
  | some last =>
    refine ⟨last, by rw [hlike, hlast], ?_⟩
    obtain ⟨before, rfl⟩ := List.getLast?_eq_some_iff.1 hlast
    rcases List.mem_append.1 hfound with hbefore | hsame
    · exact (List.pairwise_append.1 hsorted).2.2 number hbefore last (List.mem_singleton_self last)
    · obtain rfl := List.mem_singleton.1 hsame
      exact String.le_refl _

/-- The next number is free when the greatest one found is the stem with three digits, or there is
none. -/
theorem next_unused (h : Distinct s) (hr : s.reports = some reports) {category : String}
    {date : Date} (hg : s.greatestNumber (stem category date) = .ok greatest)
    (hdigits : ∀ last ∈ greatest, ∃ n ≤ 999, last = withSequence (stemChars category date) n) :
    next category date greatest ∉ s.numbers := by
  intro htaken
  have hcoded := coded_withSequence (coded_stemChars category date) (nextSequence greatest)
  have hle : nextSequence greatest ≤ 999 := by
    have hbytes := h.bytes _ htaken
    rw [next, utf8ByteSize_coded hcoded] at hbytes
    exact (length_withSequence_eq_iff category date _).1 hbytes
  have hstarts : Pattern.matchesStart (stem category date) (next category date greatest) = true := by
    rw [next, matchesStart_plain (by rw [toList_stem]; exact (coded_stemChars category date).plain)
      hcoded, toList_stem, toList_withSequence]
    exact List.isPrefixOf_iff_prefix.2 (List.prefix_append _ _)
  obtain ⟨last, hg', hlast⟩ := le_greatestNumber hr (isShort_stem category date) htaken hstarts
    (patternLength_withSequence category date hle)
  rw [hg] at hg'
  cases hg'
  -- the number after the last one is above it
  obtain ⟨n, hn, rfl⟩ := hdigits last rfl
  rw [next, nextSequence_withSequence category date hn] at hlast
  rw [nextSequence_withSequence category date hn] at hle
  have hsame := String.le_antisymm hlast (withSequence_le (Nat.le_succ n) hle)
  have := (withSequence_inj rfl hsame).2
  omega

/-! ## The next number of a stem after any entries -/

/-- **What becomes of the next number of a stem after any entries.**  Whatever reports were entered
before, under whatever stems and with whatever allocators, a report that is offered the number after
the greatest one of its stem

* is refused for its number, which is a violation of a business rule, when the sequence is used up;
* is entered under it otherwise, if the tables accept it and the number is not taken;
* is refused as a duplicate when, and only when, it is.

A refused report leaves the store as it was.  The number is free while the greatest one found is the
stem with three digits, or there is none; the allocator of desks makes no others. -/
theorem insert_next_after_any (hreports : start.reports = some Numbered.empty)
    (hfindings : start.findings = some Numbered.empty) (hfilled : Filled start s) (r : Report)
    (category : String) (date : Date) :
    ∃ greatest number outcome, s.greatestNumber (stem category date) = .ok greatest ∧
      number = next category date greatest ∧
      outcome = s.insertReport (stem category date) r (next category date) ∧
      (999 < nextSequence greatest →
        outcome = (.error (.refusedNumber number (stem category date)), s)) ∧
      (nextSequence greatest ≤ 999 → r.quantity.isNaN = false →
        (s.reportRows.length : Int) < maxInt64 →
        (s.findingRows.length + r.findings.length : Int) ≤ maxInt64 →
        (number ∉ s.numbers → ∃ after, outcome = (.ok number, after) ∧
          after.numbers = s.numbers ++ [number]) ∧
        (number ∈ s.numbers → outcome = (.error (.duplicate .reports "report_no"), s))) ∧
      (∀ t column, outcome.1 = .error (.duplicate t column) → number ∈ s.numbers) ∧
      ((∀ last ∈ greatest, ∃ n ≤ 999, last = withSequence (stemChars category date) n) →
        number ∉ s.numbers) := by
  have hcounted := hfilled.counted (counted_of_empty hreports hfindings)
  have hdistinct := hfilled.distinct (distinct_of_empty hreports)
  obtain ⟨reports, hr, _⟩ := hcounted.reports
  have hg := greatestNumber_eq hr (isShort_stem category date)
  generalize List.getLast? _ = greatest at hg
  have hacceptable := acceptable_withSequence category date (nextSequence greatest)
  rw [← next] at hacceptable
  refine ⟨greatest, _, _, hg, rfl, rfl, ?_, ?_, fun _ _ => insertReport_duplicate hg,
    next_unused hdistinct hr hg⟩
  · intro hlong
    refine insertReport_refused hg ?_
    rw [hacceptable, decide_eq_false_iff_not]
    omega
  · intro hle hquantity hrows hroom
    obtain ⟨reports, findings, ha⟩ := hcounted.accepts hquantity hrows (Or.inr hroom)
    have houtcome := insertReport_eq ha hg (by rw [hacceptable, decide_eq_true hle])
    rw [houtcome]
    constructor
    · intro hfree
      exact ⟨_, if_neg hfree, numbers_enter findings ha.reports_eq⟩
    · intro htaken
      exact if_pos htaken

/-- A caller that brings a number of its own has it entered, if it is acceptable and not taken. -/
theorem Filled.own (h : Filled start s) (hs : Counted start) {stem : String}
    (hshort : Pattern.isShort stem = true) (hacceptable : acceptable stem number = true)
    (hfree : number ∉ s.numbers) (hrows : (s.numbers.length : Int) < maxInt64)
    (hquantity : r.quantity.isNaN = false) (hnone : r.findings = []) :
    ∃ after, Filled start after ∧ after.numbers = s.numbers ++ [number] ∧
      after.findingRows = s.findingRows := by
  rw [length_numbers] at hrows
  obtain ⟨reports, findings, ha⟩ := (h.counted hs).accepts hquantity hrows (Or.inl hnone)
  have houtcome := @insertReport_eq _ _ _ _ _ (fun _ => number) ha _
    (greatestNumber_eq ha.reports_eq hshort) hacceptable
  rw [if_neg hfree] at houtcome
  have hafter := h.insert stem r fun _ => number
  rw [houtcome] at hafter
  refine ⟨_, hafter, numbers_enter findings ha.reports_eq, ?_⟩
  rw [findingRows_enter reports number r ha.findings_eq, hnone]
  exact List.append_nil _

/-- Over empty tables a number of the caller's own is the first one. -/
theorem filled_first (hacceptable : acceptable "TJY2501" number = true)
    (hquantity : r.quantity.isNaN = false) (hnone : r.findings = []) :
    ∃ s, Filled blank.prepare s ∧ s.numbers = [number] ∧ s.findingRows = [] := by
  obtain ⟨s, hs, hnumbers, hfindings⟩ := @Filled.own blank.prepare _ r number .here
    (counted_of_empty rfl rfl) "TJY2501" (by decide) hacceptable List.not_mem_nil (by decide)
    hquantity hnone
  exact ⟨s, hs, hnumbers, hfindings⟩

/-- After a first number, the second one is entered. -/
theorem insert_next_after_any_second :
    ∃ (s after : Store) (r : Report) (date : Date), Filled blank.prepare s ∧
      s.numbers = ["TJY2501001"] ∧
      s.insertReport (stem "纸张" date) r (next "纸张" date) = (.ok "TJY2501002", after) ∧
      after.numbers = ["TJY2501001", "TJY2501002"] := by
  let day : Date := ⟨2025, 1, 15, by decide⟩
  let report : Report :=
    ⟨"", "甲", "铜版纸", none, "纸张", .zero false, 3, none, 3, none, .pass, "乙", day, []⟩
  obtain ⟨s, hs, hnumbers, hfindings⟩ := @filled_first report "TJY2501001" (by decide) rfl rfl
  obtain ⟨greatest, number, outcome, hg, hnumber, houtcome, _, hentered, _⟩ :=
    insert_next_after_any rfl rfl hs report "纸张" day
  have hlast : greatest = some "TJY2501001" := by
    obtain ⟨reports, hr, _⟩ := (hs.counted (counted_of_empty rfl rfl)).reports
    rw [greatestNumber_of_sorted hr (isShort_stem "纸张" day) (by rw [hnumbers]; decide)
      (by rw [hnumbers]; decide), hnumbers] at hg
    exact (Except.ok.inj hg).symm
  have hsecond : number = "TJY2501002" := by
    rw [hnumber, hlast]
    decide
  have hrows : s.reportRows.length = 1 := by
    rw [← length_numbers, hnumbers]
    rfl
  obtain ⟨hstored, _⟩ := hentered (by rw [hlast]; decide) rfl (by rw [hrows]; decide)
    (by rw [hfindings]; decide)
  obtain ⟨after, he, hafter⟩ := hstored (by rw [hsecond, hnumbers]; decide)
  rw [houtcome, hsecond] at he
  rw [hnumbers, hsecond] at hafter
  exact ⟨s, after, report, day, hs, hnumbers, he, hafter⟩

/-- After a number whose end is no sequence, the next number is one that is taken. -/
theorem next_taken_after_letters :
    ∃ (s : Store) (r : Report) (date : Date), Filled blank.prepare s ∧
      s.numbers = ["TJY2501001", "TJY2501abc"] ∧
      s.insertReport (stem "纸张" date) r (next "纸张" date) =
        (.error (.duplicate .reports "report_no"), s) := by
  let day : Date := ⟨2025, 1, 15, by decide⟩
  let report : Report :=
    ⟨"", "甲", "铜版纸", none, "纸张", .zero false, 3, none, 3, none, .pass, "乙", day, []⟩
  have hempty : Counted blank.prepare := counted_of_empty rfl rfl
  obtain ⟨first, hfirst, hone, _⟩ := @filled_first report "TJY2501001" (by decide) rfl rfl
  obtain ⟨s, hs, hnumbers, _⟩ := @Filled.own blank.prepare first report "TJY2501abc" hfirst hempty
    "TJY2501" (by decide) (by decide) (by rw [hone]; decide) (by rw [hone]; decide) rfl rfl
  rw [hone] at hnumbers
  have hrows : s.reportRows.length = 2 := by
    rw [← length_numbers, hnumbers]
    rfl
  obtain ⟨reports, findings, ha⟩ := @Counted.accepts s report (hs.counted hempty) rfl
    (by rw [hrows]; decide) (Or.inl rfl)
  have hg := greatestNumber_of_sorted ha.reports_eq (isShort_stem "纸张" day)
    (by rw [hnumbers]; decide) (by rw [hnumbers]; decide)
  have hnext : next "纸张" day s.numbers.getLast? = "TJY2501001" := by
    rw [hnumbers]
    decide
  refine ⟨s, report, day, hs, hnumbers, ?_⟩
  rw [insertReport_eq ha hg (by rw [hnext]; decide), if_pos]
  rw [hnext, hnumbers]
  decide

end Store

end MaterialInspection
