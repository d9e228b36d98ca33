import MaterialInspection.Proofs.Chance
import MaterialInspection.Proofs.Number.Place
import MaterialInspection.Proofs.Report.Issued
import MaterialInspection.Proofs.Store.Kept
import MaterialInspection.Proofs.Store.OneRow

/-!
# A report that was created can be looked up

`Desk.create` answers with the report as it was drawn; `Desk.find` answers with what the store holds
under a number.  The two agree on every report that was created, and they go on to agree whatever the
desks do afterwards.

* `Desk.create_ok` — a report that is created was drawn from the catalog and entered in one
  transaction; `Desk.create_of_issue` is the converse.
* `Report.draft_fits` — the numbers of a drawn report fit their columns if those of the delivery and
  of the catalog do.
* `Desk.create_first` — over empty tables a delivery gets the first number.
* `Desk.find_created` — the lookup, after any run of the floor.
-/

set_option autoImplicit false

namespace MaterialInspection

/-! ## Numbers that are the same -/

/-- A zero without its sign is the same number. -/
theorem NumberCell.same_unsignedZero {x : Binary64} (h : x.isNaN = false) :
    (unsignedZero x).same x = true := by
  unfold unsignedZero
  split
  · rename_i hz
    exact Binary64.same_symm hz
  · exact Binary64.same_self h

/-! ## Drafts -/

namespace Report

variable {r : Report} {settings : Settings} {catalog : List Item} {delivery : Delivery}
  {inspector : String} {date : Date} {words rest : WordStream}

/-- A draft has the packages of its delivery and findings on items of the catalog. -/
theorem draft_drawn
    (hd : Report.draft settings delivery catalog inspector date words = (r, rest)) :
    r.packages = delivery.packages ∧ ∀ f ∈ r.findings, ∃ item ∈ catalog, f.itemId = item.id := by
  unfold Report.draft Draw.map at hd
  dsimp only at hd
  have hitems : ∀ f ∈ (settings.inspectAll (itemsFor catalog delivery.materialCategory)
      (settings.plan.size delivery.packages) words).1, ∃ item ∈ catalog, f.itemId = item.id := by
    intro f hf
    obtain ⟨item, hitem, _, rfl⟩ := Draw.yields_of_mem_each hf
    unfold itemsFor inOrder at hitem
    exact ⟨item, (List.mem_filter.1 (List.mem_mergeSort.1 hitem)).1, rfl⟩
  generalize Settings.inspectAll _ _ _ words = drawn at hd hitems
  cases hd
  constructor
  · dsimp only
  · exact hitems

/-- The numbers of a draft fit their columns, its size given. -/
theorem draft_fits
    (hd : Report.draft settings delivery catalog inspector date words = (r, rest))
    (hpackages : minInt32 ≤ delivery.packages ∧ delivery.packages ≤ maxInt32)
    (hids : ∀ item ∈ catalog, minInt64 ≤ item.id ∧ item.id ≤ maxInt64)
    (hsize : (r.sampleSize : Int) ≤ maxInt64) : r.Fits := by
  obtain ⟨hp, hitems⟩ := draft_drawn hd
  refine ⟨by rw [hp]; exact hpackages, hsize, ?_⟩
  intro f hf
  obtain ⟨item, hitem, he⟩ := hitems f hf
  rw [he]
  exact hids item hitem

/-- A draft without items draws no words and has no findings. -/
theorem draft_nil (settings : Settings) (delivery : Delivery) (inspector : String) (date : Date)
    (words : WordStream) :
    ∃ r, Report.draft settings delivery [] inspector date words = (r, words) ∧ r.findings = [] ∧
      r.quantity = delivery.quantity ∧ r.sampleSize = settings.plan.size delivery.packages := by
  simp only [Report.draft, Draw.map, itemsFor, inOrder, List.filter_nil, List.mergeSort_nil,
    Settings.inspectAll, Draw.each, Draw.certain]
  exact ⟨_, rfl, rfl, rfl, rfl⟩

end Report

/-! ## Creating and looking up -/

theorem Store.activeItems_blank : Store.blank.prepare.activeItems = .ok [] := by
  simp [activeItems, table, prepare, blank, Catalog.active, Catalog.sorted, Numbered.empty,
    Except.map]

namespace Desk

/-- A report that is written was entered in one transaction on the store as it was found: the
attempts before it have left no trace. -/
theorem write_ok {r : Report} {attempts : Nat} {s after : Store} {number : String}
    (h : write r attempts s = (.ok number, after)) : s.issue r = (.ok number, after) := by
  induction attempts with
  | zero => cases h
  | succ attempts ih =>
    unfold write at h
    dsimp only at h
    rw [← Store.issue] at h
    split at h
    · rename_i table column after' hi
      obtain rfl := Store.issue_error hi
      split at h
      · cases h
      · exact ih h
    · exact h

/-- A report that is created was drawn from the catalog, and entered under its number. -/
theorem create_ok {d : Desk} {delivery : Delivery} {inspector : String} {date : Date}
    {words rest : WordStream} {report : Report} {after : Store}
    (h : d.create delivery inspector date words = (.ok report, after, rest)) :
    ∃ catalog draft, d.store.activeItems = .ok catalog ∧
      Report.draft d.settings delivery catalog inspector date words = (draft, rest) ∧
      d.store.issue draft = (.ok report.number, after) ∧
      report = { draft with number := report.number } := by
  unfold create at h
  split at h
  · cases h
  · split at h
    · cases h
    · rename_i catalog hc
      unfold save at h
      split at h
      · cases h
      · split at h
        rename_i draft rest' hd
        split at h
        · rename_i number after' hw
          cases h
          exact ⟨catalog, draft, hc, hd, write_ok hw, rfl⟩
        · cases h

/-- A report that is drawn from the catalog and entered under a number is created. -/
theorem create_of_issue {d : Desk} {delivery : Delivery} {inspector : String} {date : Date}
    {words rest : WordStream} {catalog : List Item} {draft : Report} {number : String} {after : Store}
    (hi : Text.blank inspector = false) (hp : Text.blank delivery.product = false)
    (hc : d.store.activeItems = .ok catalog)
    (hd : Report.draft d.settings delivery catalog inspector date words = (draft, rest))
    (hissue : d.store.issue draft = (.ok number, after)) :
    d.create delivery inspector date words = (.ok { draft with number }, after, rest) := by
  unfold Store.issue at hissue
  simp only [create, hi, hc, save, hp, hd, maxAttempts, write, hissue, Bool.false_eq_true, if_false]

/-- Over empty tables a delivery gets a report without findings, under the first number of its stem. -/
theorem create_first (settings : Settings) {delivery : Delivery} {inspector : String} (date : Date)
    (words : WordStream) (hi : Text.blank inspector = false)
    (hp : Text.blank delivery.product = false) (hq : delivery.quantity.isNaN = false) :
    ∃ report after,
      create ⟨Store.blank.prepare, settings⟩ delivery inspector date words =
        (.ok report, after, words) ∧
      report.number = ReportNumber.withSequence
        (ReportNumber.stemChars delivery.materialCategory date) 1 ∧
      report.sampleSize = settings.plan.size delivery.packages := by
  obtain ⟨r, hd, hf, hquantity, hsize⟩ := Report.draft_nil settings delivery inspector date words
  obtain ⟨hcategory, hdate⟩ := Report.draft_filed hd
  have hissue := Store.issue_first (r := r) (by rw [hquantity]; exact hq) (by rw [hf]; decide)
  rw [hcategory, hdate] at hissue
  unfold Store.issue at hissue
  generalize ReportNumber.withSequence _ 1 = number at hissue ⊢
  generalize Store.enter _ _ _ _ _ = after at hissue
  refine ⟨{ r with number }, after, ?_, rfl, hsize⟩
  simp only [create, hi, Store.activeItems_blank, save, hp, hd, maxAttempts, write, hissue,
    Bool.false_eq_true, if_false]

/-- **A report that was created can be looked up from then on**, at any desk and whatever calls,
items, settings and imports follow: the answer agrees with it in every field, the quantity compared
as a number.  The conditions are those of the columns and of the tables: packages have 32 bits, ids
and the number of samples 64, and findings belong to reports. -/
theorem find_created {d : Desk} {delivery : Delivery} {inspector : String} {date : Date}
    {words rest : WordStream} {report : Report} {after : Store}
    (hc : d.create delivery inspector date words = (.ok report, after, rest))
    (hsize : (report.sampleSize : Int) ≤ maxInt64)
    (hpackages : minInt32 ≤ delivery.packages ∧ delivery.packages ≤ maxInt32)
    (hids : ∀ catalog ∈ d.store.items, ∀ row ∈ catalog.rows,
      minInt64 ≤ row.id ∧ row.id ≤ maxInt64)
    (hrefers : d.store.Refers) {calls : List Call} {floor : Floor}
    (hr : Floor.Reaches ⟨after, calls⟩ floor) (settings : Settings) :
    ∃ quantity, quantity.same report.quantity = true ∧
      Desk.find ⟨floor.store, settings⟩ report.number = .ok { report with quantity } := by
  obtain ⟨catalog, draft, hactive, hd, hissue, hreport⟩ := create_ok hc
  have hsizes : draft.sampleSize = report.sampleSize := by rw [hreport]
  have hquantities : draft.quantity = report.quantity := by rw [hreport]
  have hcatalog : ∀ item ∈ catalog, minInt64 ≤ item.id ∧ item.id ≤ maxInt64 := by
    unfold Store.activeItems Store.table at hactive
    cases hi : d.store.items with
    | none =>
      rw [hi] at hactive
      cases hactive
    | some rows =>
      rw [hi] at hactive
      cases hactive
      intro item hitem
      obtain ⟨row, hrow, _, rfl⟩ := Catalog.row_of_active hitem
      rw [ItemRow.id_item]
      exact hids rows hi row hrow
  have hfits := Report.draft_fits hd hpackages hcatalog (by rw [hsizes]; exact hsize)
  have hkeeps : floor.store.Keeps report.number draft :=
    hr.keeps (fun _ _ => Store.move_keeps) (Store.keeps_of_insert hrefers hissue)
  have hnan : draft.quantity.isNaN = false := by
    obtain ⟨_, _, _, _, _, ha, _⟩ := Store.insertReport_ok_iff.1 hissue
    exact ha.takes.quantity
  refine ⟨NumberCell.unsignedZero draft.quantity, ?_, ?_⟩
  · rw [← hquantities]
    exact NumberCell.same_unsignedZero hnan
  · unfold find
    dsimp only
    rw [Store.findReport_of_keeps hkeeps hfits]
    dsimp only
    rw [hreport]

/-- A report on boxes, created over a catalog of one item, is looked up with its finding after one more
desk was opened and a setting made. -/
theorem find_created_boxes :
    ∃ (d : Desk) (delivery : Delivery) (date : Date) (words rest : WordStream) (report : Report)
      (after : Store) (floor : Floor),
      d.create delivery "乙" date words = (.ok report, after, rest) ∧
      report.number = "TJF2501001" ∧
      report.findings = [⟨1, "外观", ["OK", "OK"], .pass, "箱"⟩] ∧
      (report.sampleSize : Int) ≤ maxInt64 ∧ Floor.Reaches ⟨after, []⟩ floor ∧
      ∃ quantity, quantity.same report.quantity = true ∧
        Desk.find ⟨floor.store, d.settings⟩ report.number = .ok { report with quantity } := by
  let day : Date := ⟨2025, 1, 15, by decide⟩
  let boxes : Delivery := ⟨"甲", "纸箱", none, some "纸箱", .zero false, 0, none, none⟩
  let d : Desk := {
    store := (Store.blank.prepare.putItem { name := "外观", unit := "箱", category := "纸箱" }).2
    settings := { plan := { unknownSize := 2 } } }
  let words : WordStream := ⟨fun _ => 0, 0⟩
  have hok : (d.create boxes "乙" day words).1.toOption.map
      (fun r => (r.number, r.sampleSize, r.findings)) =
        some ("TJF2501001", 2, [⟨1, "外观", ["OK", "OK"], .pass, "箱"⟩]) := by
    decide +kernel
  cases hc : d.create boxes "乙" day words with
  | mk outcome left =>
    obtain ⟨after, rest⟩ := left
    rw [hc] at hok
    cases outcome with
    | error e => cases hok
    | ok report =>
      obtain ⟨hnumber, hsamples, hfindings⟩ : report.number = "TJF2501001" ∧ report.sampleSize = 2 ∧
          report.findings = [⟨1, "外观", ["OK", "OK"], .pass, "箱"⟩] := by
        simpa [Except.toOption] using hok
      have hsize : ((report.sampleSize : Nat) : Int) ≤ maxInt64 := by
        rw [hsamples]
        decide
      have hids : ∀ catalog ∈ d.store.items, ∀ row ∈ catalog.rows,
          minInt64 ≤ row.id ∧ row.id ≤ maxInt64 := by
        rintro _ ⟨⟩ row hrow
        rw [List.mem_singleton.1 hrow]
        decide
      have hr : Floor.Reaches ⟨after, []⟩ _ :=
        .step (.step (.here _) (.openDesk _)) (.setSetting _ "generator" "x")
      exact ⟨d, boxes, day, words, rest, report, after, _, hc, hnumber, hfindings, hsize, hr,
        find_created hc hsize (by decide) hids (by rintro _ ⟨⟩ _ ⟨⟩) hr d.settings⟩

end Desk

end MaterialInspection
