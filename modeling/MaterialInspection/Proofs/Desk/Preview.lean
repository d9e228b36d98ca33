import MaterialInspection.Proofs.Desk.Batch
import MaterialInspection.Proofs.Report.Complete
import MaterialInspection.Proofs.Store.Counted

/-!
# The number that is previewed is the one that is given

`Desk.preview` looks up the greatest number of a stem and works out the next one.  `Desk.create` does
so again inside its transaction, checks the number it gets, and tries again if it is taken.  On a
floor that started from empty tables the two agree: all numbers are in sequence, so the next one is
never taken, and it is refused for nothing but its length.

* `Store.InSequence.preview_eq` — what is previewed is the first number left of the stem.
* `Desk.number_of_create` — a report that is created has that number.
* `Desk.create_of_number_left` — while the stem has a number left, the report is created.
* `Desk.preview_is_given` — both on every floor, and what becomes of a report once the number that is
  previewed is too long.
* `Desk.preview_not_given` — a quantity that is no number is refused whatever was previewed.
-/

set_option autoImplicit false

namespace MaterialInspection

open ReportNumber

/-- Every move keeps the table of items. -/
theorem Store.move_items {s after : Store} (h : s.items.isSome = true) (hm : Move s after) :
    after.items.isSome = true := by
  cases hm with
  | stay => exact h
  | report hi =>
    obtain ⟨_, _, _, _, _, _, rfl⟩ := Store.insertReport_ok_iff.1 hi
    exact h
  | items catalog => rfl
  | settings rows => exact h
  | tables => rfl

/-- With the table of items there is a catalog to read. -/
theorem Store.activeItems_of_items {s : Store} (h : s.items.isSome = true) :
    ∃ catalog, s.activeItems = .ok catalog := by
  obtain ⟨items, hi⟩ := Option.isSome_iff_exists.1 h
  refine ⟨items.active, ?_⟩
  simp only [activeItems, table, hi, Except.map]

variable {s : Store} {delivery : Delivery} {inspector : String} {date : Date} {catalog : List Item}

/-- What is previewed is the first number left of the stem. -/
theorem Store.InSequence.preview_eq (h : s.InSequence) (hc : s.Counted) (settings : Settings)
    (category : String) (date : Date) :
    Desk.preview ⟨s, settings⟩ category date =
      .ok (withSequence (stemChars category date) ((s.numbersUnder category date).length + 1)) := by
  obtain ⟨reports, hr, _⟩ := hc.reports
  obtain ⟨greatest, hg, hn⟩ := h.next_eq hr category date
  unfold Desk.preview
  dsimp only
  rw [hg]
  dsimp only
  rw [hn]

namespace Desk

/-- A report that is created has the first number left of its stem. -/
theorem number_of_create (h : s.InSequence) {settings : Settings} {words rest : WordStream}
    {report : Report} {after : Store}
    (hcreate : create ⟨s, settings⟩ delivery inspector date words = (.ok report, after, rest)) :
    report.number = withSequence (stemChars delivery.materialCategory date)
      ((s.numbersUnder delivery.materialCategory date).length + 1) := by
  obtain ⟨_, draft, _, hd, hissue, _⟩ := create_ok hcreate
  obtain ⟨hcategory, hdate⟩ := Report.draft_filed hd
  obtain ⟨_, _, _, _, hnumber, _⟩ := (Store.issue_ok_iff h).1 hissue
  rw [hnumber, hcategory, hdate]

/-- While the stem has a number left and the findings have ids left, the report is created. -/
theorem create_of_number_left (h : s.InSequence) (hcounted : s.Counted)
    (hc : s.activeItems = .ok catalog) (settings : Settings) (words : WordStream)
    (hi : Text.blank inspector = false) (hp : Text.blank delivery.product = false)
    (hquantity : delivery.quantity.isNaN = false)
    (hroom : (s.findingRows.length + (catalog.filter fun item =>
      item.active && Text.trim item.category == delivery.materialCategory).length : Int) ≤ maxInt64)
    (hleft : (s.numbersUnder delivery.materialCategory date).length < 999) :
    ∃ report after rest,
      create ⟨s, settings⟩ delivery inspector date words = (.ok report, after, rest) := by
  cases hd : Report.draft settings delivery catalog inspector date words with
  | mk draft rest =>
    obtain ⟨hcategory, hdate⟩ := Report.draft_filed hd
    have hrows : (s.reportRows.length : Int) < maxInt64 := by
      have hfew := h.length_numbers_le
      rw [Store.length_numbers] at hfew
      have hmax : maxInt64 = 9223372036854775807 := rfl
      omega
    have hcomplete := Report.draft_complete settings delivery catalog inspector date words
    rw [hd] at hcomplete
    obtain ⟨reports, findings, haccepts⟩ := hcounted.accepts
      (by rw [Report.draft_quantity hd]; exact hquantity) hrows
      (Or.inr (by rw [hcomplete.length_findings, hcategory]; exact hroom))
    have hissue := (Store.issue_ok_iff h).2
      ⟨reports, findings, haccepts, by rw [hcategory, hdate]; exact hleft, rfl, rfl⟩
    exact ⟨_, _, rest, create_of_issue hi hp hc hd hissue⟩

/-- **The number that is previewed is the one that is given.**  On every floor that started from empty
tables, whatever calls, items, settings and imports there were, a number is previewed.  If it has ten
characters, a report that is created next is created under it, and under no other number; otherwise
it is refused as a violation of a business rule, and the store stays as it is.  A preview answers with
the number alone, there is no store after it.  The tables take a report whose quantity is a number,
as on every delivery that is read (`Delivery.read_fits`), while the rows of findings do not use up
the ids of 64 bits. -/
theorem preview_is_given {start floor : Floor} (hreports : start.store.reports = some Numbered.empty)
    (hfindings : start.store.findings = some Numbered.empty)
    (hitems : start.store.items.isSome = true) (hr : Floor.Reaches start floor)
    (hi : Text.blank inspector = false) (hp : Text.blank delivery.product = false)
    (settings : Settings) (date : Date) (words : WordStream) :
    ∃ number catalog,
      preview ⟨floor.store, settings⟩ delivery.materialCategory date = .ok number ∧
      floor.store.activeItems = .ok catalog ∧
      (∀ report after rest,
        create ⟨floor.store, settings⟩ delivery inspector date words = (.ok report, after, rest) →
        report.number = number) ∧
      (number.length = 10 → delivery.quantity.isNaN = false →
        (floor.store.findingRows.length + (catalog.filter fun item =>
          item.active && Text.trim item.category == delivery.materialCategory).length : Int) ≤
            maxInt64 →
        ∃ report after rest,
          create ⟨floor.store, settings⟩ delivery inspector date words =
            (.ok report, after, rest) ∧ report.number = number) ∧
      (number.length ≠ 10 → ∃ e rest,
        create ⟨floor.store, settings⟩ delivery inspector date words =
          (.error e, floor.store, rest) ∧
        e.message = "业务规则违反: " ++
          StoreError.refusalText number (stem delivery.materialCategory date)) := by
  have hempty : start.store.reportRows = [] := by
    rw [Store.reportRows_eq hreports]
    rfl
  have h : floor.store.InSequence :=
    hr.keeps (fun _ _ => Store.move_inSequence) (Store.inSequence_of_empty hempty)
  have hcounted : floor.store.Counted :=
    hr.keeps (fun _ _ => Store.move_counted) (Store.counted_of_empty hreports hfindings)
  obtain ⟨catalog, hc⟩ := Store.activeItems_of_items
    (hr.keeps (P := fun s => s.items.isSome = true) (fun _ _ => Store.move_items) hitems)
  obtain ⟨hle, _⟩ := h.numbersUnder_eq delivery.materialCategory date
  refine ⟨_, catalog, h.preview_eq hcounted settings _ date, hc,
    fun _ _ _ hcreate => number_of_create h hcreate, ?_, ?_⟩
  · intro hten hquantity hroom
    rw [← String.length_toList, length_withSequence_eq_iff] at hten
    obtain ⟨report, after, rest, hcreate⟩ :=
      create_of_number_left h hcounted hc settings words hi hp hquantity hroom hten
    exact ⟨report, after, rest, hcreate, number_of_create h hcreate⟩
  · intro hlong
    rw [← String.length_toList, ne_eq, length_withSequence_eq_iff] at hlong
    have hused : (floor.store.numbersUnder delivery.materialCategory date).length = 999 := by omega
    have hrefused :=
      Store.save_used_up h settings catalog delivery inspector date words hp hused
    rw [← create_eq_save settings date hi hc] at hrefused
    refine ⟨_, _, hrefused, ?_⟩
    rw [hused]
    rfl

/-- On a floor where an item was put into empty tables, a delivery of paper gets the number that is
previewed. -/
theorem preview_is_given_paper :
    ∃ (start floor : Floor) (delivery : Delivery) (settings : Settings) (date : Date)
      (words rest : WordStream) (report : Report) (after : Store),
      start.store.reports = some Numbered.empty ∧ start.store.findings = some Numbered.empty ∧
      start.store.items.isSome = true ∧ Floor.Reaches start floor ∧
      preview ⟨floor.store, settings⟩ delivery.materialCategory date = .ok "TJY2501001" ∧
      create ⟨floor.store, settings⟩ delivery "乙" date words = (.ok report, after, rest) ∧
      report.number = "TJY2501001" := by
  let day : Date := ⟨2025, 1, 15, by decide⟩
  let paper : Delivery := ⟨"甲", "铜版纸", none, some "纸张", .zero false, 0, none, none⟩
  let item : Item := { name := "外观", category := "纸张" }
  obtain ⟨settings⟩ : Nonempty Settings := ⟨{}⟩
  obtain ⟨words⟩ : Nonempty WordStream := ⟨⟨fun _ => 0, 0⟩⟩
  have hr : Floor.Reaches ⟨Store.blank.prepare, []⟩ _ := .step (.here _) (.putItem _ item)
  obtain ⟨number, catalog, hpreview, hc, _, hgiven, _⟩ :=
    @preview_is_given paper "乙" _ _ rfl rfl rfl hr (by decide) (by decide) settings day words
  have hactive : (Store.blank.prepare.putItem item).2.activeItems = .ok [{ item with id := 1 }] :=
    @Store.activeItems_of_one _ (.ofItem 1 item) _ rfl rfl
  obtain rfl : catalog = [{ item with id := 1 }] := by
    rw [hactive] at hc
    exact (Except.ok.inj hc).symm
  have hname : number = "TJY2501001" := by
    have hfirst := @Store.InSequence.preview_eq (Store.blank.prepare.putItem item).2
      (Store.inSequence_of_empty rfl) (Store.counted_of_empty rfl rfl) settings
      paper.materialCategory day
    rw [hpreview] at hfirst
    have hnone : (Store.blank.prepare.putItem item).2.numbersUnder paper.materialCategory day = [] :=
      rfl
    rw [hnone] at hfirst
    rw [Except.ok.inj hfirst]
    decide
  obtain ⟨report, after, rest, hcreate, hnumber⟩ := hgiven (by rw [hname]; rfl) rfl (by decide)
  rw [hname] at hpreview hnumber
  exact ⟨_, _, paper, settings, day, words, rest, report, after, rfl, rfl, rfl, hr, hpreview, hcreate,
    hnumber⟩

/-- A delivery of paper whose quantity is no number. -/
def unweighedPaper : Delivery := ⟨"甲", "铜版纸", none, some "纸张", .nan, 0, none, none⟩

/-- **A number that is previewed need not be given**: over empty tables `TJY2501001` is previewed for a
delivery whose quantity is no number, and its report is refused. -/
theorem preview_not_given :
    ¬∀ (start floor : Floor) (delivery : Delivery) (inspector : String) (settings : Settings)
      (date : Date) (words : WordStream) (number : String),
      start.store.reports = some Numbered.empty → start.store.findings = some Numbered.empty →
      start.store.items.isSome = true → Floor.Reaches start floor →
      Text.blank inspector = false → Text.blank delivery.product = false →
      preview ⟨floor.store, settings⟩ delivery.materialCategory date = .ok number →
      number.length = 10 →
      ∃ report after rest,
        create ⟨floor.store, settings⟩ delivery inspector date words = (.ok report, after, rest) ∧
        report.number = number := by
  intro h
  let day : Date := ⟨2025, 1, 15, by decide⟩
  let words : WordStream := ⟨fun _ => 0, 0⟩
  have hpreview : preview ⟨Store.blank.prepare, {}⟩ unweighedPaper.materialCategory day =
      .ok "TJY2501001" := by decide +kernel
  obtain ⟨report, after, rest, hcreate, _⟩ := h ⟨Store.blank.prepare, []⟩ _ unweighedPaper "乙" {} day
    words "TJY2501001" rfl rfl rfl (.here _) (by decide) (by decide) hpreview rfl
  have hrefused : (create ⟨Store.blank.prepare, {}⟩ unweighedPaper "乙" day words).1 =
      .error (.store (.badCell "quantity")) := by decide +kernel
  rw [hcreate] at hrefused
  cases hrefused

end Desk

end MaterialInspection
