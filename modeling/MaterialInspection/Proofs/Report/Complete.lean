import MaterialInspection.Proofs.Report.ReadBack
import MaterialInspection.Proofs.StableSort

/-!
# Reports are complete

A report has one finding for each item that its delivery is inspected on, in the order of the catalog,
with as many samples of each as its plan asks for, and it passes exactly when every sample does.

* `Report.Complete` — all of this as one property of a report and the catalog that it was drawn from.
* `Report.draft_complete` — every report that is drawn has it, whatever the catalog and the words.
* `Desk.reports_complete` — so has every report that is created, also when it is looked up later.
-/

set_option autoImplicit false

namespace MaterialInspection

/-! ## What a complete report is -/

/-- A finding on an item names the item and its unit, has a given number of samples, and passes
exactly when each of them does. -/
structure Finding.IsOn (judging : Judging) (count : Nat) (item : Item) (f : Finding) : Prop where
  id : f.itemId = item.id
  name : f.itemName = item.name
  unit : f.unit = item.unit
  samples : f.values.length = count
  verdict : f.verdict = .pass ↔ ∀ value ∈ f.values, judging.passes item value = true

namespace Report

/-- Items put in order: from the lowest order to the highest, and those of one order as they stood. -/
structure Arranged (items arranged : List Item) : Prop where
  same : arranged.Perm items
  ascending : arranged.Pairwise fun a b => a.order ≤ b.order
  places : ∀ order, (arranged.filter fun item => item.order == order) =
    items.filter fun item => item.order == order

/-- A report on a delivery that is complete with respect to a catalog. -/
structure Complete (settings : Settings) (catalog : List Item) (delivery : Delivery) (r : Report) :
    Prop where
  category : r.category = delivery.materialCategory
  sampleSize : r.sampleSize = settings.plan.size delivery.packages
  findings : ∃ items,
    Arranged (catalog.filter fun item => item.active && Text.trim item.category == r.category) items ∧
      List.Forall₂ (Finding.IsOn settings.judging r.sampleSize) items r.findings ∧
      (r.result = .pass ↔ List.Forall₂
        (fun item f => ∀ value ∈ f.values, settings.judging.passes item value = true)
        items r.findings)

/-! ## Drafts are complete -/

theorem inOrder_arranged (items : List Item) : Arranged items (inOrder items) where
  same := List.mergeSort_perm items _
  ascending := Sorting.pairwise_mergeSort_key Item.order items
  places := fun order => Sorting.filter_mergeSort_key Item.order order items

end Report

/-- The category of a delivery has no blanks at its ends. -/
theorem Delivery.trim_materialCategory (d : Delivery) :
    Text.trim d.materialCategory = d.materialCategory := by
  unfold materialCategory
  dsimp only
  split
  · cases Material.infer d.product with
    | paper => decide
    | film => decide
    | chemical => decide
    | other => decide
  · exact Text.trim_trim _

/-- Whatever is drawn on an item is a finding on it. -/
theorem Settings.inspect_isOn (s : Settings) (count : Nat) (item : Item) (words : WordStream) :
    Finding.IsOn s.judging count item (s.inspect item count words).1 where
  id := rfl
  name := rfl
  unit := rfl
  samples := s.sample.length_values item count words
  verdict := Judging.judge_eq_pass_iff _

namespace Report

/-- Findings on items pass together exactly when every sample passes its item. -/
theorem resultOf_eq_pass_iff {judging : Judging} {count : Nat} {items : List Item}
    {findings : List Finding} (h : List.Forall₂ (Finding.IsOn judging count) items findings) :
    resultOf findings = .pass ↔ List.Forall₂
      (fun item f => ∀ value ∈ f.values, judging.passes item value = true) items findings := by
  unfold resultOf
  rw [Verdict.all_eq_pass_iff]
  induction h with
  | nil => simp
  | cons hon _ ih =>
    rw [List.map_cons, List.forall_mem_cons, ih, hon.verdict, List.forall₂_cons]

/-- **Every report that is drawn is complete.** -/
theorem draft_complete (settings : Settings) (delivery : Delivery) (catalog : List Item)
    (inspector : String) (date : Date) (words : WordStream) :
    (Report.draft settings delivery catalog inspector date words).1.Complete settings catalog
      delivery := by
  have happlies : (catalog.filter fun item =>
        item.active && item.appliesTo delivery.materialCategory true) =
      catalog.filter fun item =>
        item.active && Text.trim item.category == delivery.materialCategory := by
    simp only [Item.appliesTo, delivery.trim_materialCategory, Bool.not_true, Bool.false_and,
      Bool.or_false]
  have hfindings : List.Forall₂
      (Finding.IsOn settings.judging (settings.plan.size delivery.packages))
      (itemsFor catalog delivery.materialCategory)
      (settings.inspectAll (itemsFor catalog delivery.materialCategory)
        (settings.plan.size delivery.packages) words).1 :=
    Draw.forall₂_each (settings.inspect_isOn (settings.plan.size delivery.packages)) _ words
  have harranged := inOrder_arranged
    (catalog.filter fun item => item.active && item.appliesTo delivery.materialCategory true)
  rw [← itemsFor, happlies] at harranged
  unfold Report.draft Draw.map
  dsimp only
  generalize settings.inspectAll _ _ words = drawn at hfindings ⊢
  constructor
  · dsimp only
  · dsimp only
  · dsimp only
    exact ⟨_, harranged, hfindings, resultOf_eq_pass_iff hfindings⟩

/-- A complete report has as many findings as there are items that it is on. -/
theorem Complete.length_findings {settings : Settings} {catalog : List Item} {delivery : Delivery}
    {r : Report} (h : r.Complete settings catalog delivery) :
    r.findings.length =
      (catalog.filter fun item => item.active && Text.trim item.category == r.category).length := by
  obtain ⟨items, harranged, hfindings, _⟩ := h.findings
  rw [← hfindings.length_eq, harranged.same.length_eq]

/-- Its number and its quantity have no say in whether a report is complete. -/
theorem Complete.with_number {settings : Settings} {catalog : List Item} {delivery : Delivery}
    {r : Report} (h : r.Complete settings catalog delivery) (number : String) (quantity : Binary64) :
    Complete settings catalog delivery { r with number, quantity } where
  category := h.category
  sampleSize := h.sampleSize
  findings := h.findings

end Report

namespace Desk

/-! ## Created reports are complete -/

/-- A report that was created is found as it was drawn, under its number and with its quantity as a
column for numbers keeps it, whatever happens at the desks in between. -/
theorem find_of_issue {s after : Store} {settings : Settings} {catalog : List Item}
    {delivery : Delivery} {inspector : String} {date : Date} {words rest : WordStream}
    {draft : Report} {number : String}
    (hd : Report.draft settings delivery catalog inspector date words = (draft, rest))
    (hi : s.issue draft = (.ok number, after)) (hsize : (draft.sampleSize : Int) ≤ maxInt64)
    (hpackages : minInt32 ≤ delivery.packages ∧ delivery.packages ≤ maxInt32)
    (hids : ∀ item ∈ catalog, minInt64 ≤ item.id ∧ item.id ≤ maxInt64) (hrefers : s.Refers)
    {calls : List Call} {floor : Floor} (hr : Floor.Reaches ⟨after, calls⟩ floor)
    (later : Settings) :
    Desk.find ⟨floor.store, later⟩ number =
      .ok { draft with number, quantity := NumberCell.unsignedZero draft.quantity } := by
  have hkeeps : floor.store.Keeps number draft :=
    hr.keeps (fun _ _ => Store.move_keeps) (Store.keeps_of_insert hrefers hi)
  unfold find
  dsimp only
  rw [Store.findReport_of_keeps hkeeps (Report.draft_fits hd hpackages hids hsize)]

/-- **Every report is complete.**  Whatever the catalog, the delivery, the settings and the words, a
report that is drawn has one finding for each active item of its category, in their order, with the
number of samples that the plan has for the packages, and it passes exactly when every sample passes
its item.  A report that is created is such a report on the catalog that was read for it, and so is
the report that is looked up under its number from then on, at any desk and whatever calls, items,
settings and imports follow.  The conditions on looking it up are those of the columns and of the
tables: packages have 32 bits, ids and the number of samples 64, and findings belong to reports.  Streams
of words are taken as `Draw.maxRounds` says. -/
theorem reports_complete :
    (∀ (settings : Settings) (delivery : Delivery) (catalog : List Item) (inspector : String)
      (date : Date) (words : WordStream),
      (Report.draft settings delivery catalog inspector date words).1.Complete settings catalog
        delivery) ∧
    ∀ (d : Desk) (delivery : Delivery) (inspector : String) (date : Date) (words rest : WordStream)
      (report : Report) (after : Store),
      d.create delivery inspector date words = (.ok report, after, rest) →
      ∃ catalog, d.store.activeItems = .ok catalog ∧
        report.Complete d.settings catalog delivery ∧
        ((report.sampleSize : Int) ≤ maxInt64 →
          minInt32 ≤ delivery.packages ∧ delivery.packages ≤ maxInt32 →
          (∀ item ∈ catalog, minInt64 ≤ item.id ∧ item.id ≤ maxInt64) → d.store.Refers →
          ∀ calls floor later, Floor.Reaches ⟨after, calls⟩ floor →
            ∃ found, Desk.find ⟨floor.store, later⟩ report.number = .ok found ∧
              found.Complete d.settings catalog delivery) := by
  refine ⟨Report.draft_complete, ?_⟩
  intro d delivery inspector date words rest report after hcreate
  obtain ⟨catalog, draft, hc, hd, hissue, hreport⟩ := create_ok hcreate
  have hdraft : draft.Complete d.settings catalog delivery := by
    have hdrawn := Report.draft_complete d.settings delivery catalog inspector date words
    rw [hd] at hdrawn
    exact hdrawn
  refine ⟨catalog, hc, ?_, ?_⟩
  · rw [hreport]
    exact hdraft.with_number report.number draft.quantity
  · intro hsize hpackages hids hrefers calls floor later hr
    rw [hreport] at hsize
    exact ⟨_, find_of_issue hd hissue hsize hpackages hids hrefers hr later,
      hdraft.with_number _ _⟩

/-- A report on boxes, created over a catalog of one item and looked up after a setting was made, has
one finding. -/
theorem reports_complete_paper :
    ∃ (d : Desk) (delivery : Delivery) (date : Date) (words rest : WordStream) (report : Report)
      (after : Store) (catalog : List Item) (floor : Floor) (found : Report),
      d.create delivery "乙" date words = (.ok report, after, rest) ∧
      d.store.activeItems = .ok catalog ∧ (report.sampleSize : Int) ≤ maxInt64 ∧
      d.store.Refers ∧ Floor.Reaches ⟨after, []⟩ floor ∧
      Desk.find ⟨floor.store, d.settings⟩ report.number = .ok found ∧
      found.Complete d.settings catalog delivery ∧ found.sampleSize = 5 ∧
      found.findings.length = 1 := by
  let day : Date := ⟨2025, 1, 15, by decide⟩
  let boxes : Delivery := ⟨"甲", "纸箱", none, some "纸张", .zero false, 0, none, none⟩
  let item : Item := { name := "外观", category := "纸张" }
  let s : Store := (Store.blank.prepare.putItem item).2
  obtain ⟨settings, hsettings⟩ : ∃ settings : Settings, settings.plan.unknownSize = 5 := ⟨{}, rfl⟩
  obtain ⟨words⟩ : Nonempty WordStream := ⟨⟨fun _ => 0, 0⟩⟩
  have hsize : settings.plan.size boxes.packages = 5 := hsettings
  have hcategory : boxes.materialCategory = "纸张" := by decide
  have hc : s.activeItems = .ok [{ item with id := 1 }] :=
    @Store.activeItems_of_one _ (.ofItem 1 item) _ rfl rfl
  have hone : ∀ r : Report, r.Complete settings [{ item with id := 1 }] boxes →
      r.sampleSize = 5 ∧ r.findings.length = 1 := by
    intro r h
    refine ⟨by rw [h.sampleSize, hsize], ?_⟩
    rw [h.length_findings, h.category, hcategory]
    decide
  cases hd : Report.draft settings boxes [{ item with id := 1 }] "乙" day words with
  | mk draft rest =>
    have hcomplete := reports_complete.1 settings boxes [{ item with id := 1 }] "乙" day words
    rw [hd] at hcomplete
    obtain ⟨hsamples, hlength⟩ := hone draft hcomplete
    have hrefers : s.Refers := by
      rintro _ ⟨⟩ row hrow
      cases hrow
    have hquantity : draft.quantity.isNaN = false := by
      rw [Report.draft_quantity hd]
      rfl
    obtain ⟨number, after, hissue⟩ : ∃ number after, s.issue draft = (.ok number, after) := by
      refine ⟨_, _, (Store.issue_ok_iff (Store.inSequence_of_empty rfl)).2
        ⟨Numbered.empty, Numbered.empty, ⟨rfl, rfl, by decide, hquantity, Or.inr ?_⟩, ?_, rfl, rfl⟩⟩
      · rw [hlength]
        decide
      · exact Nat.zero_lt_succ 998
    have hcreate := create_of_issue (d := ⟨s, settings⟩) (by decide) (by decide) hc hd hissue
    have hlong : ((draft.sampleSize : Nat) : Int) ≤ maxInt64 := by
      rw [hsamples]
      decide
    have hr : Floor.Reaches ⟨after, []⟩ _ := .step (.here _) (.setSetting _ "generator" "x")
    obtain ⟨catalog, hc', _, hfind⟩ := reports_complete.2 _ boxes "乙" day words rest _ after hcreate
    obtain rfl : catalog = [{ item with id := 1 }] := by
      rw [hc] at hc'
      exact (Except.ok.inj hc').symm
    obtain ⟨found, hfound, hcompleted⟩ := hfind hlong (by decide)
      (by
        intro i hi
        rw [List.mem_singleton.1 hi]
        decide)
      hrefers [] _ settings hr
    exact ⟨⟨s, settings⟩, boxes, day, words, rest, _, after, _, _, found, hcreate, hc, hlong, hrefers,
      hr, hfound, hcompleted, hone found hcompleted⟩

end Desk

end MaterialInspection
