import MaterialInspection.Proofs.Sample.Words
import MaterialInspection.Report
import Mathlib.Data.List.Forall2

/-!
# Strict judging only judges

Strict judging asks more of a sample that passes by its number and has no say in anything else.  So two
runs over the same words, one with strict judging and one without, draw the same samples and leave the
same words, and what passes in the strict run passes in the other.

* `Judging.passes_iff` — the one place where strictness is looked at.
* `Draw.each_related` — draws that leave the same words stay side by side over all items.
* `Report.draft_strictness` — two reports on one delivery.
-/

set_option autoImplicit false

namespace MaterialInspection

/-! ## Samples -/

namespace Judging

variable {j : Judging} {item : Item} {value : String}

/-- A sample passes whatever number it starts with: it is one of the words that always pass, the target
text, or a hold time that is long enough. -/
def PassesByText (item : Item) (value : String) : Prop :=
  value ∈ accepted ∨ (item.target ≠ "" ∧ value = item.target) ∨
    (item.kind = .holdTime ∧ holdsLongEnough item.target value = true)

theorem numberPasses_iff {target : String} : j.numberPasses target value = true ↔
    ∃ x, leadingNumber? value.toList = some x ∧
      (j.strict = true → (Criterion.read target).contains x = true) := by
  unfold numberPasses
  cases leadingNumber? value.toList with
  | none => simp
  | some x =>
    cases j.strict with
    | false => simp
    | true => simp

/-- **A sample passes by its text, or by its number, which strict judging holds against the criterion.** -/
theorem passes_iff : j.passes item value = true ↔
    PassesByText item value ∨ ∃ x, leadingNumber? value.toList = some x ∧
      (j.strict = true → (Criterion.read item.target).contains x = true) := by
  rw [← numberPasses_iff]
  unfold passes PassesByText
  simp only [Bool.or_eq_true, Bool.and_eq_true, List.contains_iff_mem, bne_iff_ne, beq_iff_eq, or_assoc]

/-- What passes under any judging passes under one that is not strict. -/
theorem passes_of_passes (h : j.passes item value = true) : passes ⟨false⟩ item value = true := by
  rcases passes_iff.1 h with htext | ⟨x, hx, _⟩
  · exact passes_iff.2 (.inl htext)
  · exact passes_iff.2 (.inr ⟨x, hx, nofun⟩)

theorem judge_of_judge {values : List String} (h : j.judge item values = .pass) :
    judge ⟨false⟩ item values = .pass := by
  rw [judge_eq_pass_iff] at h ⊢
  exact fun value hvalue => passes_of_passes (h value hvalue)

end Judging

/-! ## Draws side by side -/

/-- Draws that give related values and leave the same words do so over all items. -/
theorem Draw.each_related {α β γ : Type} {R : β → γ → Prop} {f : α → Draw β} {g : α → Draw γ}
    (h : ∀ a s, (f a s).2 = (g a s).2 ∧ R (f a s).1 (g a s).1) (as : List α) (s : WordStream) :
    (each f as s).2 = (each g as s).2 ∧ List.Forall₂ R (each f as s).1 (each g as s).1 := by
  induction as generalizing s with
  | nil => exact ⟨rfl, .nil⟩
  | cons a as ih =>
    obtain ⟨hrest, hgiven⟩ := h a s
    obtain ⟨hrests, hothers⟩ := ih (f a s).2
    simp only [each]
    rw [← hrest]
    exact ⟨hrests, .cons hgiven hothers⟩

/-! ## Findings -/

namespace Finding

/-- A finding apart from its verdict. -/
def unjudged (f : Finding) : Finding := { f with verdict := .pass }

/-- Two findings that differ in their verdicts at most, of which the second passes if the first does. -/
structure Eases (strict loose : Finding) : Prop where
  same : strict.unjudged = loose.unjudged
  passes : strict.verdict = .pass → loose.verdict = .pass

variable {strict loose : List Finding}

theorem map_unjudged (h : List.Forall₂ Eases strict loose) :
    strict.map unjudged = loose.map unjudged := by
  induction h with
  | nil => rfl
  | cons hfirst _ ih => rw [List.map_cons, List.map_cons, hfirst.same, ih]

theorem resultOf_of_eases (h : List.Forall₂ Eases strict loose) (hpass : Report.resultOf strict = .pass) :
    Report.resultOf loose = .pass := by
  unfold Report.resultOf at *
  rw [Verdict.all_eq_pass_iff, List.forall_mem_map] at *
  induction h with
  | nil => nofun
  | cons hfirst _ ih =>
    obtain ⟨hhead, htail⟩ := List.forall_mem_cons.1 hpass
    exact List.forall_mem_cons.2 ⟨hfirst.passes hhead, ih htail⟩

end Finding

namespace Settings

variable (s : Settings)

/-- The settings with strict judging or without it. -/
def judged (strict : Bool) : Settings := { s with judging := ⟨strict⟩ }

/-- The samples of an item are drawn without a look at strictness. -/
theorem inspect_judged (strict : Bool) (item : Item) (count : Nat) (words : WordStream) :
    (s.judged strict).inspect item count words =
      (⟨item.id, item.name, (s.sample.values item count words).1,
        Judging.judge ⟨strict⟩ item (s.sample.values item count words).1, item.unit⟩,
        (s.sample.values item count words).2) := rfl

theorem inspect_eases (item : Item) (count : Nat) (words : WordStream) :
    ((s.judged true).inspect item count words).2 = ((s.judged false).inspect item count words).2 ∧
      ((s.judged true).inspect item count words).1.Eases
        ((s.judged false).inspect item count words).1 := by
  rw [inspect_judged, inspect_judged]
  refine ⟨rfl, ?_, Judging.judge_of_judge⟩
  unfold Finding.unjudged
  dsimp only

theorem takesWords_inspectAll (items : List Item) (count : Nat) :
    (s.inspectAll items count).TakesWords :=
  Draw.takesWords_each (fun item => (s.sample.takesWords_values item count).map _) items

end Settings

/-! ## Reports -/

namespace Report

/-- A report apart from its verdicts. -/
def unjudged (r : Report) : Report :=
  { r with result := .pass, findings := r.findings.map Finding.unjudged }

/-- Two reports that differ in their verdicts at most, of which the second passes wherever the first
does. -/
structure Eases (strict loose : Report) : Prop where
  same : strict.unjudged = loose.unjudged
  findings : List.Forall₂ Finding.Eases strict.findings loose.findings
  passes : strict.result = .pass → loose.result = .pass

/-- **Strict judging only judges.**  Whatever the delivery, the catalog, the settings and the words, the
report that is drawn with strict judging and the one that is drawn without it take the same words and
agree in everything but verdicts, and what passes in the strict one, a finding or the report, passes in
the other.  Streams of words are taken as `Draw.maxRounds` says. -/
theorem draft_strictness (s : Settings) (delivery : Delivery) (catalog : List Item) (inspector : String)
    (date : Date) (words : WordStream) :
    ∃ n, (draft (s.judged true) delivery catalog inspector date words).2 = words.after n ∧
      (draft (s.judged false) delivery catalog inspector date words).2 = words.after n ∧
      (draft (s.judged true) delivery catalog inspector date words).1.Eases
        (draft (s.judged false) delivery catalog inspector date words).1 := by
  obtain ⟨hrest, hfindings⟩ := Draw.each_related
    (fun item words => s.inspect_eases item (s.plan.size delivery.packages) words)
    (itemsFor catalog delivery.materialCategory) words
  obtain ⟨n, hn⟩ := (s.judged true).takesWords_inspectAll
    (itemsFor catalog delivery.materialCategory) (s.plan.size delivery.packages) words
  refine ⟨n, hn.rest, hrest.symm.trans hn.rest, ?_, hfindings, Finding.resultOf_of_eases hfindings⟩
  unfold unjudged draft Draw.map
  dsimp only
  exact congrArg _ (Finding.map_unjudged hfindings)

/-- A catalog of a grammage whose samples miss the criterion and a thickness whose samples are drawn. -/
def grammageAndThickness : List Item :=
  [{ name := "克重", criteria := "240-260", category := "纸张",
     rule := some "\x7b\"type\":\"fixed\",\"value\":\"300\"\x7d" },
   { name := "厚度", criteria := "0.04~0.06", category := "纸张", order := 1 }]

/-- The report on a delivery of board whose packages were not counted, with one sample of each item. -/
def boardReport (strict : Bool) : Report × WordStream :=
  draft (Settings.judged { plan := { unknownSize := 1 } } strict)
    ⟨"供应商A", "白板纸", none, none, .zero false, 0, none, none⟩ grammageAndThickness "张三"
    ⟨2025, 4, 1, by decide⟩ (.ofWords #[5] 0)

/-- The strict report on the board fails by its grammage, which the other report lets pass; the drawn
thickness is the same and passes in both. -/
theorem draft_strictness_board :
    (boardReport true).2 = (boardReport false).2 ∧
      (boardReport true).1.unjudged = (boardReport false).1.unjudged ∧ (boardReport true).2.used = 1 ∧
      (boardReport true).1.findings.map (·.verdict) = [.fail, .pass] ∧
      (boardReport true).1.result = .fail ∧
      (boardReport false).1.findings.map (·.verdict) = [.pass, .pass] ∧
      (boardReport false).1.result = .pass := by
  have hitems : itemsFor grammageAndThickness "纸张" = grammageAndThickness := by
    have happly : grammageAndThickness.filter (fun item =>
        item.active && item.appliesTo "纸张" true) = grammageAndThickness := by
      decide +kernel
    unfold itemsFor inOrder
    rw [happly]
    exact List.mergeSort_of_pairwise (by decide)
  obtain ⟨n, hstrict, hloose, heases⟩ := draft_strictness { plan := { unknownSize := 1 } }
    ⟨"供应商A", "白板纸", none, none, .zero false, 0, none, none⟩ grammageAndThickness "张三"
    ⟨2025, 4, 1, by decide⟩ (.ofWords #[5] 0)
  refine ⟨hstrict.trans hloose.symm, heases.same, ?_⟩
  have hcategory : Delivery.materialCategory
      ⟨"供应商A", "白板纸", none, none, .zero false, 0, none, none⟩ = "纸张" := by
    decide +kernel
  unfold boardReport draft
  dsimp only
  rw [hcategory, hitems]
  decide +kernel

end Report

end MaterialInspection
