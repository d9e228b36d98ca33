import MaterialInspection.Proofs.Report.Complete
import MaterialInspection.Proofs.SamplingPlan

/-!
# Findings without samples

A finding on no samples passes, so a report passes unseen where the plan has no samples for a delivery.
The desk takes its plan from the texts in the store as they are: samples that are made for an inspector
are never less than one, and those of a report are as many as the texts write, also none.

* `Desk.openOn_settings` — the settings of a desk are those that the texts in its store write.
* `Report.Complete.unsampled_iff` — when a report has a finding that passes on no samples.
* `Desk.reports_sampled` — for which texts no report has one, with `Desk.reports_unsampled`, where one
  has.
-/

set_option autoImplicit false

namespace MaterialInspection

/-! ## The settings of a desk -/

namespace Store

/-- The text of a setting in the store. -/
def settingText (s : Store) (key : SettingKey) : Option String :=
  s.settings.bind fun rows => lookupSetting rows globalScope key.name

theorem loadSettings_prepare (s : Store) :
    s.prepare.loadSettings = .ok (Settings.load s.settingText) := by
  unfold loadSettings settingText
  cases hs : s.settings with
  | none =>
    have hprepared : s.prepare.settings = some [] := by
      unfold prepare
      rw [hs, Option.getD_none]
    rw [hprepared]
    rfl
  | some rows =>
    have hprepared : s.prepare.settings = some rows := by
      unfold prepare
      rw [hs, Option.getD_some]
    rw [hprepared]
    rfl

end Store

/-- A desk works with the settings that the texts in its store write. -/
theorem Desk.openOn_settings (s : Store) :
    (openOn s).settings = Settings.load s.settingText := by
  unfold openOn
  dsimp only
  rw [Store.loadSettings_prepare]
  unfold withSettings
  dsimp only
  rw [Nat.max_eq_left (Settings.one_le_sampleCount s.settingText)]

/-! ## Findings on no samples -/

namespace Finding

variable {judging : Judging} {count : Nat} {items : List Item} {findings : List Finding} {f : Finding}

theorem exists_isOn (h : List.Forall₂ (IsOn judging count) items findings) (hf : f ∈ findings) :
    ∃ item, IsOn judging count item f := by
  induction h with
  | nil => cases hf
  | cons hon _ ih =>
    rcases List.mem_cons.1 hf with rfl | hf
    · exact ⟨_, hon⟩
    · exact ih hf

end Finding

namespace Report

variable {settings : Settings} {catalog : List Item} {delivery : Delivery} {r : Report}

/-- A finding passes without a sample. -/
def Unsampled (r : Report) : Prop := ∃ f ∈ r.findings, f.values = [] ∧ f.verdict = .pass

/-- Each finding of a complete report has as many samples as the plan asks for, and passes if there are
none. -/
theorem Complete.values (h : r.Complete settings catalog delivery) :
    ∀ f ∈ r.findings, f.values.length = settings.plan.size delivery.packages ∧
      (f.values = [] → f.verdict = .pass) := by
  obtain ⟨items, _, hfindings, _⟩ := h.findings
  rw [h.sampleSize] at hfindings
  intro f hf
  obtain ⟨item, hon⟩ := Finding.exists_isOn hfindings hf
  refine ⟨hon.samples, fun hnone => hon.verdict.2 ?_⟩
  rw [hnone]
  nofun

/-- A report has a finding that passes on no samples exactly when it has findings at all and the plan
has no samples for its packages. -/
theorem Complete.unsampled_iff (h : r.Complete settings catalog delivery) :
    r.Unsampled ↔ r.findings ≠ [] ∧ settings.plan.size delivery.packages = 0 := by
  constructor
  · rintro ⟨f, hf, hnone, _⟩
    refine ⟨List.ne_nil_of_mem hf, ?_⟩
    rw [← (h.values f hf).1, hnone, List.length_nil]
  · rintro ⟨hfindings, hzero⟩
    obtain ⟨f, hf⟩ := List.exists_mem_of_ne_nil r.findings hfindings
    obtain ⟨hlength, hpass⟩ := h.values f hf
    have hnone : f.values = [] := List.length_eq_zero_iff.1 (hlength.trans hzero)
    exact ⟨f, hf, hnone, hpass hnone⟩

end Report

namespace Desk

variable {d : Desk}

theorem samplesFor_pos (hcount : 1 ≤ d.settings.sampleCount) (size : Option Nat) :
    0 < d.samplesFor size := by
  unfold samplesFor
  dsimp only
  split
  · exact hcount
  · omega

/-- Samples that are made for an inspector are at least one of each item, if the settings have one. -/
theorem values_of_generate (hcount : 1 ≤ d.settings.sampleCount) {category : String}
    {size : Option Nat} {words rest : WordStream} {findings : List Finding}
    (h : d.generate category size words = (.ok findings, rest)) :
    ∀ f ∈ findings, f.values ≠ [] := by
  unfold generate at h
  dsimp only at h
  split at h
  · cases h
  · rename_i items hitems
    rw [Prod.mk.injEq, Except.ok.injEq] at h
    rw [← h.1]
    intro f hf
    obtain ⟨item, hon⟩ :=
      Finding.exists_isOn (Draw.forall₂_each (d.settings.inspect_isOn _) items words) hf
    rw [← List.length_pos_iff, hon.samples]
    exact samplesFor_pos hcount size

/-- **Whom the plan leaves without samples.**  A desk works with the plan that the texts in its store
write.  With it every number of packages has at least one sample exactly when neither the text of the
default nor, unless the tiers hold every number, that of the largest size is a zero, and no tier that
can decide has size zero.  What is made for an inspector has at least one sample of each item in any
case.  A report, whether it is only drawn or created, has a finding that passes on no samples exactly
when it has findings and the plan has no samples for its packages. -/
theorem reports_sampled (s : Store) :
    (openOn s).settings = Settings.load s.settingText ∧ 1 ≤ (openOn s).settings.sampleCount ∧
    ((∀ packages, minInt32 ≤ packages → packages ≤ maxInt32 →
        1 ≤ (openOn s).settings.plan.size packages) ↔
      ¬Settings.WritesZero s.settingText .unknownSize ∧
        (¬Settings.WritesZero s.settingText .largestSize ∨
          ∃ tier ∈ (openOn s).settings.plan.tiers, tier.limit = maxInt32) ∧
        ∀ limit tier, 0 < limit → (openOn s).settings.plan.firstOf? limit = some tier →
          tier.size ≠ 0) ∧
    (∀ category size words findings rest,
      (openOn s).generate category size words = (.ok findings, rest) →
      ∀ f ∈ findings, f.values ≠ []) ∧
    (∀ delivery catalog inspector date words,
      let drawn := (Report.draft (openOn s).settings delivery catalog inspector date words).1
      drawn.Unsampled ↔
        drawn.findings ≠ [] ∧ (openOn s).settings.plan.size delivery.packages = 0) ∧
    ∀ delivery inspector date words rest report after,
      (openOn s).create delivery inspector date words = (.ok report, after, rest) →
      (report.Unsampled ↔
        report.findings ≠ [] ∧ (openOn s).settings.plan.size delivery.packages = 0) := by
  have hcount : 1 ≤ (openOn s).settings.sampleCount := by
    rw [openOn_settings]
    exact Settings.one_le_sampleCount _
  refine ⟨openOn_settings s, hcount, ?_, ?_, ?_, ?_⟩
  · rw [openOn_settings]
    exact Settings.load_samples_iff _
  · exact fun category size words findings rest h => values_of_generate hcount h
  · intro delivery catalog inspector date words
    exact (Report.draft_complete _ delivery catalog inspector date words).unsampled_iff
  · intro delivery inspector date words rest report after h
    obtain ⟨catalog, draft, _, hd, _, hreport⟩ := create_ok h
    have hcomplete := Report.draft_complete (openOn s).settings delivery catalog inspector date words
    rw [hd] at hcomplete
    rw [hreport]
    exact (hcomplete.with_number report.number draft.quantity).unsampled_iff

/-- A store with one item of paper, and a zero for the number of samples of deliveries whose packages
were not counted. -/
def zeroSizeStore : Store :=
  ((Store.blank.prepare.setSetting SettingKey.unknownSize.name "0").2.putItem
    { name := "外观", category := "纸张" }).2

/-- Over this store a report on uncounted boxes passes, and its one finding has no samples. -/
theorem reports_sampled_uncounted :
    ∃ (delivery : Delivery) (date : Date) (words rest : WordStream) (report : Report) (after : Store),
      (openOn zeroSizeStore).create delivery "张三" date words = (.ok report, after, rest) ∧
      report.Unsampled ∧ report.result = .pass := by
  let boxes : Delivery := ⟨"供应商A", "纸", none, none, .zero false, 0, none, none⟩
  let day : Date := ⟨2025, 1, 15, by decide⟩
  let words : WordStream := ⟨fun _ => 0, 0⟩
  have hok : ((openOn zeroSizeStore).create boxes "张三" day words).1.toOption.map
      (fun r => (r.findings, r.result)) = some ([⟨1, "外观", [], .pass, ""⟩], .pass) := by
    decide +kernel
  cases hcreate : (openOn zeroSizeStore).create boxes "张三" day words with
  | mk outcome left =>
    obtain ⟨after, rest⟩ := left
    rw [hcreate] at hok
    cases outcome with
    | error e => cases hok
    | ok report =>
      have hfields := Option.some.inj hok
      have hfindings : report.findings = [⟨1, "外观", [], .pass, ""⟩] := congrArg Prod.fst hfields
      obtain ⟨_, _, _, _, _, hcreated⟩ := reports_sampled zeroSizeStore
      refine ⟨boxes, day, words, rest, report, after, hcreate, ?_, congrArg Prod.snd hfields⟩
      refine (hcreated boxes "张三" day words rest report after hcreate).2 ⟨?_, by decide +kernel⟩
      rw [hfindings]
      exact List.cons_ne_nil _ _

/-- **A stored text can leave a delivery without samples**: packages that were not counted get none over
a store with a zero for them. -/
theorem reports_unsampled :
    ¬∀ (s : Store) (packages : Int), minInt32 ≤ packages → packages ≤ maxInt32 →
      1 ≤ (openOn s).settings.plan.size packages := by
  intro h
  have hzero : (openOn zeroSizeStore).settings.plan.size 0 = 0 := by decide +kernel
  have hsize := h zeroSizeStore 0 (by decide) (by decide)
  rw [hzero] at hsize
  exact absurd hsize (by decide)

end Desk

end MaterialInspection
