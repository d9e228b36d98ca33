import MaterialInspection.Proofs.Sample.Accepted
import MaterialInspection.Proofs.Sample.Offset
import MaterialInspection.Proofs.Sample.Tack
import MaterialInspection.Report

/-!
# Judging one's own samples

Samples are made by the kind of their item, its rule, its bound or its standard, and judged by words,
by the target text, by whole hours and by the number they start with.  For an item without a rule the
two fit together but for two gaps.  A hold time without a target is sampled by the text that the
settings have for it, which the judge knows nothing of; and a sample around a number may be beyond the
largest double, so that it does not start with a number.

* `Judging.passes_of_reads` — in default judging whatever starts with a number passes.
* `Settings.inspect_own_pass` — all own samples of an item without a rule pass exactly outside the two
  gaps, and so always for a standard of moderate size and a hold time with a target.
* `Settings.inspect_own_fail` — an item in each gap.
-/

set_option autoImplicit false

namespace MaterialInspection

open Number Binary64 Sample

seal unitsPerOne unitsLimit twoTo tenTo Criterion.read

/-! ## Blanks and digits -/

namespace Text

theorem firstInteger?_of_blank {s : String} (h : blank s = true) : firstInteger? s.toList = none := by
  have hall : ∀ c ∈ s.toList, (!isDecimalDigit c) = true := by
    intro c hc
    rw [isDecimalDigit_of_isBlank (List.all_eq_true.1 h c hc)]
    rfl
  have hdrop : s.toList.dropWhile (fun c => !isDecimalDigit c) = [] := by
    rw [← List.append_nil s.toList, List.dropWhile_append_of_pos hall, List.dropWhile_nil]
  unfold firstInteger?
  rw [hdrop]
  rfl

end Text

/-! ## The judge -/

namespace Judging

variable {j : Judging} {item : Item} {value : String}

/-- In default judging whatever starts with a number passes. -/
theorem passes_of_reads (h : ∃ x, leadingNumber? value.toList = some x) :
    passes {} item value = true := by
  obtain ⟨x, hx⟩ := h
  have hnumber : numberPasses {} item.target value = true := by
    unfold numberPasses
    rw [hx]
    rfl
  unfold passes
  rw [hnumber, Bool.or_true]

theorem passes_allRight : passes j item allRight = true := by
  have hword : accepted.contains allRight = true := by decide
  unfold passes
  rw [hword]
  simp

theorem passes_target (h : item.target ≠ "") : passes j item item.target = true := by
  have htext : (item.target != "" && item.target == item.target) = true := by simp [h]
  unfold passes
  rw [htext]
  simp

/-- The text for a hold time without a target is none that the judge knows. -/
theorem passes_holdTime (hb : Text.blank item.target = true) :
    passes j item "≥ 24h" = false := by
  have hword : accepted.contains "≥ 24h" = false := by decide
  have htext : ("≥ 24h" == item.target) = false := by
    rw [beq_eq_false_iff_ne]
    intro he
    rw [← he] at hb
    revert hb
    decide
  have hhours : holdsLongEnough item.target "≥ 24h" = false := by
    unfold holdsLongEnough
    rw [Text.firstInteger?_of_blank hb]
    split
    · rename_i hnone
      cases hnone
    · rfl
  have hnumber : leadingNumber? "≥ 24h".toList = none := by decide
  unfold passes numberPasses
  rw [hword, htext, hhours, hnumber]
  simp

end Judging

/-! ## What each kind of item is sampled by -/

namespace Sample

variable {item : Item}

/-- A draw whose every text passes in default judging. -/
def AllPass (item : Item) (draw : Draw String) : Prop :=
  ∀ text, Draw.Yields draw text → Judging.passes {} item text = true

theorem allPass_certain {text : String} :
    AllPass item (Draw.certain text) ↔ Judging.passes {} item text = true := by
  constructor
  · intro h
    exact h text (Draw.yields_certain.2 rfl)
  · intro h other hother
    rw [Draw.yields_certain.1 hother]
    exact h

/-- A hold time passes when it has a target. -/
theorem allPass_holdTime (hk : item.kind = .holdTime) :
    AllPass item (Settings.sampler {} item) ↔ Text.blank item.target = false := by
  have hdraw : Settings.sampler {} item =
      Draw.certain (if Text.blank item.target then "≥ 24h" else item.target) := by
    unfold Settings.sampler
    rw [hk]
  rw [hdraw, allPass_certain]
  cases hb : Text.blank item.target with
  | true =>
    rw [if_pos rfl, Judging.passes_holdTime hb]
    simp
  | false =>
    have hne : item.target ≠ "" := by
      intro he
      rw [he] at hb
      revert hb
      decide
    rw [if_neg Bool.false_ne_true, Judging.passes_target hne]
    simp

/-- A tack passes by its ball number. -/
theorem allPass_tack (hk : item.kind = .tack) : AllPass item (Settings.sampler {} item) := by
  intro text ht
  have hs : Settings.BallsFit {} := by decide
  obtain ⟨n, hlow, hhigh, rfl⟩ := (Settings.yields_tack hs hk text).1 ht
  have hn : InInt64 n :=
    ⟨Int.le_trans (hs.start item).1 hlow, Int.le_trans hhigh (hs.largest item).2⟩
  obtain ⟨x, hx, _⟩ := leadingNumber?_ballText hn
  exact Judging.passes_of_reads ⟨x, hx⟩

/-- A sample that is made from a bound reads back. -/
theorem allPass_bounded (h : Bounded item) : AllPass item (Settings.sampler {} item) := by
  intro text ht
  obtain ⟨hw, _, hp⟩ := Settings.sampler_written {} h
  obtain ⟨_, _, _, _, _, _, hreads⟩ := hw.reads hp
  obtain ⟨_, x, _, hx, _⟩ := hreads text ht
  exact Judging.passes_of_reads ⟨x, hx⟩

/-! ## Samples around a number -/

/-- A text with a number of decimals passes as a number, or as the target. -/
theorem passes_toFixed_iff (hk : item.kind ≠ .holdTime) {x : Binary64} {places : Nat} :
    Judging.passes {} item (x.toFixed places) = true ↔
      x.isFinite = true ∨ x.toFixed places = item.target := by
  constructor
  · intro hpass
    cases hx : x.isFinite with
    | true => exact Or.inl rfl
    | false =>
      right
      have hnone : leadingNumber? (x.toFixed places).toList = none := by
        rw [Option.eq_none_iff_forall_ne_some]
        intro y hy
        rw [reads_toFixed_iff.1 ⟨y, hy⟩] at hx
        cases hx
      have hword : Judging.accepted.contains (x.toFixed places) = false := by
        cases x with
        | nan => exact (by decide : Judging.accepted.contains (String.ofList ['N', 'a', 'N']) = false)
        | infinite negative =>
          cases negative with
          | true =>
            exact (by decide : Judging.accepted.contains (String.ofList ['-', 'i', 'n', 'f']) = false)
          | false =>
            exact (by decide : Judging.accepted.contains (String.ofList ['i', 'n', 'f']) = false)
        | finite negative units holds => cases hx
      have hhold : (item.kind == .holdTime) = false := beq_eq_false_iff_ne.2 hk
      unfold Judging.passes Judging.numberPasses at hpass
      rw [hword, hhold, hnone] at hpass
      simp only [Bool.false_or, Bool.false_and, Bool.or_false, Bool.and_eq_true, beq_iff_eq] at hpass
      exact hpass.2
  · rintro (hfinite | htarget)
    · exact Judging.passes_of_reads (reads_toFixed_iff.2 hfinite)
    · cases hx : x.isFinite with
      | true => exact Judging.passes_of_reads (reads_toFixed_iff.2 hx)
      | false =>
        rw [htarget]
        apply Judging.passes_target
        intro he
        rw [he] at htarget
        have hempty := congrArg String.toList htarget
        unfold toFixed at hempty
        rw [String.toList_ofList] at hempty
        cases x with
        | nan => cases hempty
        | infinite negative => cases negative <;> cases hempty
        | finite negative units holds => cases hx

/-- The two ends of the samples are numbers, or happen to be the target. -/
def EndsPass (item : Item) (o : Offsets) : Prop :=
  (o.least.isFinite = true ∨ o.least.toFixed o.places = item.target) ∧
    (o.greatest.isFinite = true ∨ o.greatest.toFixed o.places = item.target)

/-- Samples around a finite number pass exactly when their ends do. -/
theorem allPass_offsets {o : Offsets} (hk : item.kind ≠ .holdTime)
    (hbase : o.base.isFinite = true) : AllPass item o.sampler ↔ EndsPass item o := by
  unfold EndsPass
  rw [← passes_toFixed_iff hk, ← passes_toFixed_iff hk]
  constructor
  · intro h
    exact ⟨h _ ⟨leastWords, rfl⟩, h _ ⟨greatestWords, rfl⟩⟩
  · rintro ⟨hleast, hgreatest⟩ text ht
    obtain ⟨x, rfl, hx | rfl | rfl⟩ := o.yields_finite_or_end hbase ht
    · exact (passes_toFixed_iff hk).2 (Or.inl hx)
    · exact hleast
    · exact hgreatest

/-- The bases of the default settings are finite and at most half the largest double. -/
theorem default_bases {x : Binary64} (h : x ∈ Settings.bases {}) :
    x.isFinite = true ∧ x.abs ≤ 8e307 := by
  have hall : ∀ x ∈ Settings.bases {}, x.isFinite = true ∧ x.abs ≤ 8e307 := by decide +kernel
  exact hall x h

theorem natAbs_le_half {x : Binary64} {r : Int} (hx : At x r) (h : x.abs ≤ 8e307) :
    r.natAbs ≤ halfGreatest := by
  have hhalf : (8e307 : Binary64) ≤ .finite false halfGreatest holds_halfGreatest := by decide +kernel
  have hle := le_trans h hhalf
  rw [le_iff (rank_abs hx.rank) (at_finite _ _ _).rank] at hle
  exact Int.ofNat_le.1 hle

variable {o : Offsets}

theorem finite_base (hr : Rule.read? item.rule item.standard = none)
    (ho : Settings.offsets? {} item = some o) : o.base.isFinite = true := by
  obtain ⟨⟨fallback, hmem, hbase⟩, _⟩ := Settings.near_of_offsets hr ho
  rw [hbase]
  rcases baseOr_cases item.standard fallback with hread | hsame
  · exact finite_of_leadingNumber? hread
  · rw [hsame]
    exact (default_bases hmem).1

/-- Around a number of moderate size all samples are numbers. -/
theorem endsPass_of_moderate (hr : Rule.read? item.rule item.standard = none)
    (hm : ∀ x, leadingNumber? item.standard.toList = some x → x.abs ≤ 8e307)
    (ho : Settings.offsets? {} item = some o) : EndsPass item o := by
  obtain ⟨b, hb⟩ := at_of_finite (finite_base hr ho)
  obtain ⟨⟨fallback, hmem, hbase⟩, hspread⟩ := Settings.near_of_offsets hr ho
  obtain ⟨m, hm0, hmle, hlow, hhigh⟩ := hspread b hb
  have hsize : o.base.abs ≤ 8e307 := by
    rw [hbase]
    rcases baseOr_cases item.standard fallback with hread | hsame
    · exact hm _ hread
    · rw [hsame]
      exact (default_bases hmem).2
  have hhalf := natAbs_le_half hb hsize
  have htwo := natAbs_le_half at_two (by decide +kernel)
  rw [Int.natAbs_natCast] at htwo
  obtain ⟨hleast, hgreatest⟩ := o.ends_finite hb hlow hhigh (by omega) hhalf (by omega) (by omega)
  exact ⟨Or.inl hleast, Or.inl hgreatest⟩

/-- What an item without a rule is sampled by passes outside the two gaps. -/
theorem allPass_sampler (hr : Rule.read? item.rule item.standard = none) :
    AllPass item (Settings.sampler {} item) ↔
      (item.kind = .holdTime → Text.blank item.target = false) ∧
        ∀ o, Settings.offsets? {} item = some o → EndsPass item o := by
  cases hspecial : item.kind.isSpecial with
  | true =>
    -- hold times and tacks
    have hnone : ∀ o, Settings.offsets? {} item = some o → EndsPass item o := by
      intro o ho
      rw [Settings.offsets?_of_special {} hspecial] at ho
      cases ho
    cases hk : item.kind with
    | holdTime =>
      rw [allPass_holdTime hk]
      exact ⟨fun h => ⟨fun _ => h, hnone⟩, fun h => h.1 rfl⟩
    | tack =>
      have hhold : ItemKind.tack = .holdTime → Text.blank item.target = false := fun h => nomatch h
      exact ⟨fun _ => ⟨hhold, hnone⟩, fun _ => allPass_tack hk⟩
    | thickness => rw [hk] at hspecial; cases hspecial
    | dimension => rw [hk] at hspecial; cases hspecial
    | weight => rw [hk] at hspecial; cases hspecial
    | generic => rw [hk] at hspecial; cases hspecial
  | false =>
    have hnotHold : item.kind ≠ .holdTime := by
      intro hk
      rw [hk] at hspecial
      cases hspecial
    have hnotTack : item.kind ≠ .tack := by
      intro hk
      rw [hk] at hspecial
      cases hspecial
    have hhold : item.kind = .holdTime → Text.blank item.target = false := fun hk => absurd hk hnotHold
    cases hbound : (Criterion.read item.target).isBound with
    | true =>
      have hnone : ∀ o, Settings.offsets? {} item = some o → EndsPass item o := by
        intro o ho
        rw [Settings.offsets?_of_bound {} hr hbound] at ho
        cases ho
      exact ⟨fun _ => ⟨hhold, hnone⟩, fun _ => allPass_bounded ⟨hnotHold, hnotTack, hr, hbound⟩⟩
    | false =>
      cases ho : Settings.offsets? {} item with
      | some o =>
        rw [Settings.sampler_of_offsets ho, allPass_offsets hnotHold (finite_base hr ho)]
        constructor
        · intro hends
          refine ⟨hhold, ?_⟩
          rintro other hother
          cases hother
          exact hends
        · intro h
          exact h.2 o rfl
      | none =>
        have hnear := Settings.offsets?_of_free {} hspecial hr hbound
        rw [hnear] at ho
        rw [Settings.sampler_general {} hspecial, Settings.generalSample_near {} hr hbound,
          Settings.nearStandard_eq, ho, Option.map_none, Option.getD_none, allPass_certain]
        exact ⟨fun _ => ⟨hhold, fun o h => nomatch h⟩, fun _ => Judging.passes_allRight⟩

end Sample

/-! ## The verdict -/

namespace Settings

variable {item : Item}

theorem values_inspect (s : Settings) (item : Item) (count : Nat) (words : WordStream) :
    (s.inspect item count words).1.values = (s.sample.values item count words).1 := rfl

theorem verdict_inspect (s : Settings) (item : Item) (count : Nat) (words : WordStream) :
    (s.inspect item count words).1.verdict =
      s.judging.judge item (s.inspect item count words).1.values := rfl

/-- All verdicts on an item are passes when everything that it is sampled by passes. -/
theorem inspect_pass_iff :
    (∀ count words, (inspect {} item count words).1.verdict = .pass) ↔
      AllPass item (Sample.Settings.sampler {} item) := by
  have hverdict : ∀ count words, (inspect {} item count words).1.verdict = .pass ↔
      ∀ text ∈ (Draw.times count (Sample.Settings.sampler {} item) words).1,
        Judging.passes {} item text = true := by
    intro count words
    rw [verdict_inspect, Judging.judge_eq_pass_iff, values_inspect]
    exact Iff.rfl
  unfold AllPass
  rw [← Draw.forall_times]
  constructor
  · intro h count words
    exact (hverdict count words).1 (h count words)
  · intro h count words
    exact (hverdict count words).2 (h count words)

/-- **In default judging the own samples of an item without a rule all pass, unless the item is a hold
time without a target or the ends of its samples are beyond the largest double**; where its standard
starts with a number of moderate size, or none, only the first can be.  Streams of words are taken as
`Draw.maxRounds` says. -/
theorem inspect_own_pass (hr : Rule.read? item.rule item.standard = none) :
    ((∀ count words, (inspect {} item count words).1.verdict = .pass) ↔
      (item.kind = .holdTime → Text.blank item.target = false) ∧
        ∀ o, Sample.Settings.offsets? {} item = some o → EndsPass item o) ∧
    ((item.kind = .holdTime → Text.blank item.target = false) →
      (∀ x, leadingNumber? item.standard.toList = some x → x.abs ≤ 8e307) →
      ∀ count words, (inspect {} item count words).1.verdict = .pass) := by
  have hiff := inspect_pass_iff.trans (allPass_sampler hr)
  exact ⟨hiff, fun hhold hm => hiff.2 ⟨hhold, fun _ ho => endsPass_of_moderate hr hm ho⟩⟩

/-- A weight without a bound. -/
def grammage : Item := { name := "克重", standard := "180g/m²", criteria := "见规格书" }

/-- All samples of `180g/m²` pass. -/
theorem inspect_own_pass_grammage :
    Rule.read? grammage.rule grammage.standard = none ∧
      (grammage.kind = .holdTime → Text.blank grammage.target = false) ∧
      (∀ x, leadingNumber? grammage.standard.toList = some x → x.abs ≤ 8e307) ∧
      ∀ count words, (inspect {} grammage count words).1.verdict = .pass := by
  have hr : Rule.read? grammage.rule grammage.standard = none := rfl
  have hk : grammage.kind = .holdTime → Text.blank grammage.target = false := fun h =>
    absurd h (by decide)
  have hread : (leadingNumber? grammage.standard.toList).all (fun x => decide (x.abs ≤ 8e307)) = true := by
    decide +kernel
  have hm : ∀ x, leadingNumber? grammage.standard.toList = some x → x.abs ≤ 8e307 := by
    intro x hx
    rw [hx] at hread
    exact of_decide_eq_true hread
  exact ⟨hr, hk, hm, (inspect_own_pass hr).2 hk hm⟩

/-- A hold time without a target. -/
def holdingPower : Item := { name := "持粘性" }

/-- The digits of `1.7e308`. -/
def beyondDigits : List Char := '1' :: '7' :: List.replicate 307 '0'

/-- A thickness around a number that is near the largest double. -/
def beyond : Item := { name := "厚度", standard := String.ofList beyondDigits, criteria := "均匀" }

theorem baseOr_beyond (fallback : Binary64) :
    baseOr beyond.standard fallback = .ofDecimal false 17 307 := by
  have hdigits : beyond.standard.toList = beyondDigits := String.toList_ofList
  have hread : (leadingNumber? beyondDigits).filter (fun x => !x.same 0) =
      some (.ofDecimal false 17 307) := by decide +kernel
  unfold baseOr
  rw [hdigits, hread]
  rfl

theorem sampler_beyond : (Sample.Settings.sampler {} beyond greatestWords).1 = "inf" := by
  have hkind : beyond.kind = .thickness := by decide +kernel
  have hfree : (Criterion.read beyond.target).isBound = false := by decide +kernel
  rw [Sample.Settings.sampler_general {} (by rw [hkind]; rfl),
    Sample.Settings.generalSample_near {} rfl hfree]
  unfold Sample.Settings.nearStandard
  rw [hkind, baseOr_beyond]
  decide +kernel

/-- An item in each of the two gaps fails its own sample. -/
theorem inspect_own_fail :
    (Rule.read? holdingPower.rule holdingPower.standard = none ∧
      (inspect {} holdingPower 1 leastWords).1.values = ["≥ 24h"] ∧
      (inspect {} holdingPower 1 leastWords).1.verdict = .fail) ∧
    Rule.read? beyond.rule beyond.standard = none ∧
      (inspect {} beyond 1 greatestWords).1.values = ["inf"] ∧
      (inspect {} beyond 1 greatestWords).1.verdict = .fail := by
  have hvalues : (inspect {} beyond 1 greatestWords).1.values = ["inf"] := by
    have hone : ∀ (item : Item) words, (Sample.Settings.values {} item 1 words).1 =
        [(Sample.Settings.sampler {} item words).1] := fun _ _ => rfl
    rw [values_inspect, hone, sampler_beyond]
  have hverdict : (inspect {} beyond 1 greatestWords).1.verdict = .fail := by
    rw [verdict_inspect, hvalues]
    decide +kernel
  exact ⟨⟨rfl, by decide +kernel, by decide +kernel⟩, rfl, hvalues, hverdict⟩

end Settings

end MaterialInspection
