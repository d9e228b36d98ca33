import Mathlib.Data.List.Induction
import MaterialInspection.Proofs.Number.WholeText
import MaterialInspection.Proofs.SamplingPlan
import MaterialInspection.Proofs.Settings.ByKey

/-!
# Tiers kept as a text

A list of tiers is kept as one text: items with commas between them, each a limit and a size around a
colon or nothing at all, and blanks wherever no number is cut.  The reader undoes any such writing, and
the tiers that it gives decide as they were listed.

* `Text.split_intercalate`, `Text.parts_trimChars` — the parts of a text, and what trimming the text does
  to them.
* `TierItem.readAll?_chars` — the tiers of some items are read back from their text.
* `Store.tiers_kept` — so they are the tiers of the settings that are loaded once the text is stored, and
  for every number of packages the size is that of the lowest tier that holds them.
-/

set_option autoImplicit false

namespace MaterialInspection

/-! ## Parts of a text -/

namespace Text

variable {separator : Char}

theorem split_of_not_mem {part : List Char} (h : separator ∉ part) : split separator part = [part] := by
  induction part with
  | nil => rfl
  | cons c part ih =>
    rw [List.mem_cons, not_or] at h
    rw [split, if_neg (Ne.symm h.1), ih h.2]

theorem split_append {part : List Char} (h : separator ∉ part) (rest : List Char) :
    split separator (part ++ separator :: rest) = part :: split separator rest := by
  induction part with
  | nil => rw [List.nil_append, split, if_pos rfl]
  | cons c part ih =>
    rw [List.mem_cons, not_or] at h
    rw [List.cons_append, split, if_neg (Ne.symm h.1), ih h.2]

/-- Parts that are joined by the separator are split again. -/
theorem split_intercalate {parts : List (List Char)} (hne : parts ≠ [])
    (h : ∀ part ∈ parts, separator ∉ part) :
    split separator (List.intercalate [separator] parts) = parts := by
  induction parts with
  | nil => exact absurd rfl hne
  | cons part parts ih =>
    obtain ⟨hpart, hparts⟩ := List.forall_mem_cons.1 h
    cases parts with
    | nil => rw [List.intercalate_singleton, split_of_not_mem hpart]
    | cons next parts =>
      rw [List.intercalate_cons_cons, List.append_assoc, List.singleton_append, split_append hpart,
        ih (List.cons_ne_nil _ _) hparts]

theorem splitOnce?_append {part : List Char} (h : separator ∉ part) (rest : List Char) :
    splitOnce? separator (part ++ separator :: rest) = some (part, rest) := by
  induction part with
  | nil => rw [List.nil_append, splitOnce?, if_pos rfl]
  | cons c part ih =>
    rw [List.mem_cons, not_or] at h
    rw [List.cons_append, splitOnce?, if_neg (Ne.symm h.1), ih h.2, Option.map_some]

/-- What is put behind a text is put behind its last part. -/
theorem split_concat {b : Char} (hb : b ≠ separator) (cs : List Char) :
    ∃ front last, split separator cs = front ++ [last] ∧
      split separator (cs ++ [b]) = front ++ [last ++ [b]] := by
  induction cs with
  | nil => exact ⟨[], [], rfl, by rw [List.nil_append, split, if_neg hb]; rfl⟩
  | cons c cs ih =>
    obtain ⟨front, last, hcs, hcsb⟩ := ih
    rw [List.cons_append, split, split]
    by_cases hc : c = separator
    · rw [if_pos hc, if_pos hc, hcs, hcsb]
      exact ⟨[] :: front, last, rfl, rfl⟩
    · rw [if_neg hc, if_neg hc, hcs, hcsb]
      cases front with
      | nil => exact ⟨[], c :: last, rfl, rfl⟩
      | cons first front => exact ⟨(c :: first) :: front, last, rfl, rfl⟩

theorem trimChars_cons_blank {b : Char} (hb : isBlank b = true) (cs : List Char) :
    trimChars (b :: cs) = trimChars cs := by
  unfold trimChars trimStart
  rw [List.dropWhile_cons_of_pos hb]

theorem trimChars_concat_blank {b : Char} (hb : isBlank b = true) (cs : List Char) :
    trimChars (cs ++ [b]) = trimChars cs := by
  unfold trimChars trimStart
  rw [List.dropWhile_append]
  split
  · rename_i hempty
    rw [List.isEmpty_iff.1 hempty, List.dropWhile_cons_of_pos hb]
    rfl
  · rw [List.reverse_concat, List.dropWhile_cons_of_pos hb]

/-- A text without blanks is kept. -/
theorem trimChars_of_no_blank {cs : List Char} (h : ∀ c ∈ cs, isBlank c = false) : trimChars cs = cs :=
  trimChars_eq_self (fun c hc => h c (List.mem_of_mem_head? hc))
    fun c hc => h c (List.mem_of_mem_getLast? hc)

/-- The parts of a text between separators, without the blanks at their ends. -/
def parts (separator : Char) (cs : List Char) : List (List Char) := (split separator cs).map trimChars

theorem parts_cons_blank (hsep : isBlank separator = false) {b : Char} (hb : isBlank b = true)
    (cs : List Char) : parts separator (b :: cs) = parts separator cs := by
  have hne : b ≠ separator := by
    rintro rfl
    rw [hb] at hsep
    cases hsep
  obtain ⟨front, last, hcs, _⟩ := split_concat hne cs
  unfold parts
  rw [split, if_neg hne, hcs]
  cases front with
  | nil => exact congrArg (· :: []) (trimChars_cons_blank hb last)
  | cons first front => exact congrArg (· :: _) (trimChars_cons_blank hb first)

theorem parts_concat_blank (hsep : isBlank separator = false) {b : Char} (hb : isBlank b = true)
    (cs : List Char) : parts separator (cs ++ [b]) = parts separator cs := by
  have hne : b ≠ separator := by
    rintro rfl
    rw [hb] at hsep
    cases hsep
  obtain ⟨front, last, hcs, hcsb⟩ := split_concat hne cs
  unfold parts
  rw [hcs, hcsb, List.map_append, List.map_append, List.map_singleton, List.map_singleton,
    trimChars_concat_blank hb]

/-- Trimming a text changes none of its trimmed parts. -/
theorem parts_trimChars (hsep : isBlank separator = false) (cs : List Char) :
    parts separator (trimChars cs) = parts separator cs := by
  have hstart : ∀ cs, parts separator (trimStart cs) = parts separator cs := by
    intro cs
    induction cs with
    | nil => rfl
    | cons c cs ih =>
      unfold trimStart at ih ⊢
      by_cases hc : isBlank c = true
      · rw [List.dropWhile_cons_of_pos hc, ih, parts_cons_blank hsep hc]
      · rw [List.dropWhile_cons_of_neg hc]
  have hend : ∀ back, parts separator (trimStart back).reverse = parts separator back.reverse := by
    intro back
    induction back with
    | nil => rfl
    | cons c back ih =>
      unfold trimStart at ih ⊢
      by_cases hc : isBlank c = true
      · rw [List.dropWhile_cons_of_pos hc, ih, List.reverse_cons, parts_concat_blank hsep hc]
      · rw [List.dropWhile_cons_of_neg hc]
  unfold trimChars
  rw [hend, List.reverse_reverse, hstart]

/-- A run of blanks. -/
structure Blanks where
  chars : List Char
  blank : ∀ c ∈ chars, isBlank c = true

namespace Blanks

theorem not_mem (b : Blanks) {c : Char} (hc : isBlank c = false) : c ∉ b.chars := by
  intro h
  rw [b.blank c h] at hc
  cases hc

theorem trimChars_eq (b : Blanks) : trimChars b.chars = [] := (trimChars_eq_nil_iff _).2 b.blank

theorem trimChars_before (b : Blanks) (cs : List Char) : trimChars (b.chars ++ cs) = trimChars cs := by
  obtain ⟨chars, blank⟩ := b
  induction chars with
  | nil => rfl
  | cons c chars ih =>
    obtain ⟨hc, hchars⟩ := List.forall_mem_cons.1 blank
    rw [List.cons_append, trimChars_cons_blank hc, ih hchars]

theorem trimChars_behind (b : Blanks) (cs : List Char) : trimChars (cs ++ b.chars) = trimChars cs := by
  obtain ⟨chars, blank⟩ := b
  induction chars using List.reverseRecOn with
  | nil => rw [List.append_nil]
  | append_singleton chars c ih =>
    obtain ⟨hchars, hc⟩ := List.forall_mem_append.1 blank
    rw [← List.append_assoc, trimChars_concat_blank (hc c (List.mem_singleton_self c)), ih hchars]

end Blanks

end Text

open Text (Blanks isBlank)

/-! ## Items -/

/-- A limit of 32 bits and a size of 64. -/
structure Tier.Fits (t : Tier) : Prop where
  limit_ge : minInt32 ≤ t.limit
  limit_le : t.limit ≤ maxInt32
  size_lt : t.size < wordCount

/-- What may stand between two commas: blanks alone, or a tier with blanks around its numbers. -/
inductive TierItem
  | empty (blanks : Blanks)
  | tier (tier : Tier) (fits : tier.Fits) (beforeLimit behindLimit beforeSize behindSize : Blanks)

namespace TierItem

/-- The tier of an item, if it is one. -/
def tier? : TierItem → Option Tier
  | empty _ => none
  | tier t _ _ _ _ _ => some t

/-- An item as it is written. -/
def chars : TierItem → List Char
  | empty blanks => blanks.chars
  | tier t _ beforeLimit behindLimit beforeSize behindSize =>
    beforeLimit.chars ++ (((toString t.limit).toList ++ behindLimit.chars) ++
      ':' :: (beforeSize.chars ++ (toString t.size).toList)) ++ behindSize.chars

/-- Items with commas between them. -/
def text (items : List TierItem) : String := String.ofList (List.intercalate [','] (items.map chars))

/-- The tiers of some items, in their order. -/
def tiers (items : List TierItem) : List Tier := items.filterMap tier?

/-! ## Reading them back -/

theorem isBlank_of_mem_int {n : Int} {c : Char} (h : c ∈ (toString n).toList) : isBlank c = false := by
  rcases mem_toString_int h with rfl | hc
  · decide
  · exact isBlank_of_isDigit hc

theorem isDigit_of_mem_nat {n : Nat} {c : Char} (h : c ∈ (toString n).toList) : c.isDigit = true := by
  rw [toList_toString_nat] at h
  exact isDigit_of_mem_toDigits h

/-- Neither mark stands in a number. -/
theorem mark_not_mem_int {n : Int} {mark : Char} (hmark : mark = ',' ∨ mark = ':') :
    mark ∉ (toString n).toList := by
  intro h
  rcases hmark with rfl | rfl
  · rcases mem_toString_int h with hc | hc
    · exact absurd hc (by decide)
    · exact absurd hc (by decide)
  · rcases mem_toString_int h with hc | hc
    · exact absurd hc (by decide)
    · exact absurd hc (by decide)

theorem comma_not_mem_chars (item : TierItem) : ',' ∉ item.chars := by
  have hblank : isBlank ',' = false := by decide
  cases item with
  | empty blanks => exact blanks.not_mem hblank
  | tier t fits beforeLimit behindLimit beforeSize behindSize =>
    have hsize : ',' ∉ (toString t.size).toList := fun h =>
      absurd (isDigit_of_mem_nat h) (by decide)
    unfold chars
    simp only [List.mem_append, List.mem_cons, not_or]
    exact ⟨⟨beforeLimit.not_mem hblank, ⟨mark_not_mem_int (.inl rfl), behindLimit.not_mem hblank⟩,
      by decide, beforeSize.not_mem hblank, hsize⟩, behindSize.not_mem hblank⟩

/-- The tier of an item is read from its characters. -/
theorem read?_chars {t : Tier} (fits : t.Fits)
    (beforeLimit behindLimit beforeSize behindSize : Blanks) :
    Text.trimChars (tier t fits beforeLimit behindLimit beforeSize behindSize).chars ≠ [] ∧
      Tier.read? (Text.trimChars
        (tier t fits beforeLimit behindLimit beforeSize behindSize).chars) = some t := by
  have hlimit : Text.trimChars (toString t.limit).toList = (toString t.limit).toList :=
    Text.trimChars_of_no_blank fun _ => isBlank_of_mem_int
  have hsize : Text.trimChars (toString t.size).toList = (toString t.size).toList :=
    Text.trimChars_of_no_blank fun _ h => isBlank_of_isDigit (isDigit_of_mem_nat h)
  have hcolon : ':' ∉ (toString t.limit).toList ++ behindLimit.chars := by
    rw [List.mem_append, not_or]
    exact ⟨mark_not_mem_int (.inr rfl), behindLimit.not_mem (by decide)⟩
  -- without the blanks outside, the item starts and ends with a digit or a minus
  have hcore : Text.trimChars (tier t fits beforeLimit behindLimit beforeSize behindSize).chars =
      ((toString t.limit).toList ++ behindLimit.chars) ++
        ':' :: (beforeSize.chars ++ (toString t.size).toList) := by
    unfold chars
    rw [Blanks.trimChars_behind, Blanks.trimChars_before]
    refine Text.trimChars_eq_self (fun c hc => ?_) fun c hc => ?_
    · obtain ⟨d, ds, hd⟩ := List.exists_cons_of_ne_nil (toString_int_ne_nil t.limit)
      rw [hd] at hc
      obtain rfl : d = c := Option.some.inj hc
      exact isBlank_of_mem_int (n := t.limit) (by rw [hd]; exact List.mem_cons_self)
    · have hne : (toString t.size).toList ≠ [] := by
        rw [toList_toString_nat]
        exact Nat.toDigits_ne_nil
      rw [← List.cons_append, ← List.append_assoc, List.getLast?_append_of_ne_nil _ hne] at hc
      exact isBlank_of_isDigit (isDigit_of_mem_nat (List.mem_of_getLast? hc))
  have hlow := fits.limit_ge
  have hhigh := fits.limit_le
  have hfit := fits.size_lt
  rw [hcore]
  refine ⟨by simp, ?_⟩
  unfold Tier.read?
  rw [Text.splitOnce?_append hcolon]
  dsimp only
  rw [Blanks.trimChars_behind, Blanks.trimChars_before, hlimit, hsize, readInt32?, readSize?,
    readInt?_toString, readNat?_toString, Option.filter_some, Option.filter_some,
    if_pos (by simp [hlow, hhigh]), if_pos (by simpa using hfit)]

/-- The tiers of some items are read from their trimmed characters, those without a tier passed over. -/
theorem mapM_read?_chars (items : List TierItem) :
    ((items.map fun item => Text.trimChars item.chars).filter fun part => !part.isEmpty).mapM
      Tier.read? = some (tiers items) := by
  induction items with
  | nil => rfl
  | cons item items ih =>
    rw [List.map_cons, List.filter_cons]
    cases item with
    | empty blanks =>
      have hnone : Text.trimChars (empty blanks).chars = [] := blanks.trimChars_eq
      rw [hnone, if_neg (by decide), ih]
      rfl
    | tier t fits beforeLimit behindLimit beforeSize behindSize =>
      obtain ⟨hne, hread⟩ := read?_chars fits beforeLimit behindLimit beforeSize behindSize
      rw [if_pos (by simpa using hne), List.mapM_cons, hread, ih]
      rfl

/-- **The tiers of some items are read back from their text**, if there is one among them. -/
theorem readAll?_chars {items : List TierItem} (h : tiers items ≠ []) :
    Tier.readAll? (Text.trimChars (text items).toList) = some (tiers items) := by
  have hitems : items.map chars ≠ [] := by
    intro hnil
    rw [List.map_eq_nil_iff.1 hnil] at h
    exact h rfl
  have hsplit : Text.split ',' (text items).toList = items.map chars := by
    unfold text
    rw [String.toList_ofList]
    refine Text.split_intercalate hitems fun part hpart => ?_
    obtain ⟨item, _, rfl⟩ := List.mem_map.1 hpart
    exact comma_not_mem_chars item
  have hparts : (Text.split ',' (Text.trimChars (text items).toList)).map Text.trimChars =
      items.map fun item => Text.trimChars item.chars := by
    have hcomma : isBlank ',' = false := by decide
    have htrim := Text.parts_trimChars hcomma (text items).toList
    unfold Text.parts at htrim
    rw [htrim, hsplit, List.map_map]
    rfl
  obtain ⟨first, rest, htiers⟩ := List.exists_cons_of_ne_nil h
  unfold Tier.readAll?
  dsimp only
  rw [hparts, mapM_read?_chars, htiers]

end TierItem

/-! ## Storing and loading them -/

/-- Where the text of some tiers is kept, these tiers are loaded. -/
theorem Settings.load_tiers {text : SettingKey → Option String} {items : List TierItem}
    (h : text .tiers = some (TierItem.text items)) (hne : TierItem.tiers items ≠ []) :
    (load text).plan.tiers = TierItem.tiers items := by
  show setting text .tiers Tier.readAll? _ = _
  rw [setting_eq, h, Option.bind_some, TierItem.readAll?_chars hne, Option.getD_some]

namespace Store

variable {s : Store} {rows : List SettingRow}

/-- A setting that is put is the one that is looked up. -/
theorem lookupSetting_putSetting (rows : List SettingRow) (row : SettingRow) :
    lookupSetting (putSetting rows row) row.scope row.key = some row.value := by
  unfold lookupSetting putSetting
  split
  · rename_i hany
    obtain ⟨r, hr, hsame⟩ := List.any_eq_true.1 hany
    have hfound : (rows.find? fun r => r.scope == row.scope && r.key == row.key).isSome = true :=
      List.find?_isSome.2 ⟨r, hr, hsame⟩
    obtain ⟨found, hfind⟩ := Option.isSome_iff_exists.1 hfound
    have hkept : ((fun r : SettingRow => r.scope == row.scope && r.key == row.key) ∘
        fun r => if r.scope == row.scope && r.key == row.key then row else r) =
        fun r => r.scope == row.scope && r.key == row.key := by
      funext r
      rw [Function.comp_apply]
      split
      · rename_i hrow
        rw [hrow]
        simp
      · rfl
    rw [List.find?_map, hkept, hfind, Option.map_some, Option.map_some,
      if_pos (List.find?_some hfind)]
  · rename_i hany
    have hnone : (rows.find? fun r => r.scope == row.scope && r.key == row.key) = none := by
      rw [List.find?_eq_none]
      intro r hr hsame
      exact hany (List.any_eq_true.2 ⟨r, hr, hsame⟩)
    rw [List.find?_append, hnone, Option.none_or, List.find?_cons_of_pos (by simp)]
    rfl

/-- A setting that is stored is there to be read. -/
theorem setSetting_of_rows (h : s.settings = some rows) (key value : String) :
    s.setSetting key value =
      (.ok (), { s with settings := some (putSetting rows ⟨globalScope, key, value⟩) }) := by
  unfold setSetting statement
  dsimp only
  rw [h]
  rfl

/-- **Tiers that are stored are the tiers that decide.**  Whatever tiers are stored, with commas
between them and any blanks and empty items among them, the settings that are loaded then have these
tiers, in their order.  For every number of packages one of two things holds: a tier has the lowest
limit among those that the packages fit in and is the first listed of its limit, and the size is that
tier's; or the packages fit in no tier, and the size is the largest one.  Where no limit stands twice,
the order of the tiers does not matter. -/
theorem tiers_kept (h : s.settings = some rows) {items : List TierItem}
    (hne : TierItem.tiers items ≠ []) :
    ∃ after settings,
      s.setSetting SettingKey.tiers.name (TierItem.text items) = (.ok (), after) ∧
      after.loadSettings = .ok settings ∧
      settings.plan.tiers = TierItem.tiers items ∧
      (∀ packages, 0 < packages →
        (∃ tier, settings.plan.Decides packages tier ∧ settings.plan.size packages = tier.size) ∨
          (∀ tier ∈ TierItem.tiers items, tier.limit < packages) ∧
            settings.plan.size packages = settings.plan.largestSize) ∧
      ∀ others, others.Perm (TierItem.tiers items) → (others.map Tier.limit).Nodup →
        ∀ packages, SamplingPlan.size { settings.plan with tiers := others } packages =
          settings.plan.size packages := by
  let row : SettingRow := ⟨globalScope, SettingKey.tiers.name, TierItem.text items⟩
  let stored : SettingKey → Option String := fun key =>
    lookupSetting (putSetting rows row) globalScope key.name
  have hkept : stored .tiers = some (TierItem.text items) := lookupSetting_putSetting rows row
  have htiers : (Settings.load stored).plan.tiers = TierItem.tiers items :=
    Settings.load_tiers hkept hne
  have hloaded := loadSettings_of_rows (s := { s with settings := some (putSetting rows row) }) rfl
  refine ⟨_, _, setSetting_of_rows h _ _, hloaded, htiers, ?_, ?_⟩
  · intro packages hpos
    rcases SamplingPlan.size_cases _ packages with ⟨hle, _⟩ | ⟨_, hdecided⟩ | ⟨_, habove, hsize⟩
    · omega
    · exact .inl hdecided
    · refine .inr ⟨?_, hsize⟩
      rw [← htiers]
      exact habove
  · intro others hperm hdistinct packages
    rw [← htiers] at hperm
    exact SamplingPlan.size_of_perm hperm hdistinct packages

/-- Tiers out of order, one of a negative limit and two of one limit, between blanks and empty items:
five packages get the size of the first tier of limit ten, fifty that of the tier of a hundred. -/
theorem tiers_kept_unsorted :
    ∃ (items : List TierItem) (after : Store) (settings : Settings),
      blank.prepare.settings = some [] ∧ TierItem.tiers items ≠ [] ∧
      TierItem.text items = " ,\t100 : 7,,-3:2\u3000,10:1, 10:9" ∧
      blank.prepare.setSetting SettingKey.tiers.name (TierItem.text items) = (.ok (), after) ∧
      after.loadSettings = .ok settings ∧
      settings.plan.tiers = [⟨100, 7⟩, ⟨-3, 2⟩, ⟨10, 1⟩, ⟨10, 9⟩] ∧
      settings.plan.size 5 = 1 ∧ settings.plan.size 50 = 7 := by
  let no : Blanks := ⟨[], List.forall_mem_nil _⟩
  let one : Blanks := ⟨[' '], List.forall_mem_singleton.2 rfl⟩
  let tab : Blanks := ⟨['\t'], List.forall_mem_singleton.2 rfl⟩
  let wide : Blanks := ⟨['\u3000'], List.forall_mem_singleton.2 rfl⟩
  let items : List TierItem :=
    [.empty one, .tier ⟨100, 7⟩ ⟨by decide, by decide, by decide⟩ tab one one no,
      .empty no, .tier ⟨-3, 2⟩ ⟨by decide, by decide, by decide⟩ no no no wide,
      .tier ⟨10, 1⟩ ⟨by decide, by decide, by decide⟩ no no no no,
      .tier ⟨10, 9⟩ ⟨by decide, by decide, by decide⟩ one no no no]
  obtain ⟨after, settings, hstored, hloaded, htiers, hsize, _⟩ :=
    tiers_kept (show blank.prepare.settings = some [] from rfl)
      (show TierItem.tiers items ≠ [] by decide)
  have htiers : settings.plan.tiers = [⟨100, 7⟩, ⟨-3, 2⟩, ⟨10, 1⟩, ⟨10, 9⟩] := htiers
  have hfive : settings.plan.Decides 5 ⟨10, 1⟩ :=
    ⟨by unfold SamplingPlan.firstOf?; rw [htiers]; rfl, by decide, by rw [htiers]; decide⟩
  have hfifty : settings.plan.Decides 50 ⟨100, 7⟩ :=
    ⟨by unfold SamplingPlan.firstOf?; rw [htiers]; rfl, by decide, by rw [htiers]; decide⟩
  refine ⟨items, after, settings, rfl, by decide, by decide, hstored, hloaded, htiers, ?_, ?_⟩
  · rcases hsize 5 (by decide) with ⟨tier, htier, hof⟩ | ⟨hnone, _⟩
    · rw [hof, htier.unique hfive]
    · exact absurd (hnone ⟨10, 1⟩ (by decide)) (by decide)
  · rcases hsize 50 (by decide) with ⟨tier, htier, hof⟩ | ⟨hnone, _⟩
    · rw [hof, htier.unique hfifty]
    · exact absurd (hnone ⟨100, 7⟩ (by decide)) (by decide)

end Store

end MaterialInspection
