import MaterialInspection.Proofs.Sample.Offset
import MaterialInspection.Proofs.SamplingPlan
import MaterialInspection.Store

/-!
# Settings key by key

Settings are kept as rows of a scope, a key and a text, of which only the global ones under eleven keys
are read.  Whatever the rows say, the settings can be loaded and are fit for use, and each of them is
what the row of its key writes, or its default.

* `Settings.get_load` — each setting is read from the text of its key.
* `Settings.load_wellFormed` — what is loaded is fit for use.
* `Store.loadSettings_by_key` — both for the rows of a store, and a setting stays as it is whatever is
  done to the rows that are not under its key.
-/

set_option autoImplicit false

namespace MaterialInspection

/-! ## One setting -/

namespace SettingKey

/-- What the setting under a key is. -/
def Value : SettingKey → Type
  | .sampleCount => Nat
  | .unknownSize => Nat
  | .largestSize => Nat
  | .tiers => List Tier
  | .holdTime => String
  | .tackMinimum => Int
  | .tackCap => Int
  | .thicknessBase => Binary64
  | .dimensionBase => Binary64
  | .weightBase => Binary64
  | .strict => Bool

/-- The sample count that characters write: an inspector always gets a sample. -/
def readSampleCount? (cs : List Char) : Option Nat :=
  (readSize? cs).map fun n => max n 1

/-- The setting that characters write under a key; they are malformed if they write none. -/
def read? : (key : SettingKey) → List Char → Option key.Value
  | .sampleCount, cs => readSampleCount? cs
  | .unknownSize, cs => readSize? cs
  | .largestSize, cs => readSize? cs
  | .tiers, cs => Tier.readAll? cs
  | .holdTime, cs => Settings.readText? cs
  | .tackMinimum, cs => readInt64? cs
  | .tackCap, cs => readInt64? cs
  | .thicknessBase, cs => Settings.readFinite? cs
  | .dimensionBase, cs => Settings.readFinite? cs
  | .weightBase, cs => Settings.readFinite? cs
  | .strict, cs => readBool? cs

/-- The setting that a text under a key writes, if there is a text and it is not malformed. -/
def written? (key : SettingKey) (text : Option String) : Option key.Value :=
  text.bind fun s => key.read? (Text.trimChars s.toList)

/-- The keys of the bases that samples are drawn around. -/
def bases : List SettingKey := [.thicknessBase, .dimensionBase, .weightBase]

/-- An infinity, and what is not a number, is malformed as a base. -/
theorem read?_of_not_finite {key : SettingKey} (hkey : key ∈ bases) {cs : List Char} {x : Binary64}
    (hx : readDouble? cs = some x) (hinfinite : x.isFinite = false) : key.read? cs = none := by
  have hread : Settings.readFinite? cs = none := by
    unfold Settings.readFinite?
    rw [hx, Option.filter_some, if_neg (by simp [hinfinite])]
  simp only [bases, List.mem_cons, List.not_mem_nil, or_false] at hkey
  rcases hkey with rfl | rfl | rfl
  · exact hread
  · exact hread
  · exact hread

end SettingKey

namespace Settings

/-- The setting under a key. -/
def get (s : Settings) : (key : SettingKey) → key.Value
  | .sampleCount => s.sampleCount
  | .unknownSize => s.plan.unknownSize
  | .largestSize => s.plan.largestSize
  | .tiers => s.plan.tiers
  | .holdTime => s.sample.holdTime
  | .tackMinimum => s.sample.tackMinimum
  | .tackCap => s.sample.tackCap
  | .thicknessBase => s.sample.thicknessBase
  | .dimensionBase => s.sample.dimensionBase
  | .weightBase => s.sample.weightBase
  | .strict => s.judging.strict

/-- The settings under the keys are all there are. -/
theorem eq_of_get {s t : Settings} (h : ∀ key, s.get key = t.get key) : s = t := by
  obtain ⟨sampleCount, ⟨holdTime, tackMinimum, tackCap, thickness, dimension, weight⟩, ⟨strict⟩,
    ⟨unknownSize, tiers, largestSize⟩⟩ := s
  obtain ⟨sampleCount', ⟨holdTime', tackMinimum', tackCap', thickness', dimension', weight'⟩, ⟨strict'⟩,
    ⟨unknownSize', tiers', largestSize'⟩⟩ := t
  obtain rfl : sampleCount = sampleCount' := h .sampleCount
  obtain rfl : holdTime = holdTime' := h .holdTime
  obtain rfl : tackMinimum = tackMinimum' := h .tackMinimum
  obtain rfl : tackCap = tackCap' := h .tackCap
  obtain rfl : thickness = thickness' := h .thicknessBase
  obtain rfl : dimension = dimension' := h .dimensionBase
  obtain rfl : weight = weight' := h .weightBase
  obtain rfl : strict = strict' := h .strict
  obtain rfl : unknownSize = unknownSize' := h .unknownSize
  obtain rfl : tiers = tiers' := h .tiers
  obtain rfl : largestSize = largestSize' := h .largestSize
  rfl

/-- The setting that holds under a key unless another is written. -/
def default (key : SettingKey) : key.Value := get {} key

variable {text : SettingKey → Option String}

theorem setting_eq {α : Type} {key : SettingKey} {read? : List Char → Option α} {default : α} :
    setting text key read? default =
      ((text key).bind fun s => read? (Text.trimChars s.toList)).getD default := by
  unfold setting
  cases text key with
  | none => rfl
  | some s => rfl

/-- **Each setting is what the text of its key writes, or its default.** -/
theorem get_load (text : SettingKey → Option String) (key : SettingKey) :
    (load text).get key = (key.written? (text key)).getD (default key) := by
  cases key with
  | sampleCount =>
    show max (setting text .sampleCount readSize? 5) 1 = _
    unfold setting SettingKey.written?
    cases text .sampleCount with
    | none => rfl
    | some s =>
      rw [Option.bind_some]
      unfold SettingKey.read? SettingKey.readSampleCount?
      dsimp only
      cases readSize? (Text.trimChars s.toList) with
      | none => rfl
      | some n => rfl
  | unknownSize => exact setting_eq
  | largestSize => exact setting_eq
  | tiers => exact setting_eq
  | holdTime => exact setting_eq
  | tackMinimum => exact setting_eq
  | tackCap => exact setting_eq
  | thicknessBase => exact setting_eq
  | dimensionBase => exact setting_eq
  | weightBase => exact setting_eq
  | strict => exact setting_eq

/-- Where nothing is written, the settings are the defaults. -/
theorem load_eq_default (h : ∀ key : SettingKey, key.written? (text key) = none) : load text = {} :=
  eq_of_get fun key => by rw [get_load, h, Option.getD_none]; rfl

/-! ## Fit for use -/

/-- Settings that are fit for use: an inspector gets samples, the bases are numbers to draw around, the
hold time is a text to show, and there are tiers. -/
structure WellFormed (s : Settings) : Prop where
  sampleCount_pos : 1 ≤ s.sampleCount
  bases_finite : ∀ x ∈ s.sample.bases, x.isFinite = true
  holdTime_shown : Text.blank s.sample.holdTime = false
  holdTime_trimmed : Text.trim s.sample.holdTime = s.sample.holdTime
  tiers_ne_nil : s.plan.tiers ≠ []

theorem finite_of_readFinite? {cs : List Char} {x : Binary64} (h : readFinite? cs = some x) :
    x.isFinite = true :=
  (Option.filter_eq_some_iff.1 h).2

/-- A text that is read from trimmed characters is not blank, and trimmed. -/
theorem shown_of_readText? {cs : List Char} {s : String} (h : readText? (Text.trimChars cs) = some s) :
    Text.blank s = false ∧ Text.trim s = s := by
  unfold readText? at h
  split at h
  · cases h
  · rename_i hne
    cases h
    have htrim : Text.trim (String.ofList (Text.trimChars cs)) = String.ofList (Text.trimChars cs) := by
      unfold Text.trim
      rw [String.toList_ofList, Text.trimChars_trimChars]
    refine ⟨?_, htrim⟩
    rw [← Text.isEmpty_trim, htrim, ← Bool.not_eq_true, String.isEmpty_iff, ← String.toList_inj,
      String.toList_ofList]
    exact fun hnil => hne (List.isEmpty_iff.2 hnil)

theorem ne_nil_of_readAll? {cs : List Char} {tiers : List Tier} (h : Tier.readAll? cs = some tiers) :
    tiers ≠ [] := by
  unfold Tier.readAll? at h
  dsimp only at h
  split at h
  · cases h
    exact List.cons_ne_nil _ _
  · cases h

/-- **What is loaded is fit for use, whatever the texts.** -/
theorem load_wellFormed (text : SettingKey → Option String) : (load text).WellFormed where
  sampleCount_pos := one_le_sampleCount text
  bases_finite := by
    have hbase : ∀ (key : SettingKey) (default : Binary64), default.isFinite = true →
        (setting text key readFinite? default).isFinite = true := fun key default hdefault =>
      setting_satisfies (P := fun x : Binary64 => x.isFinite = true) hdefault
        fun _ _ => finite_of_readFinite?
    have hdefaults : ∀ x ∈ Sample.Settings.bases {}, x.isFinite = true := by decide +kernel
    intro x hx
    simp only [Sample.Settings.bases, List.mem_cons, List.not_mem_nil, or_false] at hx
    rcases hx with rfl | rfl | rfl
    · exact hbase _ _ (hdefaults _ (by simp [Sample.Settings.bases]))
    · exact hbase _ _ (hdefaults _ (by simp [Sample.Settings.bases]))
    · exact hbase _ _ (hdefaults _ (by simp [Sample.Settings.bases]))
  holdTime_shown :=
    setting_satisfies (P := fun s => Text.blank s = false) (by decide)
      fun _ _ h => (shown_of_readText? h).1
  holdTime_trimmed :=
    setting_satisfies (P := fun s => Text.trim s = s) (by decide) fun _ _ h => (shown_of_readText? h).2
  tiers_ne_nil :=
    setting_satisfies (P := fun tiers => tiers ≠ []) (by decide) fun _ _ => ne_nil_of_readAll?

end Settings

/-! ## Rows -/

/-- Whether a row is the one that a key is read from. -/
def SettingRow.isFor (row : SettingRow) (key : SettingKey) : Bool :=
  row.scope == globalScope && row.key == key.name

namespace Store

variable {s : Store} {rows : List SettingRow}

theorem lookupSetting_eq (rows : List SettingRow) (key : SettingKey) :
    lookupSetting rows globalScope key.name =
      (rows.filter fun row => row.isFor key).head?.map SettingRow.value := by
  rw [List.head?_filter]
  rfl

theorem loadSettings_of_rows (h : s.settings = some rows) :
    s.loadSettings = .ok (Settings.load fun key => lookupSetting rows globalScope key.name) := by
  unfold loadSettings
  rw [h]
  rfl

/-- **Whatever rows there are, the settings can be loaded, they are fit for use, and each is what the
row of its key writes, or its default.**  So a setting stays as it is when other rows are changed, added
or deleted; and a base is the default where an infinity or no number is written. -/
theorem loadSettings_by_key (h : s.settings = some rows) :
    ∃ settings, s.loadSettings = .ok settings ∧ settings.WellFormed ∧
      (∀ key, settings.get key =
        (key.written? (lookupSetting rows globalScope key.name)).getD (Settings.default key)) ∧
      (∀ key ∈ SettingKey.bases, ∀ text x, lookupSetting rows globalScope key.name = some text →
        readDouble? (Text.trimChars text.toList) = some x → x.isFinite = false →
        settings.get key = Settings.default key) ∧
      ∀ (other : Store) (otherRows : List SettingRow), other.settings = some otherRows →
        ∀ key, (otherRows.filter fun row => row.isFor key) = (rows.filter fun row => row.isFor key) →
          ∃ otherSettings, other.loadSettings = .ok otherSettings ∧
            otherSettings.get key = settings.get key := by
  have hget := Settings.get_load fun key => lookupSetting rows globalScope key.name
  refine ⟨_, loadSettings_of_rows h, Settings.load_wellFormed _, hget, ?_, ?_⟩
  · intro key hkey text x htext hx hinfinite
    rw [hget, htext]
    unfold SettingKey.written?
    rw [Option.bind_some, SettingKey.read?_of_not_finite hkey hx hinfinite, Option.getD_none]
  · intro other otherRows hother key hsame
    refine ⟨_, loadSettings_of_rows hother, ?_⟩
    rw [hget, Settings.get_load, lookupSetting_eq, lookupSetting_eq, hsame]

/-- The row of a hold time. -/
def longHold : SettingRow := ⟨globalScope, SettingKey.holdTime.name, " ≥ 48h "⟩

/-- A hold time among malformed rows and one of another scope. -/
def malformedRows : List SettingRow :=
  [⟨globalScope, SettingKey.thicknessBase.name, "NaN"⟩, longHold,
    ⟨globalScope, SettingKey.tiers.name, "15-3"⟩, ⟨"line", SettingKey.weightBase.name, "12.5"⟩]

/-- Malformed rows and rows of other scopes leave the defaults, and the hold time as it is without
them. -/
theorem loadSettings_by_key_malformed :
    ({ blank with settings := some malformedRows } : Store).settings = some malformedRows ∧
      ∃ settings, ({ blank with settings := some malformedRows } : Store).loadSettings = .ok settings ∧
        settings.WellFormed ∧ settings.get .thicknessBase = Settings.default .thicknessBase ∧
        settings.get .weightBase = Settings.default .weightBase ∧ settings.get .holdTime = "≥ 48h" ∧
        ∃ others, ({ blank with settings := some [longHold] } : Store).loadSettings = .ok others ∧
          others.get .holdTime = settings.get .holdTime := by
  obtain ⟨settings, hload, hfit, hget, hbase, hlocal⟩ :=
    loadSettings_by_key (s := { blank with settings := some malformedRows }) rfl
  have hthickness := hbase .thicknessBase (by decide) "NaN" Binary64.nan (by decide +kernel)
    (by decide +kernel) (by decide +kernel)
  have hweight : settings.get .weightBase = Settings.default .weightBase := by
    rw [hget, show lookupSetting malformedRows globalScope SettingKey.weightBase.name = none by
      decide +kernel]
    rfl
  have hhold : settings.get .holdTime = "≥ 48h" := by
    rw [hget, show lookupSetting malformedRows globalScope SettingKey.holdTime.name = some " ≥ 48h " by
      decide +kernel]
    have hread : SettingKey.written? .holdTime (some " ≥ 48h ") = some "≥ 48h" := by
      show Settings.readText? (Text.trimChars " ≥ 48h ".toList) = some "≥ 48h"
      decide +kernel
    rw [hread]
    rfl
  exact ⟨rfl, settings, hload, hfit, hthickness, hweight, hhold,
    hlocal { blank with settings := some [longHold] } [longHold] rfl .holdTime (by decide +kernel)⟩

end Store

end MaterialInspection
