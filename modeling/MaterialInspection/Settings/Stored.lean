import MaterialInspection.Number.Numeral
import MaterialInspection.Settings

/-!
# Settings kept as texts

Settings are kept as texts under keys.  `Settings.load` reads them all: a setting whose key is
missing, or whose text cannot be read, has its default, so loading never fails and each setting
depends on its own key only.

Tiers are written `limit:size` with commas between them; blanks around the parts and empty items
are passed over, and one unreadable item makes the whole list unreadable.
-/

set_option autoImplicit false

namespace MaterialInspection

namespace Text

/-- The parts of a text between separators. -/
def split (separator : Char) : List Char → List (List Char)
  | [] => [[]]
  | c :: rest =>
    if c = separator then [] :: split separator rest
    else
      match split separator rest with
      | part :: parts => (c :: part) :: parts
      | [] => [[c]]

/-- What stands before and after the first separator, if there is one. -/
def splitOnce? (separator : Char) : List Char → Option (List Char × List Char)
  | [] => none
  | c :: rest =>
    if c = separator then some ([], rest)
    else (splitOnce? separator rest).map fun (before, after) => (c :: before, after)

end Text

/-- The keys of the settings. -/
inductive SettingKey
  | sampleCount
  | unknownSize
  | largestSize
  | tiers
  | holdTime
  | tackMinimum
  | tackCap
  | thicknessBase
  | dimensionBase
  | weightBase
  | strict
  deriving DecidableEq, Repr

/-- How a key is written. -/
def SettingKey.name : SettingKey → String
  | .sampleCount => "inspection/default_sample_count"
  | .unknownSize => "inspection/sampling_default_size"
  | .largestSize => "inspection/sampling_max_size"
  | .tiers => "inspection/sampling_tiers"
  | .holdTime => "inspection/hold_time_default"
  | .tackMinimum => "inspection/initial_tack_default_min"
  | .tackCap => "inspection/initial_tack_cap"
  | .thicknessBase => "inspection/thickness_base"
  | .dimensionBase => "inspection/dimension_base"
  | .weightBase => "inspection/weight_base"
  | .strict => "inspection/strict_numeric"

namespace Tier

/-- A tier that characters write. -/
def read? (cs : List Char) : Option Tier :=
  match Text.splitOnce? ':' cs with
  | none => none
  | some (limit, size) =>
    match readInt32? (Text.trimChars limit), readSize? (Text.trimChars size) with
    | some limit, some size => some ⟨limit, size⟩
    | _, _ => none

/-- The tiers that characters write; a text without any is unreadable. -/
def readAll? (cs : List Char) : Option (List Tier) :=
  let parts := ((Text.split ',' cs).map Text.trimChars).filter fun part => !part.isEmpty
  match parts.mapM read? with
  | some (tier :: tiers) => some (tier :: tiers)
  | _ => none

end Tier

/-- A truth value in words. -/
def readBool? (cs : List Char) : Option Bool :=
  if cs = ['t', 'r', 'u', 'e'] then some true
  else if cs = ['f', 'a', 'l', 's', 'e'] then some false
  else none

namespace Settings

/-- A finite number. -/
def readFinite? (cs : List Char) : Option Binary64 := (readDouble? cs).filter Binary64.isFinite

/-- A text that is not blank. -/
def readText? (cs : List Char) : Option String := if cs.isEmpty then none else some (String.ofList cs)

/-- A setting read from its text without the blanks at its ends, or its default. -/
def setting {α : Type} (text : SettingKey → Option String) (key : SettingKey)
    (read? : List Char → Option α) (default : α) : α :=
  match text key with
  | some s => (read? (Text.trimChars s.toList)).getD default
  | none => default

/-- The settings that the texts under the keys write. -/
def load (text : SettingKey → Option String) : Settings :=
  let d : Settings := {}
  { sampleCount := max (setting text .sampleCount readSize? d.sampleCount) 1
    sample :=
      { holdTime := setting text .holdTime readText? d.sample.holdTime
        tackMinimum := setting text .tackMinimum readInt64? d.sample.tackMinimum
        tackCap := setting text .tackCap readInt64? d.sample.tackCap
        thicknessBase := setting text .thicknessBase readFinite? d.sample.thicknessBase
        dimensionBase := setting text .dimensionBase readFinite? d.sample.dimensionBase
        weightBase := setting text .weightBase readFinite? d.sample.weightBase }
    judging := { strict := setting text .strict readBool? d.judging.strict }
    plan :=
      { unknownSize := setting text .unknownSize readSize? d.plan.unknownSize
        tiers := setting text .tiers Tier.readAll? d.plan.tiers
        largestSize := setting text .largestSize readSize? d.plan.largestSize } }

end Settings

end MaterialInspection
