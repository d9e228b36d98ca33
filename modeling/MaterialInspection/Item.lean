import MaterialInspection.Text.Blank
import MaterialInspection.Text.Search

/-!
# Inspection items

An item of the catalog says what is inspected: its name, the standard and the acceptance criteria
in free text, an optional rule for making sample values, and the material category that it belongs
to.  The name decides the item's kind, and the kind decides how samples are made and judged.
-/

set_option autoImplicit false

namespace MaterialInspection

/-- What an item measures. -/
inductive ItemKind
  | holdTime
  | tack
  | thickness
  | dimension
  | weight
  | generic
  deriving DecidableEq, Repr

namespace ItemKind

/-- The kind that a name decides.  The words looked for have no case, so that of the name's
letters does not matter. -/
def ofName (name : String) : ItemKind :=
  let has (words : List String) : Bool := words.any (Text.contains name)
  if has ["持粘性", "持粘力"] then .holdTime
  else if has ["初粘性", "初粘力"] then .tack
  else if has ["厚度"] then .thickness
  else if has ["宽", "长"] then .dimension
  else if has ["量", "重"] then .weight
  else .generic

/-- Whether items of this kind ignore generation rules. -/
def isSpecial : ItemKind → Bool
  | .holdTime => true
  | .tack => true
  | _ => false

/-- How a kind is written. -/
def code : ItemKind → String
  | .holdTime => "HOLD_TIME"
  | .tack => "INITIAL_TACK"
  | .thickness => "THICKNESS"
  | .dimension => "DIMENSION"
  | .weight => "WEIGHT"
  | .generic => "GENERIC"

/-- The kind with a code, if there is one. -/
def ofCode? (s : String) : Option ItemKind :=
  [holdTime, tack, thickness, dimension, weight, generic].find? fun k => k.code == s

end ItemKind

/-- The category of the items that apply to every material. -/
def generalCategory : String := "通用"

/-- An item of the inspection catalog. -/
structure Item where
  id : Int := 0
  name : String
  standard : String := ""
  criteria : String := ""
  /-- A rule for sample values; a blank one is none. -/
  rule : Option String := none
  unit : String := ""
  category : String := ""
  order : Int := 0
  active : Bool := true
  deriving DecidableEq, Repr

namespace Item

def kind (item : Item) : ItemKind := ItemKind.ofName item.name

/-- The item with a rule, or without one if the rule is blank. -/
def withRule (item : Item) (rule : String) : Item :=
  { item with rule := if Text.blank rule then none else some rule }

/-- The text that samples are made from and judged by: the acceptance criteria, or the standard
when these are blank. -/
def target (item : Item) : String := if Text.blank item.criteria then item.standard else item.criteria

/-- Whether the item belongs to every material. -/
def isGeneral (item : Item) : Bool :=
  let own := Text.trim item.category
  own == "" || own == generalCategory

/-- Whether the item is inspected on a material.  Strictly, only on its own category; otherwise a
general item is inspected on all. -/
def appliesTo (item : Item) (category : String) (strict : Bool) : Bool :=
  Text.trim item.category == Text.trim category || (!strict && item.isGeneral)

end Item

end MaterialInspection
