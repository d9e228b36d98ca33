import MaterialInspection.Text.Blank
import MaterialInspection.Text.Lowercase
import MaterialInspection.Text.Search

/-!
# Material categories

Delivered materials fall into four categories.  A delivery names its category, or the category is
inferred from the product's name by the first of the four tests that the name passes.
-/

set_option autoImplicit false

namespace MaterialInspection

/-- What kind of material a product is. -/
inductive Material
  | paper
  | film
  | chemical
  | other
  deriving DecidableEq, Repr

namespace Material

/-- How a category is written. -/
def label : Material → String
  | .paper => "纸张"
  | .film => "膜类"
  | .chemical => "化学辅料"
  | .other => "其他"

/-- The category with a label, if there is one. -/
def ofLabel? (s : String) : Option Material :=
  [paper, film, chemical, other].find? fun m => m.label == s

/-- The category that a label stands for, blanks around it aside; an unknown one is `other`. -/
def ofLabel (s : String) : Material := (ofLabel? (Text.trim s)).getD .other

/-- The category that a product's name suggests, whatever the case of its letters. -/
def infer (product : String) : Material :=
  let name := Text.lower (Text.trim product)
  if Text.contains name "纸" then .paper
  else if Text.contains name "膜" || Text.contains name "bopp" || Text.contains name "pet" then .film
  else if ["墨", "胶", "液", "剂"].any (Text.contains name) then .chemical
  else .other

end Material

end MaterialInspection
