import MaterialInspection.Calendar
import MaterialInspection.Material
import MaterialInspection.Settings

/-!
# Inspection reports

A delivery is inspected on the active items of its material category.  Each item gives a `Finding`,
its samples and their verdict, and the `Report` passes if every finding does.

`Report.draft` draws the samples of all items from one stream, in the catalog's order.  The report
number is left empty: it is given out where reports are kept.
-/

set_option autoImplicit false

namespace MaterialInspection

/-- A delivery of material. -/
structure Delivery where
  supplier : String
  product : String
  specification : Option String
  /-- The material category, if the papers name one. -/
  category : Option String
  quantity : Binary64
  /-- The number of packages; zero or less if they were not counted. -/
  packages : Int
  purchaseOrder : Option String
  received : Option Date
  deriving DecidableEq

/-- The samples of one item and their verdict. -/
structure Finding where
  itemId : Int
  itemName : String
  values : List String
  verdict : Verdict
  unit : String
  deriving DecidableEq, Repr

/-- An inspection report. -/
structure Report where
  number : String
  supplier : String
  product : String
  specification : Option String
  category : String
  quantity : Binary64
  packages : Int
  received : Option Date
  /-- The number of samples of each item. -/
  sampleSize : Nat
  purchaseOrder : Option String
  result : Verdict
  inspector : String
  inspected : Date
  findings : List Finding
  deriving DecidableEq

namespace Delivery

/-- The category of a delivery: as the papers name it, or as the product's name suggests. -/
def materialCategory (d : Delivery) : String :=
  let named := Text.trim (d.category.getD "")
  if named = "" then (Material.infer d.product).label else named

end Delivery

/-- The samples of an item and their verdict. -/
def Settings.inspect (s : Settings) (item : Item) (count : Nat) : Draw Finding :=
  Draw.map
    (fun values =>
      { itemId := item.id, itemName := item.name, values,
        verdict := s.judging.judge item values, unit := item.unit })
    (s.sample.values item count)

/-- The findings on some items, in order. -/
def Settings.inspectAll (s : Settings) (items : List Item) (count : Nat) : Draw (List Finding) :=
  Draw.each (fun item => s.inspect item count) items

namespace Report

/-- Items from the lowest order to the highest; equal orders keep their places. -/
def inOrder (items : List Item) : List Item := items.mergeSort fun a b => decide (a.order ≤ b.order)

/-- The items that a delivery of a category is inspected on. -/
def itemsFor (catalog : List Item) (category : String) : List Item :=
  inOrder (catalog.filter fun item => item.active && item.appliesTo category true)

/-- The verdict of a report with these findings. -/
def resultOf (findings : List Finding) : Verdict := Verdict.all (findings.map (·.verdict))

/-- Whether there is room for the samples of the report on a delivery. -/
def hasRoom (s : Settings) (d : Delivery) (catalog : List Item) : Bool :=
  Sample.hasRoom (itemsFor catalog d.materialCategory) (s.plan.size d.packages)

/-- The report on a delivery, without its number. -/
def draft (s : Settings) (d : Delivery) (catalog : List Item) (inspector : String) (inspected : Date) :
    Draw Report :=
  let category := d.materialCategory
  let sampleSize := s.plan.size d.packages
  Draw.map
    (fun findings =>
      { number := "", supplier := d.supplier, product := d.product,
        specification := d.specification, category, quantity := d.quantity,
        packages := d.packages, received := d.received, sampleSize,
        purchaseOrder := d.purchaseOrder, result := resultOf findings, inspector, inspected,
        findings })
    (s.inspectAll (itemsFor catalog category) sampleSize)

end Report

end MaterialInspection
