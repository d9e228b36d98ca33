import MaterialInspection.Json.Record
import MaterialInspection.Report

/-!
# Reading domain values from JSON

The JSON forms in which other systems hand over settings, deliveries, reports and their parts.
Settings may leave anything out; the other records may leave out only what may be absent.
-/

set_option autoImplicit false

namespace MaterialInspection

open Json

namespace Criterion

/-- The criterion of a kind whose numbers are in a record. -/
def ofRecord? (kind : String) (record? : List String → Option (Record Value)) : Option Criterion :=
  let double? : Value → Option Binary64
    | .number n => some n.toDouble
    | _ => none
  if kind = "range" then do
    let r ← record? ["min", "max"]
    return .range (← r.required? "min" double?) (← r.required? "max" double?)
  else if kind = "minimum" then do
    let r ← record? ["val"]
    return .minimum (← r.required? "val" double?)
  else if kind = "maximum" then do
    let r ← record? ["val"]
    return .maximum (← r.required? "val" double?)
  else if kind = "unparseable" then (record? []).map fun _ => .free
  else none

/-- A criterion: a record whose `type` says which, or an array that starts with the type. -/
def ofJson? : Value → Option Criterion
  | .object members =>
    match members.filter fun m => m.1 == "type" with
    | [(_, .text kind)] => ofRecord? kind fun names => Record.ofMembers? names members
    | _ => none
  | .array (.text kind :: items) => ofRecord? kind fun names => Record.ofItems? names items
  | _ => none

/-- A criterion in a JSON text, where every part has to denote a value. -/
def ofTree? (t : Tree) : Option Criterion := (t.denote? maxDepth).bind ofJson?

end Criterion

/-- A verdict by its label. -/
def Verdict.ofTree? (t : Tree) : Option Verdict :=
  match t.tag? with
  | some s => if s = Verdict.pass.label then some .pass else if s = Verdict.fail.label then some .fail else none
  | none => none

/-- A material category by its label. -/
def Material.ofTree? (t : Tree) : Option Material := t.tag?.bind Material.ofLabel?

/-- An item kind by its code. -/
def ItemKind.ofTree? (t : Tree) : Option ItemKind := t.tag?.bind ItemKind.ofCode?

/-- A date as text, with blanks allowed around its parts. -/
def Date.ofTree? (t : Tree) : Option Date := t.text?.bind (Date.read? .loose)

/-- A delivery. -/
def Delivery.ofTree? (t : Tree) : Option Delivery := do
  let r ← t.record? ["supplier", "product_name", "specification", "category", "quantity",
    "package_count", "po_number", "inbound_date"]
  return {
    supplier := ← r.required? "supplier" Tree.text?
    product := ← r.required? "product_name" Tree.text?
    specification := ← r.optional? "specification" Tree.text?
    category := ← r.optional? "category" Tree.text?
    quantity := ← r.required? "quantity" Tree.double?
    packages := ← r.required? "package_count" Tree.int32?
    purchaseOrder := ← r.optional? "po_number" Tree.text?
    received := ← r.optional? "inbound_date" Date.ofTree? }

/-- A finding. -/
def Finding.ofTree? (t : Tree) : Option Finding := do
  let r ← t.record? ["item_id", "item_name", "values", "judgment", "unit"]
  return {
    itemId := ← r.required? "item_id" Tree.int64?
    itemName := ← r.required? "item_name" Tree.text?
    values := ← r.required? "values" (Tree.list? Tree.text?)
    verdict := ← r.required? "judgment" Verdict.ofTree?
    unit := ← r.required? "unit" Tree.text? }

/-- A report. -/
def Report.ofTree? (t : Tree) : Option Report := do
  let r ← t.record? ["report_no", "supplier", "product_name", "specification", "material_category",
    "quantity", "package_count", "arrival_date", "sampling_quantity", "po_number", "report_result",
    "inspector", "inspection_date", "details"]
  return {
    number := ← r.required? "report_no" Tree.text?
    supplier := ← r.required? "supplier" Tree.text?
    product := ← r.required? "product_name" Tree.text?
    specification := ← r.optional? "specification" Tree.text?
    category := ← r.required? "material_category" Tree.text?
    quantity := ← r.required? "quantity" Tree.double?
    packages := ← r.required? "package_count" Tree.int32?
    received := ← r.optional? "arrival_date" Date.ofTree?
    sampleSize := ← r.required? "sampling_quantity" Tree.size?
    purchaseOrder := ← r.optional? "po_number" Tree.text?
    result := ← r.required? "report_result" Verdict.ofTree?
    inspector := ← r.required? "inspector" Tree.text?
    inspected := ← r.required? "inspection_date" Date.ofTree?
    findings := ← r.required? "details" (Tree.list? Finding.ofTree?) }

/-! ## Settings -/

/-- A tier. -/
def Tier.ofTree? (t : Tree) : Option Tier := do
  let r ← t.record? ["max_packages", "sample_size"]
  return { limit := ← r.required? "max_packages" Tree.int32?
           size := ← r.required? "sample_size" Tree.size? }

/-- A sampling plan. -/
def SamplingPlan.ofTree? (t : Tree) : Option SamplingPlan := do
  let r ← t.record? ["default_sample_size", "tiers", "max_sample_size"]
  let d : SamplingPlan := {}
  return {
    unknownSize := ← r.orElse? "default_sample_size" Tree.size? d.unknownSize
    tiers := ← r.orElse? "tiers" (Tree.list? Tier.ofTree?) d.tiers
    largestSize := ← r.orElse? "max_sample_size" Tree.size? d.largestSize }

/-- How samples are made. -/
def Sample.Settings.ofTree? (t : Tree) : Option Sample.Settings := do
  let r ← t.record? ["hold_time_default", "initial_tack_default_min", "initial_tack_cap",
    "thickness_base", "dimension_base", "weight_base"]
  let d : Sample.Settings := {}
  return {
    holdTime := ← r.orElse? "hold_time_default" Tree.text? d.holdTime
    tackMinimum := ← r.orElse? "initial_tack_default_min" Tree.int64? d.tackMinimum
    tackCap := ← r.orElse? "initial_tack_cap" Tree.int64? d.tackCap
    thicknessBase := ← r.orElse? "thickness_base" Tree.double? d.thicknessBase
    dimensionBase := ← r.orElse? "dimension_base" Tree.double? d.dimensionBase
    weightBase := ← r.orElse? "weight_base" Tree.double? d.weightBase }

/-- How samples are judged. -/
def Judging.ofTree? (t : Tree) : Option Judging := do
  let r ← t.record? ["strict_numeric"]
  let d : Judging := {}
  return { strict := ← r.orElse? "strict_numeric" Tree.bool? d.strict }

/-- The settings of an inspection. -/
def Settings.ofTree? (t : Tree) : Option Settings := do
  let r ← t.record? ["default_sample_count", "generator", "judgment", "sampling"]
  let d : Settings := {}
  return {
    sampleCount := ← r.orElse? "default_sample_count" Tree.size? d.sampleCount
    sample := ← r.orElse? "generator" Sample.Settings.ofTree? d.sample
    judging := ← r.orElse? "judgment" Judging.ofTree? d.judging
    plan := ← r.orElse? "sampling" SamplingPlan.ofTree? d.plan }

end MaterialInspection
