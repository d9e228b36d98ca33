import MaterialInspection.Item
import MaterialInspection.Store.Error
import MaterialInspection.Store.Numbered

/-!
# The item catalog

An item is kept as one row with a column for each of its fields.  Its status is kept as a number, one
for an active item and zero for another, and it is read back field by field: `ItemRow.ofItem` writes,
`ItemRow.item` reads.

The catalog has one row for each name and category.  Putting an item under a name and category that
are taken replaces what is there and keeps its id; otherwise the item gets a new id.  Either way an id
is used up, so ids never come back and may have gaps, and once the last one is used up no item can be
put any more.

`Catalog.Inv` states what every sequence of operations keeps: names with categories are unique, ids
are positive, unique and no larger than the last one used up.
-/

set_option autoImplicit false

namespace MaterialInspection

/-- An item as it is kept. -/
structure ItemRow where
  id : Int
  name : String
  standard : String
  criteria : String
  rule : Option String
  unit : String
  category : String
  order : Int
  /-- One for an active item, zero for another. -/
  status : Int
  deriving DecidableEq

namespace ItemRow

/-- The row of an item under an id. -/
def ofItem (id : Int) (item : Item) : ItemRow where
  id
  name := item.name
  standard := item.standard
  criteria := item.criteria
  rule := item.rule
  unit := item.unit
  category := item.category
  order := item.order
  status := if item.active then 1 else 0

/-- The item of a row, built from its columns one by one. -/
def item (row : ItemRow) : Item :=
  let plain : Item := {
    id := row.id
    name := row.name
    standard := row.standard
    criteria := row.criteria
    unit := row.unit
    category := row.category
    order := row.order
    active := row.status == 1 }
  match row.rule with
  | none => plain
  | some rule => plain.withRule rule

/-- The name and category that a row stands under. -/
def key (row : ItemRow) : String × String := (row.name, row.category)

end ItemRow

/-- The name and category of an item. -/
def Item.key (item : Item) : String × String := (item.name, item.category)

namespace ItemRow

@[simp] theorem id_ofItem (id : Int) (item : Item) : (ofItem id item).id = id := rfl

@[simp] theorem key_ofItem (id : Int) (item : Item) : (ofItem id item).key = item.key := rfl

/-- But for its rule, an item is read from its row field by field. -/
theorem item_eq (row : ItemRow) :
    row.item = {
      id := row.id
      name := row.name
      standard := row.standard
      criteria := row.criteria
      rule := row.rule.filter fun rule => !Text.blank rule
      unit := row.unit
      category := row.category
      order := row.order
      active := row.status == 1 } := by
  unfold item Item.withRule
  cases row.rule with
  | none => rfl
  | some rule => cases hb : Text.blank rule <;> simp [Option.filter, hb]

@[simp] theorem id_item (row : ItemRow) : row.item.id = row.id := by rw [item_eq]

@[simp] theorem key_item (row : ItemRow) : row.item.key = row.key := by rw [item_eq]; rfl

@[simp] theorem category_item (row : ItemRow) : row.item.category = row.category := by rw [item_eq]

end ItemRow

/-- The table of items. -/
abbrev Catalog : Type := Numbered ItemRow

namespace Catalog

/-- A row with the item in its place, if it stands under the item's name and category. -/
def replace (item : Item) (row : ItemRow) : ItemRow :=
  if row.key == item.key then .ofItem row.id item else row

/-- An item added under a new id, or put in the place of the row under its name and category: its id,
and the catalog after, in which the new id is used up. -/
def enter (c : Catalog) (fresh : Int) (item : Item) : Int × Catalog :=
  match c.rows.find? fun row => row.key == item.key with
  | some row => (row.id, ⟨c.rows.map (replace item), fresh⟩)
  | none => (fresh, c.append fresh (.ofItem fresh item))

/-- An item added or replaced, as long as there is an id to be used up. -/
def put (c : Catalog) (item : Item) : Except StoreError (Int × Catalog) :=
  match c.freshId? (·.id) with
  | none => .error (.idsUsedUp .items)
  | some fresh => .ok (c.enter fresh item)

/-- The item with an id. -/
def find? (c : Catalog) (id : Int) : Option Item :=
  (c.rows.find? fun row => row.id == id).map ItemRow.item

/-- Rows by their order, and those of one order by their ids. -/
def sorted (rows : List ItemRow) : List ItemRow :=
  rows.mergeSort fun a b => decide (a.order < b.order) || (a.order == b.order && decide (a.id ≤ b.id))

/-- The active items. -/
def active (c : Catalog) : List Item :=
  (sorted (c.rows.filter fun row => row.status == 1)).map ItemRow.item

/-- Whether what stands under one category is selected for another: strictly by the category as it is
written, otherwise also if there is none or the general one. -/
def selects (category : String) (strict : Bool) (own : String) : Bool :=
  own == category || (!strict && (own == "" || own == generalCategory))

/-- The active items selected for a category. -/
def activeFor (c : Catalog) (category : String) (strict : Bool) : List Item :=
  (sorted (c.rows.filter fun row => row.status == 1 && selects category strict row.category)).map
    ItemRow.item

/-- The catalog with an item made inactive, unless no item has the id. -/
def deactivate? (c : Catalog) (id : Int) : Option Catalog :=
  if c.rows.any fun row => row.id == id then
    some { c with rows := c.rows.map fun row => if row.id == id then { row with status := 0 } else row }
  else none

/-- What every sequence of operations keeps. -/
structure Inv (c : Catalog) : Prop where
  keys : c.rows.Pairwise fun a b => a.key ≠ b.key
  ids : c.rows.Pairwise fun a b => a.id < b.id
  bounds : ∀ row ∈ c.rows, 0 < row.id ∧ row.id ≤ c.lastId
  counter : 0 ≤ c.lastId

/-- The id that the next item gets. -/
abbrev nextId (c : Catalog) : Int := Numbered.nextId c ItemRow.id

theorem empty_inv : Inv Numbered.empty := by
  constructor <;> simp [Numbered.empty]

theorem Inv.nextId_eq {c : Catalog} (h : Inv c) : c.nextId = c.lastId + 1 := by
  unfold nextId Numbered.nextId
  rw [Numbered.greatestId_of_le fun row hrow => (h.bounds row hrow).2]

@[simp] theorem replace_id (item : Item) (row : ItemRow) : (replace item row).id = row.id := by
  unfold replace
  split <;> rfl

/-- A replaced row has the key that it had. -/
@[simp] theorem replace_key (item : Item) (row : ItemRow) : (replace item row).key = row.key := by
  unfold replace
  split
  · rename_i h
    exact (eq_of_beq h).symm
  · rfl

/-- Rows that are changed in place, under their ids, names and categories, keep the invariant; ids may be
used up. -/
theorem Inv.map {c : Catalog} (h : Inv c) {f : ItemRow → ItemRow} (hid : ∀ row, (f row).id = row.id)
    (hkey : ∀ row, (f row).key = row.key) {lastId : Int} (hlast : c.lastId ≤ lastId) :
    Inv ⟨c.rows.map f, lastId⟩ where
  keys := by
    rw [List.pairwise_map]
    simpa only [hkey] using h.keys
  ids := by
    rw [List.pairwise_map]
    simpa only [hid] using h.ids
  bounds := by
    intro row hrow
    obtain ⟨old, hold, rfl⟩ := List.mem_map.1 hrow
    obtain ⟨hpos, hle⟩ := h.bounds old hold
    rw [hid]
    exact ⟨hpos, Int.le_trans hle hlast⟩
  counter := Int.le_trans h.counter hlast

/-- A row under a new id, name and category keeps the invariant. -/
theorem Inv.append {c : Catalog} (h : Inv c) {row : ItemRow} (hid : c.lastId < row.id)
    (hkey : ∀ other ∈ c.rows, other.key ≠ row.key) : Inv (Numbered.append c row.id row) where
  keys := by
    refine List.pairwise_append.2 ⟨h.keys, List.pairwise_singleton _ _, fun other hother new hnew => ?_⟩
    rw [List.mem_singleton.1 hnew]
    exact hkey other hother
  ids := by
    refine List.pairwise_append.2 ⟨h.ids, List.pairwise_singleton _ _, fun other hother new hnew => ?_⟩
    rw [List.mem_singleton.1 hnew]
    exact Int.lt_of_le_of_lt (h.bounds other hother).2 hid
  bounds := by
    intro other hother
    rcases List.mem_append.1 hother with hold | hnew
    · obtain ⟨hpos, hle⟩ := h.bounds other hold
      exact ⟨hpos, Int.le_trans hle (Int.le_of_lt hid)⟩
    · rw [List.mem_singleton.1 hnew]
      exact ⟨Int.lt_of_le_of_lt h.counter hid, Int.le_refl row.id⟩
  counter := Int.le_trans h.counter (Int.le_of_lt hid)

/-- Putting an item keeps the invariant. -/
theorem enter_inv {c : Catalog} (h : Inv c) {fresh : Int} (hfresh : c.lastId < fresh) (item : Item) :
    Inv (c.enter fresh item).2 := by
  unfold enter
  split
  · exact h.map (replace_id item) (replace_key item) (Int.le_of_lt hfresh)
  · rename_i hnone
    have hkey : ∀ row ∈ c.rows, row.key ≠ (ItemRow.ofItem fresh item).key := fun row hrow => by
      simpa using List.find?_eq_none.1 hnone row hrow
    exact h.append hfresh hkey

end Catalog

end MaterialInspection
