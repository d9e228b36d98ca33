import Mathlib.Data.List.Nodup
import MaterialInspection.Proofs.Store.Renewal

/-!
# One row at a time

An item that is put finds its place by its name and category alone, an item is made inactive by its id,
and either changes one row of the catalog and leaves the others as they are.

* `ItemRow.item_ofItem` — an item is read back as it was written, but for its id, exactly when it is built.
* `Catalog.Inv.find?_row` — in a catalog the id of a row finds the row's item.
* `Catalog.entered_entered` — an item that is put: the row that it gets, and that all others stay.
* `Catalog.deactivate_retired` — an item made inactive, likewise.
-/

set_option autoImplicit false

namespace MaterialInspection

/-! ## Items as they are built -/

/-- An item whose rule, if it has one, is not blank, as `withRule` makes them. -/
def Item.Built (item : Item) : Prop := ∀ rule ∈ item.rule, Text.blank rule = false

theorem Item.withRule_built (item : Item) (rule : String) : (item.withRule rule).Built := by
  unfold Built withRule
  cases hb : Text.blank rule with
  | true => nofun
  | false =>
    rintro _ ⟨⟩
    exact hb

namespace ItemRow

/-- A row is written with the status that its item is read with. -/
theorem status_ofItem (id : Int) (item : Item) : ((ofItem id item).status == 1) = item.active := by
  unfold ofItem
  cases item.active <;> rfl

/-- Every item that is read is built. -/
theorem item_built (row : ItemRow) : row.item.Built := by
  rw [item_eq]
  intro rule hrule
  simpa using (Option.mem_filter_iff.1 hrule).2

/-- The items that are read back as they were written, but for their ids, are those that are built. -/
theorem item_ofItem (id : Int) (item : Item) :
    (ofItem id item).item = { item with id := id } ↔ item.Built := by
  constructor
  · intro h
    have hbuilt : Item.Built { item with id := id } := h ▸ item_built _
    exact hbuilt
  · intro h
    have hrule : item.rule.filter (fun rule => !Text.blank rule) = item.rule := by
      cases hrule : item.rule with
      | none => rfl
      | some rule => rw [Option.filter_some, h rule hrule, Bool.not_false, if_pos rfl]
    rw [item_eq, status_ofItem]
    unfold ofItem
    dsimp only
    rw [hrule]

/-- A row that is the row of its own item, as every row of a built item is. -/
def Faithful (row : ItemRow) : Prop := ofItem row.id row.item = row

/-- The rows of built items are faithful. -/
theorem ofItem_faithful (id : Int) {item : Item} (h : item.Built) : (ofItem id item).Faithful := by
  unfold Faithful
  rw [(item_ofItem id item).2 h]
  rfl

end ItemRow

namespace Catalog

variable {c before after : Catalog} {item : Item} {row other : ItemRow} {id : Int}

/-! ## Ids and keys -/

/-- An id stands for one row. -/
theorem Inv.eq_of_id (h : Inv c) (hrow : row ∈ c.rows) (hother : other ∈ c.rows)
    (hid : row.id = other.id) : row = other := by
  have hnodup : (c.rows.map ItemRow.id).Nodup := by
    unfold List.Nodup
    rw [List.pairwise_map]
    exact h.ids.imp fun hlt => Int.ne_of_lt hlt
  exact List.inj_on_of_nodup_map hnodup hrow hother hid

/-- A name and category stand for one row. -/
theorem Inv.eq_of_key (h : Inv c) (hrow : row ∈ c.rows) (hother : other ∈ c.rows)
    (hkey : row.key = other.key) : row = other := by
  have hnodup : (c.rows.map ItemRow.key).Nodup := by
    unfold List.Nodup
    rw [List.pairwise_map]
    exact h.keys
  exact List.inj_on_of_nodup_map hnodup hrow hother hkey

/-- The id of a row finds the row's item. -/
theorem Inv.find?_row (h : Inv c) (hrow : row ∈ c.rows) : c.find? row.id = some row.item := by
  unfold find?
  cases hfind : c.rows.find? fun other => other.id == row.id with
  | none => exact absurd (List.find?_eq_none.1 hfind row hrow) (by simp)
  | some other =>
    have hid : other.id = row.id :=
      eq_of_beq (List.find?_some (p := fun other : ItemRow => other.id == row.id) hfind)
    rw [h.eq_of_id (List.mem_of_find?_eq_some hfind) hrow hid]
    rfl

/-- An active item is read from a row with that status. -/
theorem row_of_active (h : item ∈ c.active) : ∃ row ∈ c.rows, row.status = 1 ∧ row.item = item := by
  obtain ⟨row, hrow, rfl⟩ := List.mem_map.1 h
  obtain ⟨hmem, hstatus⟩ := List.mem_filter.1 (List.mem_mergeSort.1 hrow)
  exact ⟨row, hmem, eq_of_beq hstatus, rfl⟩

/-! ## An item that is put -/

/-- What putting an item makes of a catalog, when it answers with an id. -/
structure Entered (item : Item) (id : Int) (before after : Catalog) : Prop where
  /-- The id finds the item, and of the item only the id is new. -/
  found : after.find? id = some { item with id := id }
  /-- If there was a row under the name and category, the id is its id. -/
  taken : ∀ row ∈ before.rows, row.key = item.key → id = row.id
  /-- If there was none, the id was never given out. -/
  fresh : (∀ row ∈ before.rows, row.key ≠ item.key) → before.lastId < id ∧ ∀ row ∈ before.rows, row.id < id
  /-- The other rows are as they were, in their order. -/
  others : (after.rows.filter fun row => row.id != id) = before.rows.filter fun row => row.id != id

/-- The id that putting an item answers with. -/
def idFor (c : Catalog) (item : Item) : Int := (c.enter c.nextId item).1

/-- The id of an item that is put is that of the row under its key, or the next one. -/
theorem idFor_cases (c : Catalog) (item : Item) :
    (∃ row ∈ c.rows, row.key = item.key ∧ c.idFor item = row.id) ∨
      (∀ row ∈ c.rows, row.key ≠ item.key) ∧ c.idFor item = c.nextId := by
  unfold idFor enter
  cases hfind : c.rows.find? fun row => row.key == item.key with
  | some row =>
    exact .inl ⟨row, List.mem_of_find?_eq_some hfind,
      eq_of_beq (List.find?_some (p := fun row : ItemRow => row.key == item.key) hfind), rfl⟩
  | none =>
    refine .inr ⟨?_, rfl⟩
    simpa [List.find?_eq_none] using hfind

/-- An item whose key is taken gets the id of the row that has it. -/
theorem Inv.idFor_of_key (h : Inv c) (hrow : row ∈ c.rows) (hkey : row.key = item.key) :
    c.idFor item = row.id := by
  rcases idFor_cases c item with ⟨other, hother, hsame, hid⟩ | ⟨hnone, _⟩
  · rw [hid, h.eq_of_key hother hrow (hsame.trans hkey.symm)]
  · exact absurd hkey (hnone row hrow)

/-- The item stands in the catalog under the id that putting it answers with. -/
theorem mem_entered_self (c : Catalog) (item : Item) :
    .ofItem (c.idFor item) item ∈ (c.entered item).rows := by
  rw [rows_entered]
  rcases idFor_cases c item with ⟨row, hrow, hkey, hid⟩ | ⟨hnone, hid⟩
  · rw [hid, ← replace_of_key hkey]
    exact List.mem_append_left _ (List.mem_map_of_mem hrow)
  · have hany : ¬ (c.rows.any fun row => row.key == item.key) = true := by
      simpa [List.any_eq_true] using hnone
    rw [hid, if_neg hany]
    exact List.mem_append_right _ List.mem_cons_self

/-- A row after an item was put was there before, or is the item's. -/
theorem mem_entered (h : row ∈ (c.entered item).rows) :
    row ∈ c.rows ∨ row = .ofItem row.id item := by
  rw [rows_entered] at h
  rcases List.mem_append.1 h with h | h
  · obtain ⟨old, hold, rfl⟩ := List.mem_map.1 h
    by_cases hkey : old.key = item.key
    · rw [replace_of_key hkey]
      exact .inr rfl
    · rw [replace_of_key_ne hkey]
      exact .inl hold
  · split at h
    · cases h
    · obtain rfl := List.mem_singleton.1 h
      exact .inr rfl

/-- Putting an item keeps the invariant. -/
theorem entered_inv (h : Inv c) (item : Item) : Inv (c.entered item) := by
  refine enter_inv h ?_ item
  rw [h.nextId_eq]
  exact Int.lt_succ c.lastId

/-- The rows but for that of the item stay as they are. -/
theorem others_entered (h : Inv c) (item : Item) :
    ((c.entered item).rows.filter fun row => row.id != c.idFor item) =
      c.rows.filter fun row => row.id != c.idFor item := by
  have hnew : ((if (c.rows.any fun row => row.key == item.key) then []
      else [ItemRow.ofItem c.nextId item]).filter fun row => row.id != c.idFor item) = [] := by
    rcases idFor_cases c item with ⟨row, hrow, hkey, _⟩ | ⟨_, hid⟩
    · have hany : (c.rows.any fun row => row.key == item.key) = true :=
        List.any_eq_true.2 ⟨row, hrow, beq_iff_eq.2 hkey⟩
      rw [if_pos hany, List.filter_nil]
    · rw [hid]
      split
      · rw [List.filter_nil]
      · rw [List.filter_singleton]
        simp
  rw [rows_entered, List.filter_append, hnew, List.append_nil]
  refine filter_map_of_kept (fun row => by rw [replace_id]) fun row hrow hid => ?_
  -- a row with another id has another key, so nothing is written over it
  refine replace_of_key_ne fun hkey => ?_
  exact bne_iff_ne.1 hid (h.idFor_of_key hrow hkey).symm

/-- An item that is put gets the row under its name and category, or a new one with a new id; the other
rows stay. -/
theorem entered_entered (h : Inv c) (hitem : item.Built) :
    Entered item (c.idFor item) c (c.entered item) := by
  refine ⟨?_, fun _ hrow hkey => h.idFor_of_key hrow hkey, ?_, others_entered h item⟩
  · have hfound := (entered_inv h item).find?_row (mem_entered_self c item)
    rwa [ItemRow.id_ofItem, (ItemRow.item_ofItem _ _).2 hitem] at hfound
  · intro hnone
    rcases idFor_cases c item with ⟨other, hother, hsame, _⟩ | ⟨_, hid⟩
    · exact absurd hsame (hnone other hother)
    · rw [hid]
      exact ⟨by rw [h.nextId_eq]; exact Int.lt_succ c.lastId,
        fun row hrow => Numbered.lt_nextId c ItemRow.id hrow⟩

/-! ## An item made inactive -/

/-- What making the item with an id inactive makes of a catalog. -/
structure Retired (id : Int) (before after : Catalog) : Prop where
  /-- Of the row with the id only the status is new. -/
  found : ∃ row ∈ before.rows, row.id = id ∧ after.find? id = some { row.item with active := false }
  /-- The other rows are as they were, in their order. -/
  others : (after.rows.filter fun row => row.id != id) = before.rows.filter fun row => row.id != id

/-- A row as it is once the item with an id is inactive. -/
def retire (id : Int) (row : ItemRow) : ItemRow :=
  if row.id == id then { row with status := 0 } else row

@[simp] theorem retire_id (id : Int) (row : ItemRow) : (retire id row).id = row.id := by
  unfold retire
  split <;> rfl

@[simp] theorem retire_key (id : Int) (row : ItemRow) : (retire id row).key = row.key := by
  unfold retire
  split <;> rfl

/-- Of the item with the id only the status is new. -/
theorem item_retire_self (row : ItemRow) :
    (retire row.id row).item = { row.item with active := false } := by
  unfold retire
  rw [beq_self_eq_true, if_pos rfl, ItemRow.item_eq, ItemRow.item_eq]
  rfl

theorem retire_of_ne (h : row.id ≠ id) : retire id row = row :=
  if_neg (by simpa using h)

/-- Items are made inactive by the id of a row. -/
theorem rows_of_deactivate? (h : c.deactivate? id = some after) :
    (∃ row ∈ c.rows, row.id = id) ∧ after.rows = c.rows.map (retire id) ∧
      after.lastId = c.lastId := by
  unfold deactivate? at h
  split at h
  · rename_i hany
    cases h
    obtain ⟨row, hrow, hid⟩ := List.any_eq_true.1 hany
    exact ⟨⟨row, hrow, eq_of_beq hid⟩, rfl, rfl⟩
  · cases h

theorem ne_of_deactivate? (h : c.deactivate? id = none) : ∀ row ∈ c.rows, row.id ≠ id := by
  unfold deactivate? at h
  split at h
  · cases h
  · rename_i hany
    simpa [List.any_eq_true] using hany

/-- Making an item inactive keeps the invariant. -/
theorem deactivate_inv (h : Inv c) (hd : c.deactivate? id = some after) : Inv after := by
  obtain ⟨_, hrows, hlast⟩ := rows_of_deactivate? hd
  have hkept := h.map (retire_id id) (retire_key id) (Int.le_refl c.lastId)
  rwa [← hrows, ← hlast] at hkept

/-- Making an item inactive uses up no id. -/
theorem idsLeft_deactivate (hd : c.deactivate? id = some after) : after.idsLeft = c.idsLeft := by
  obtain ⟨_, hrows, hlast⟩ := rows_of_deactivate? hd
  have hids : after.rows.map ItemRow.id = c.rows.map ItemRow.id := by
    rw [hrows, List.map_map]
    exact List.map_congr_left fun row _ => retire_id id row
  unfold idsLeft Numbered.greatestId
  rw [hids, hlast]

theorem deactivate_retired (h : Inv c) (hd : c.deactivate? id = some after) :
    Retired id c after := by
  have hinv := deactivate_inv h hd
  obtain ⟨⟨row, hrow, rfl⟩, hrows, _⟩ := rows_of_deactivate? hd
  refine ⟨⟨row, hrow, rfl, ?_⟩, ?_⟩
  · have hmem : retire row.id row ∈ after.rows := by
      rw [hrows]
      exact List.mem_map_of_mem hrow
    have hfound := hinv.find?_row hmem
    rwa [retire_id, item_retire_self] at hfound
  · rw [hrows]
    exact filter_map_of_kept (fun other => by rw [retire_id])
      fun _ _ hother => retire_of_ne (bne_iff_ne.1 hother)

end Catalog

/-- The active items of a catalog with one row, which is active. -/
theorem Store.activeItems_of_one {s : Store} {row : ItemRow} {n : Int}
    (hs : s.items = some ⟨[row], n⟩) (h : row.status = 1) : s.activeItems = .ok [row.item] := by
  unfold activeItems table Catalog.active Catalog.sorted
  rw [hs]
  simp [Except.map, h]

end MaterialInspection
