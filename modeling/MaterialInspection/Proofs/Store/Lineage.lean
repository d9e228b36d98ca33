import MaterialInspection.Proofs.Store.OneRow
import MaterialInspection.Proofs.Store.Selection

/-!
# Where the rows of the catalog come from

Items are put, made inactive and imported one after another, from a store that has just been made, and
nothing takes a row away.

* `CatalogChange.run_keeps` — what every item that is put and every item made inactive keeps, a run of
  changes keeps.
* `CatalogChange.run_idsLeft` — every item that is put, and nothing else, uses up an id.
* `Catalog.Grows` — rows keep their ids, names and categories, in their order, whatever follows.
* `Catalog.Hidden` — a row that was made inactive stays so until its item is put again.
* `Store.items_after_changes` — the catalog after any changes, and what every item that is put and every
  deactivation does to it.
-/

set_option autoImplicit false

namespace MaterialInspection

/-! ## Items of a file -/

namespace Item

/-- A cell of a row that is read is not blank. -/
theorem blank_cell? {row : Row} {columns : List String} {s : String}
    (h : cell? row columns = some s) : Text.blank s = false := by
  rw [← Text.isEmpty_trim, trim_cell? h]
  unfold cell? at h
  have hempty : (!s.isEmpty) = true := List.find?_some (p := fun s : String => !s.isEmpty) h
  simpa using hempty

/-- The rule of a row is not blank. -/
theorem blank_ruleOf {row : Row} {rule : String} (h : ruleOf row = .ok (some rule)) :
    Text.blank rule = false := by
  unfold ruleOf at h
  cases hcell : cell? row ruleColumns with
  | none =>
    rw [hcell] at h
    cases h
  | some s =>
    rw [hcell] at h
    dsimp only at h
    split at h
    · cases h
    · split at h
      · cases h
        exact blank_cell? hcell
      · cases h

/-- The item of a row of a file is built. -/
theorem ofRow_built {row : Row} {item : Item} (h : ofRow row = .ok item) : item.Built := by
  obtain ⟨name, order, active, read, _, _, _, hrule, rfl⟩ := ofRow_eq_ok_iff.1 h
  rintro rule rfl
  exact blank_ruleOf hrule

end Item

/-! ## What changes put -/

namespace CatalogChange

/-- The items that a change puts, in order. -/
def puts : CatalogChange → List Item
  | put item => [item]
  | deactivate _ => []
  | importFile file => Desk.validItems ((file.rows .byExtension).toOption.getD [])

/-- A change that puts only built items; those of a file always are. -/
def Built : CatalogChange → Prop
  | put item => item.Built
  | deactivate _ => True
  | importFile _ => True

theorem puts_built {change : CatalogChange} (h : change.Built) : ∀ item ∈ change.puts, item.Built := by
  cases change with
  | put item =>
    intro other hother
    rw [List.mem_singleton.1 hother]
    exact h
  | deactivate id => nofun
  | importFile file =>
    intro item hitem
    obtain ⟨row, _, hrow⟩ := Desk.mem_validItems.1 hitem
    exact Item.ofRow_built hrow

/-- Importing a file puts its items, one after another. -/
theorem importFile_puts (file : CatalogFile) (s : Store) :
    (Desk.importFile file s).2 = s.putItems (importFile file).puts := by
  have hputs : (importFile file).puts =
      Desk.validItems ((file.rows .byExtension).toOption.getD []) := rfl
  rw [hputs]
  cases hrows : file.rows .byExtension with
  | ok rows =>
    rw [Desk.importFile_of_rows hrows]
    dsimp only [Except.toOption, Option.getD_some]
  | error e =>
    unfold Desk.importFile
    rw [hrows]
    rfl

variable {P : Catalog → Prop} {c : Catalog} {s : Store}

/-- Items are put into the catalog as long as there are ids left, and nothing else is done by a change
that puts items. -/
theorem apply_items (change : CatalogChange) (hs : s.items = some c) :
    (change.apply s).items = some (match change with
      | deactivate id => (c.deactivate? id).getD c
      | _ => Catalog.putAsRoom change.puts c) := by
  cases change with
  | put item =>
    have hafter : (put item).apply s = s.putItems [item] := rfl
    rw [hafter, Store.putItems_eq]
    dsimp only
    rw [hs]
    rfl
  | deactivate id =>
    have hafter : (deactivate id).apply s = (s.deactivate id).2 := rfl
    rw [hafter, Store.deactivate_items, hs]
    rfl
  | importFile file =>
    have hafter : (importFile file).apply s = s.putItems (importFile file).puts :=
      importFile_puts file s
    rw [hafter, Store.putItems_eq]
    dsimp only
    rw [hs]
    rfl

/-- What every item that a change puts keeps, and every item made inactive, the change keeps. -/
theorem apply_keeps {change : CatalogChange}
    (hput : ∀ c, P c → ∀ item ∈ change.puts, P (c.entered item))
    (hdeactivate : ∀ c after id, P c → c.deactivate? id = some after → P after)
    (hs : s.items = some c) (h : P c) : ∃ after, (change.apply s).items = some after ∧ P after := by
  have hall : P (Catalog.putAsRoom change.puts c) :=
    List.foldlRecOn _ _ h fun d hd item hitem => hput d hd item (List.mem_of_mem_take hitem)
  refine ⟨_, apply_items change hs, ?_⟩
  cases change with
  | put item => exact hall
  | importFile file => exact hall
  | deactivate id =>
    dsimp only
    cases hd : c.deactivate? id with
    | none => exact h
    | some after => exact hdeactivate c after id h hd

/-- What every item that some changes put keeps, and every item made inactive, the changes keep. -/
theorem run_keeps {changes : List CatalogChange}
    (hput : ∀ c, P c → ∀ change ∈ changes, ∀ item ∈ change.puts, P (c.entered item))
    (hdeactivate : ∀ c after id, P c → c.deactivate? id = some after → P after)
    (hs : s.items = some c) (h : P c) : ∃ after, (run changes s).items = some after ∧ P after := by
  induction changes generalizing s c with
  | nil => exact ⟨c, hs, h⟩
  | cons change rest ih =>
    obtain ⟨next, hnext, hkept⟩ :=
      apply_keeps (fun c hc => hput c hc change List.mem_cons_self) hdeactivate hs h
    exact ih (fun c hc other hother => hput c hc other (List.mem_cons_of_mem _ hother)) hnext hkept

/-- Every item that a change puts uses up an id. -/
theorem apply_idsLeft (change : CatalogChange) (hs : s.items = some c) :
    ∃ after, (change.apply s).items = some after ∧
      after.idsLeft = c.idsLeft - change.puts.length := by
  refine ⟨_, apply_items change hs, ?_⟩
  cases change with
  | put item => exact Catalog.idsLeft_putAsRoom _ c
  | importFile file => exact Catalog.idsLeft_putAsRoom _ c
  | deactivate id =>
    dsimp only
    cases hd : c.deactivate? id with
    | none => rfl
    | some after => exact Catalog.idsLeft_deactivate hd

/-- Every item that some changes put uses up an id. -/
theorem run_idsLeft (changes : List CatalogChange) (hs : s.items = some c) :
    ∃ after, (run changes s).items = some after ∧
      after.idsLeft = c.idsLeft - (changes.flatMap puts).length := by
  induction changes generalizing s c with
  | nil => exact ⟨c, hs, rfl⟩
  | cons change rest ih =>
    obtain ⟨next, hnext, hleft⟩ := apply_idsLeft change hs
    obtain ⟨after, hafter, hrest⟩ := ih hnext
    refine ⟨after, hafter, ?_⟩
    rw [hrest, hleft, List.flatMap_cons, List.length_append, Nat.sub_sub]

end CatalogChange

namespace Catalog

variable {c before after : Catalog} {item : Item} {row other : ItemRow} {id : Int}

/-! ## What changes keep -/

/-- The id of each row with the name and category that it stands for. -/
def entries (c : Catalog) : List (Int × String × String) := c.rows.map fun row => (row.id, row.key)

/-- The rows of one catalog stand first in another, under their ids, names and categories. -/
def Grows (before after : Catalog) : Prop := before.entries <+: after.entries

/-- Rows that are changed in place stand for what they stood for. -/
theorem entries_of_map {f : ItemRow → ItemRow} (hid : ∀ row, (f row).id = row.id)
    (hkey : ∀ row, (f row).key = row.key) (c : Catalog) :
    (c.rows.map f).map (fun row => (row.id, row.key)) = c.entries := by
  rw [List.map_map]
  refine List.map_congr_left fun row _ => ?_
  rw [Function.comp_apply, hid, hkey]

/-- An item that is put adds its row behind the others, if it has none. -/
theorem grows_entered (c : Catalog) (item : Item) : c.Grows (c.entered item) := by
  have hkept := entries_of_map (replace_id item) (replace_key item) c
  unfold Grows
  rw [← hkept]
  unfold entries
  rw [rows_entered, List.map_append]
  exact List.prefix_append _ _

theorem grows_deactivate (h : c.deactivate? id = some after) : c.Grows after := by
  obtain ⟨_, hrows, _⟩ := rows_of_deactivate? h
  have hkept : after.entries = c.entries := by
    rw [← entries_of_map (retire_id id) (retire_key id) c, ← hrows]
    rfl
  unfold Grows
  simp only [hkept, List.prefix_refl]

/-- A row that was there has its id in the catalog that has grown, and no other row has. -/
theorem Grows.key_of_id (h : before.Grows after) (hinv : Inv after) (hrow : row ∈ before.rows)
    (hother : other ∈ after.rows) (hid : other.id = row.id) : other.key = row.key := by
  have hentry : (row.id, row.key) ∈ after.entries := h.subset (List.mem_map_of_mem hrow)
  obtain ⟨now, hnow, heq⟩ := List.mem_map.1 hentry
  obtain ⟨hnowId, hkey⟩ := Prod.mk.injEq .. ▸ heq
  rw [hinv.eq_of_id hother hnow (hid.trans hnowId.symm)]
  exact hkey

/-- No row with a name and category is active. -/
def Hidden (key : String × String) (c : Catalog) : Prop :=
  ∀ row ∈ c.rows, row.key = key → row.status ≠ 1

/-- An item put under another key leaves the rows of this one inactive. -/
theorem hidden_entered {key : String × String} (h : Hidden key c) (hkey : item.key ≠ key) :
    Hidden key (c.entered item) := by
  intro row hrow hsame
  rcases mem_entered hrow with hold | hnew
  · exact h row hold hsame
  · rw [hnew, ItemRow.key_ofItem] at hsame
    exact absurd hsame hkey

theorem status_retire_self (row : ItemRow) : (retire row.id row).status = 0 :=
  congrArg ItemRow.status (if_pos (beq_self_eq_true row.id))

/-- Making an item inactive makes none active. -/
theorem hidden_deactivate {key : String × String} (h : Hidden key c)
    (hd : c.deactivate? id = some after) : Hidden key after := by
  obtain ⟨_, hrows, _⟩ := rows_of_deactivate? hd
  intro row hrow hkey
  rw [hrows] at hrow
  obtain ⟨old, hold, rfl⟩ := List.mem_map.1 hrow
  rw [retire_key] at hkey
  by_cases hid : old.id = id
  · rw [← hid, status_retire_self]
    exact Int.zero_ne_one
  · rw [retire_of_ne hid]
    exact h old hold hkey

/-- An item made inactive is hidden. -/
theorem hidden_of_deactivate (h : Inv c) (hrow : row ∈ c.rows)
    (hd : c.deactivate? row.id = some after) : Hidden row.key after := by
  obtain ⟨_, hrows, _⟩ := rows_of_deactivate? hd
  intro now hnow hkey
  rw [hrows] at hnow
  obtain ⟨old, hold, rfl⟩ := List.mem_map.1 hnow
  rw [retire_key] at hkey
  rw [h.eq_of_key hold hrow hkey, status_retire_self]
  exact Int.zero_ne_one

/-- All rows are faithful. -/
def AllFaithful (c : Catalog) : Prop := ∀ row ∈ c.rows, row.Faithful

theorem allFaithful_entered (h : AllFaithful c) (hitem : item.Built) :
    AllFaithful (c.entered item) := by
  intro row hrow
  rcases mem_entered hrow with hold | hnew
  · exact h row hold
  · rw [hnew]
    exact ItemRow.ofItem_faithful _ hitem

theorem allFaithful_deactivate (h : AllFaithful c) (hd : c.deactivate? id = some after) :
    AllFaithful after := by
  obtain ⟨_, hrows, _⟩ := rows_of_deactivate? hd
  intro row hrow
  rw [hrows] at hrow
  obtain ⟨old, hold, rfl⟩ := List.mem_map.1 hrow
  by_cases hid : old.id = id
  · subst hid
    have hread : (retire old.id old).item = { old.item with active := false } := item_retire_self old
    have hwritten : ItemRow.ofItem old.id { old.item with active := false } =
        { ItemRow.ofItem old.id old.item with status := 0 } := rfl
    have hold' : ItemRow.ofItem old.id old.item = old := h old hold
    unfold ItemRow.Faithful
    rw [retire_id, hread, hwritten, hold']
    exact (if_pos (beq_self_eq_true old.id)).symm
  · rw [retire_of_ne hid]
    exact h old hold

end Catalog

namespace Store

variable {s : Store} {c : Catalog} {row : ItemRow}

/-! ## From a new store on -/

/-- The store after some changes, from a new one on. -/
def ofChanges (changes : List CatalogChange) : Store := CatalogChange.run changes blank.prepare

/-- The item of a row is neither among the active items nor selected for any category. -/
def PassesOver (s : Store) (row : ItemRow) : Prop :=
  ∃ items, s.activeItems = .ok items ∧ (∀ item ∈ items, item.key ≠ row.key ∧ item.id ≠ row.id) ∧
    ∀ category strict, ∃ selected, s.itemsFor category strict = .ok selected ∧
      ∀ item ∈ selected, item.key ≠ row.key ∧ item.id ≠ row.id

theorem deactivate_of_some (hs : s.items = some c) {id : Int} {after : Catalog}
    (hd : c.deactivate? id = some after) :
    s.deactivate id = (.ok (), { s with items := some after }) := by
  unfold deactivate statement table
  dsimp only
  rw [hs]
  dsimp only
  rw [hd]

/-- A deactivation that fails changes nothing. -/
theorem deactivate_of_none (hs : s.items = some c) {id : Int} (hd : c.deactivate? id = none) :
    s.deactivate id = (.error (.unknownItem id), s) := by
  unfold deactivate statement table
  dsimp only
  rw [hs]
  dsimp only
  rw [hd]

/-- A hidden row whose id no other key has is passed over. -/
theorem passesOver_of_hidden (hs : s.items = some c) (hhidden : Catalog.Hidden row.key c)
    (hid : ∀ now ∈ c.rows, now.id = row.id → now.key = row.key) : s.PassesOver row := by
  have hactive : s.activeItems = .ok c.active := by
    unfold activeItems table
    rw [hs]
    rfl
  have hunlisted : ∀ item ∈ c.active, item.key ≠ row.key ∧ item.id ≠ row.id := by
    intro item hitem
    obtain ⟨now, hnow, hon, rfl⟩ := Catalog.row_of_active hitem
    rw [ItemRow.key_item, ItemRow.id_item]
    exact ⟨fun hkey => hhidden now hnow hkey hon,
      fun hsame => hhidden now hnow (hid now hnow hsame) hon⟩
  refine ⟨c.active, hactive, hunlisted, fun category strict => ?_⟩
  rw [itemsFor_eq, hactive]
  exact ⟨_, rfl, fun item hitem => hunlisted item (List.mem_filter.1 hitem).1⟩

/-- The catalog stays in order, whatever changes it. -/
theorem ofChanges_inv (changes : List CatalogChange) :
    ∃ catalog, (ofChanges changes).items = some catalog ∧ Catalog.Inv catalog :=
  CatalogChange.run_keeps (fun _ hc _ _ item _ => Catalog.entered_inv hc item)
    (fun _ _ _ hc hd => Catalog.deactivate_inv hc hd) rfl Catalog.empty_inv

theorem ofChanges_append (first rest : List CatalogChange) :
    ofChanges (first ++ rest) = CatalogChange.run rest (ofChanges first) :=
  List.foldl_append

/-- The catalog grows, whatever changes it. -/
theorem ofChanges_grows {first rest : List CatalogChange} {before after : Catalog}
    (hbefore : (ofChanges first).items = some before)
    (hafter : (ofChanges (first ++ rest)).items = some after) : before.Grows after := by
  have hrun : ∃ grown, (CatalogChange.run rest (ofChanges first)).items = some grown ∧
      before.Grows grown :=
    CatalogChange.run_keeps
      (fun c hc _ _ item _ => List.IsPrefix.trans hc (Catalog.grows_entered c item))
      (fun _ _ _ hc hd => List.IsPrefix.trans hc (Catalog.grows_deactivate hd)) hbefore
      (List.prefix_refl _)
  obtain ⟨grown, hgrown, hgrows⟩ := hrun
  rw [ofChanges_append, hgrown, Option.some.injEq] at hafter
  exact hafter ▸ hgrows

/-- Built items make faithful rows. -/
theorem ofChanges_allFaithful {changes : List CatalogChange}
    (h : ∀ change ∈ changes, change.Built) :
    ∃ catalog, (ofChanges changes).items = some catalog ∧ Catalog.AllFaithful catalog :=
  CatalogChange.run_keeps
    (fun _ hc change hchange item hitem =>
      Catalog.allFaithful_entered hc (CatalogChange.puts_built (h change hchange) item hitem))
    (fun _ _ _ hc hd => Catalog.allFaithful_deactivate hc hd) rfl nofun

/-- There is an id left as long as fewer items were put than there are ids. -/
theorem ofChanges_idsLeft (changes : List CatalogChange) :
    ∃ catalog, (ofChanges changes).items = some catalog ∧
      catalog.idsLeft = maxInt64.toNat - (changes.flatMap CatalogChange.puts).length := by
  have hempty : Catalog.idsLeft Numbered.empty = maxInt64.toNat := congrArg Int.toNat (Int.sub_zero _)
  have hitems : blank.prepare.items = some Numbered.empty := rfl
  obtain ⟨catalog, hcatalog, hleft⟩ := CatalogChange.run_idsLeft changes hitems
  rw [hempty] at hleft
  exact ⟨catalog, hcatalog, hleft⟩

/-- An item that was made inactive is passed over until it is put again. -/
theorem passesOver_until_put {changes rest : List CatalogChange} {catalog : Catalog}
    (hs : (ofChanges changes).items = some catalog) (hinv : Catalog.Inv catalog)
    (hrow : row ∈ catalog.rows)
    (hrest : ∀ change ∈ rest, ∀ item ∈ change.puts, item.key ≠ row.key) :
    (ofChanges (changes ++ .deactivate row.id :: rest)).PassesOver row := by
  cases hd : catalog.deactivate? row.id with
  | none => exact absurd rfl (Catalog.ne_of_deactivate? hd row hrow)
  | some next =>
    have hstep : (CatalogChange.deactivate row.id).apply (ofChanges changes) =
        { ofChanges changes with items := some next } :=
      congrArg Prod.snd (deactivate_of_some hs hd)
    have hrun : ofChanges (changes ++ .deactivate row.id :: rest) =
        CatalogChange.run rest { ofChanges changes with items := some next } := by
      rw [ofChanges_append, ← hstep]
      rfl
    obtain ⟨after, hafter, hhidden⟩ := CatalogChange.run_keeps (P := Catalog.Hidden row.key)
      (s := { ofChanges changes with items := some next })
      (fun _ hc change hchange item hitem =>
        Catalog.hidden_entered hc (hrest change hchange item hitem))
      (fun _ _ _ hc hd => Catalog.hidden_deactivate hc hd) rfl
      (Catalog.hidden_of_deactivate hinv hrow hd)
    rw [← hrun] at hafter
    obtain ⟨same, hsame, hafterInv⟩ := ofChanges_inv (changes ++ .deactivate row.id :: rest)
    obtain rfl : after = same := Option.some.inj (hafter.symm.trans hsame)
    exact passesOver_of_hidden hafter hhidden fun now hnow hid =>
      (ofChanges_grows hs hafter).key_of_id hafterInv hrow hnow hid

/-- **The catalog after any changes.**  Whatever items are put as they were built, whichever are made
inactive and whatever files are imported, in any order, from a new store on:

* there is one row for each name and category and one for each id, and every row is that of the item
  that is read from it;
* an id never moves: each row that was there stands in its place, under its id, name and category;
* an item that is put answers with the id that finds it, the id of its row if it had one and larger than
  all otherwise, and the other rows and the rest of the store stay; only after as many items as there
  are ids is it refused, and then nothing changes;
* an item that is made inactive has a new status and nothing else, and a deactivation that fails changes
  nothing;
* an item that was made inactive is passed over by both selections until it is put again. -/
theorem items_after_changes {changes : List CatalogChange}
    (h : ∀ change ∈ changes, change.Built) :
    ∃ catalog, (ofChanges changes).items = some catalog ∧
      (catalog.rows.Pairwise fun a b => a.key ≠ b.key ∧ a.id ≠ b.id) ∧
      (∀ row ∈ catalog.rows, row.Faithful) ∧
      (∀ first rest, changes = first ++ rest → ∃ earlier, (ofChanges first).items = some earlier ∧
        earlier.Grows catalog ∧ ∀ row ∈ earlier.rows, ∀ now ∈ catalog.rows, now.id = row.id →
          now.key = row.key) ∧
      (∀ item : Item, item.Built →
        ((changes.flatMap CatalogChange.puts).length < maxInt64 →
          ∃ id after, (ofChanges changes).putItem item =
              (.ok id, { ofChanges changes with items := some after }) ∧
            Store.findItem { ofChanges changes with items := some after } id =
              .ok (some { item with id := id }) ∧
            Catalog.Entered item id catalog after) ∧
        (maxInt64 ≤ (changes.flatMap CatalogChange.puts).length →
          (ofChanges changes).putItem item = (.error (.idsUsedUp .items), ofChanges changes))) ∧
      (∀ id, (∃ after, (ofChanges changes).deactivate id =
          (.ok (), { ofChanges changes with items := some after }) ∧
          Catalog.Retired id catalog after) ∨
        (∀ row ∈ catalog.rows, row.id ≠ id) ∧
          (ofChanges changes).deactivate id = (.error (.unknownItem id), ofChanges changes)) ∧
      ∀ row ∈ catalog.rows, ∀ rest : List CatalogChange,
        (∀ change ∈ rest, ∀ item ∈ change.puts, item.key ≠ row.key) →
        (ofChanges (changes ++ .deactivate row.id :: rest)).PassesOver row := by
  obtain ⟨catalog, hs, hinv⟩ := ofChanges_inv changes
  refine ⟨catalog, hs, ?_, ?_, ?_, ?_, ?_, ?_⟩
  · exact hinv.keys.and (hinv.ids.imp fun hlt => Int.ne_of_lt hlt)
  · obtain ⟨faithful, hfaithful, hall⟩ := ofChanges_allFaithful h
    obtain rfl : catalog = faithful := Option.some.inj (hs.symm.trans hfaithful)
    exact hall
  · rintro first rest rfl
    obtain ⟨earlier, hearlier, _⟩ := ofChanges_inv first
    have hgrows := ofChanges_grows hearlier hs
    exact ⟨earlier, hearlier, hgrows, fun row hrow now hnow hid =>
      hgrows.key_of_id hinv hrow hnow hid⟩
  · intro item hitem
    obtain ⟨counted, hcounted, hleft⟩ := ofChanges_idsLeft changes
    obtain rfl : catalog = counted := Option.some.inj (hs.symm.trans hcounted)
    refine ⟨fun hroom => ?_, fun hfull => putItem_of_full hs (by omega) item⟩
    have hentered := Catalog.entered_entered hinv hitem
    exact ⟨_, _, putItem_of_room hs (by omega) item, congrArg Except.ok hentered.found, hentered⟩
  · intro id
    cases hd : catalog.deactivate? id with
    | none => exact .inr ⟨Catalog.ne_of_deactivate? hd, deactivate_of_none hs hd⟩
    | some after =>
      exact .inl ⟨after, deactivate_of_some hs hd, Catalog.deactivate_retired hinv hd⟩
  · exact fun row hrow rest hrest => passesOver_until_put hs hinv hrow hrest

/-- Tack is put, then a width, then tack with another criterion: tack keeps its id, a length gets a new
one, and tack is passed over once it is made inactive and a length is put. -/
theorem items_after_changes_tack :
    ∃ (tack width length : Item) (changes : List CatalogChange),
      (∀ change ∈ changes, change.Built) ∧ length.Built ∧
      (ofChanges changes).items.map (·.rows) =
        some [.ofItem 1 { tack with criteria := "≥ 10#" }, .ofItem 2 width] ∧
      (∃ id after, (ofChanges changes).putItem length =
          (.ok id, { ofChanges changes with items := some after }) ∧
        Store.findItem { ofChanges changes with items := some after } id =
          .ok (some { length with id := id }) ∧ 2 < id) ∧
      (ofChanges (changes ++ [.deactivate 1, .put length])).PassesOver (.ofItem 1 tack) := by
  let tack : Item := Item.withRule { name := "初粘性", criteria := "≥ 8#" } "8~12"
  let width : Item := { name := "宽度", category := "膜类" }
  let length : Item := { name := "长度", category := "膜类", active := false }
  let changes : List CatalogChange := [.put tack, .put width, .put { tack with criteria := "≥ 10#" }]
  have hlength : length.Built := nofun
  have hchanges : ∀ change ∈ changes, change.Built := by
    intro change hmem
    simp only [changes, List.mem_cons, List.not_mem_nil, or_false] at hmem
    rcases hmem with rfl | rfl | rfl
    · exact Item.withRule_built _ _
    · exact fun _ h => by cases h
    · exact Item.withRule_built { name := "初粘性", criteria := "≥ 10#" } "8~12"
  have hitems : (ofChanges changes).items =
      some ⟨[.ofItem 1 { tack with criteria := "≥ 10#" }, .ofItem 2 width], 3⟩ := by decide
  obtain ⟨catalog, hs, _, _, _, hput, _, hpass⟩ := items_after_changes hchanges
  obtain rfl := Option.some.inj (hs.symm.trans hitems)
  refine ⟨tack, width, length, changes, hchanges, hlength, by rw [hitems]; rfl, ?_, ?_⟩
  · obtain ⟨id, after, hanswer, hfound, hentered⟩ := (hput length hlength).1 (by decide)
    exact ⟨id, after, hanswer, hfound, (hentered.fresh (by decide)).2 (.ofItem 2 width) (by decide)⟩
  · refine hpass (.ofItem 1 { tack with criteria := "≥ 10#" }) List.mem_cons_self [.put length] ?_
    intro change hchange item hitem
    rw [List.mem_singleton.1 hchange] at hitem
    rw [List.mem_singleton.1 hitem]
    decide

end Store

end MaterialInspection
