import MaterialInspection.Proofs.Desk.Import
import MaterialInspection.Proofs.StableSort
import MaterialInspection.Proofs.Store.OneRow

/-!
# Two ways to select items

The items for a category are selected in two ways.  `Store.itemsFor` asks the store, which compares
categories as they are written; a report takes all active items and keeps those that apply
(`Item.appliesTo`), which leaves blanks at the ends of a category out of account.

* `itemsFor_eq` — what the store selects is a part of the active items, in their order.
* `selects_iff_tidy` — of the items that apply to a category, the store selects those whose own
  category has no blanks at its ends.
* `CatalogChange.run_tidy` — imports and items without such blanks leave a catalog without them.
* `Store.selections_agree` — when the two ways agree, with `Store.selections_differ`, where they do
  not.
-/

set_option autoImplicit false

namespace MaterialInspection

/-! ## The two tests -/

/-- An item whose category has no blanks at its ends. -/
def Item.Tidy (item : Item) : Prop := Text.trim item.category = item.category

namespace Catalog

variable {category : String} {strict : Bool} {item : Item}

theorem trim_generalCategory : Text.trim generalCategory = generalCategory := by decide

/-- The store selects no item that does not apply. -/
theorem appliesTo_of_selects (h : selects category strict item.category = true) :
    item.appliesTo category strict = true := by
  unfold selects at h
  simp only [Bool.or_eq_true, Bool.and_eq_true, beq_iff_eq, Bool.not_eq_true'] at h
  unfold Item.appliesTo Item.isGeneral
  simp only [Bool.or_eq_true, Bool.and_eq_true, beq_iff_eq, Bool.not_eq_true']
  rcases h with h | ⟨hs, h | h⟩
  · exact Or.inl (by rw [h])
  · exact Or.inr ⟨hs, Or.inl (by rw [h]; decide)⟩
  · exact Or.inr ⟨hs, Or.inr (by rw [h, trim_generalCategory])⟩

/-- Of the items that apply, the store selects those whose category is written without blanks at its
ends, if the category that is asked for is. -/
theorem selects_iff_tidy (hc : Text.trim category = category)
    (h : item.appliesTo category strict = true) :
    selects category strict item.category = true ↔ item.Tidy := by
  unfold Item.appliesTo Item.isGeneral at h
  simp only [Bool.or_eq_true, Bool.and_eq_true, beq_iff_eq, Bool.not_eq_true'] at h
  unfold selects Item.Tidy
  simp only [Bool.or_eq_true, Bool.and_eq_true, beq_iff_eq, Bool.not_eq_true']
  constructor
  · rintro (hsame | ⟨_, hblank | hgeneral⟩)
    · rw [hsame, hc]
    · rw [hblank]
      decide
    · rw [hgeneral, trim_generalCategory]
  · intro htidy
    rw [htidy, hc] at h
    exact h

/-! ## Selecting from what is sorted -/

/-- Whether a row stands before another, or may. -/
def before (a b : ItemRow) : Bool :=
  decide (a.order < b.order) || (a.order == b.order && decide (a.id ≤ b.id))

theorem before_iff {a b : ItemRow} :
    before a b = true ↔ a.order < b.order ∨ (a.order = b.order ∧ a.id ≤ b.id) := by
  simp [before]

theorem before_trans (a b c : ItemRow) (hab : before a b = true) (hbc : before b c = true) :
    before a c = true := by
  rw [before_iff] at *
  omega

theorem before_total (a b : ItemRow) : (before a b || before b a) = true := by
  rw [Bool.or_eq_true, before_iff, before_iff]
  omega

/-- To choose from sorted rows is to sort the chosen ones. -/
theorem filter_sorted (p : ItemRow → Bool) (rows : List ItemRow) :
    (sorted rows).filter p = sorted (rows.filter p) :=
  Sorting.filter_mergeSort before_trans before_total p rows

/-- What the store selects from the catalog are the active items that it selects, in their order. -/
theorem activeFor_eq (c : Catalog) (category : String) (strict : Bool) :
    c.activeFor category strict =
      c.active.filter fun item => selects category strict item.category := by
  have hrows : (sorted (c.rows.filter fun row => row.status == 1)).filter
      (fun row => selects category strict row.category) =
      sorted (c.rows.filter fun row => row.status == 1 && selects category strict row.category) := by
    rw [filter_sorted, List.filter_filter]
    simp only [Bool.and_comm]
  unfold activeFor active
  rw [← hrows, List.filter_map]
  simp only [Function.comp_def, ItemRow.category_item]

end Catalog

namespace Store

variable {s : Store} {category : String} {strict : Bool}

/-- What the store selects is a part of the active items, in their order. -/
theorem itemsFor_eq (s : Store) (category : String) (strict : Bool) :
    s.itemsFor category strict =
      s.activeItems.map fun items => items.filter fun item => Catalog.selects category strict item.category := by
  unfold itemsFor activeItems
  cases table s.items .items with
  | error e => rfl
  | ok catalog =>
    simp only [Except.map]
    rw [Catalog.activeFor_eq]

/-- The store selects for a category what a report selects from the active items. -/
def SelectionsAgree (s : Store) (category : String) (strict : Bool) : Prop :=
  s.itemsFor category strict =
    s.activeItems.map fun items => items.filter fun item => item.appliesTo category strict

/-- A filter by a narrower test is the same as one by the wider test exactly when no element passes
the wider test alone. -/
theorem filter_eq_iff {p q : Item → Bool} (hpq : ∀ item, p item = true → q item = true)
    (items : List Item) :
    items.filter p = items.filter q ↔ ∀ item ∈ items, q item = true → p item = true := by
  constructor
  · intro h item hitem hq
    have hmem : item ∈ items.filter p := by
      rw [h]
      exact List.mem_filter.2 ⟨hitem, hq⟩
    exact (List.mem_filter.1 hmem).2
  · intro h
    apply List.filter_congr
    intro item hitem
    rw [Bool.eq_iff_iff]
    exact ⟨hpq item, h item hitem⟩

/-- The selections agree exactly when every active item that applies is selected as it is written. -/
theorem selectionsAgree_iff :
    s.SelectionsAgree category strict ↔ ∀ items, s.activeItems = .ok items → ∀ item ∈ items,
      item.appliesTo category strict = true → Catalog.selects category strict item.category = true := by
  unfold SelectionsAgree
  rw [itemsFor_eq]
  cases s.activeItems with
  | error e => simp only [Except.map, reduceCtorEq, false_implies, implies_true]
  | ok items =>
    simp only [Except.map, Except.ok.injEq, forall_eq']
    exact filter_eq_iff (fun item => Catalog.appliesTo_of_selects) items

/-! ## Catalogs without blanks at the ends of a category -/

/-- A store in which no item's category has blanks at its ends. -/
def Tidy (s : Store) : Prop := ∀ catalog ∈ s.items, ∀ row ∈ catalog.rows, row.item.Tidy

theorem blank_tidy : blank.prepare.Tidy := by
  rintro _ ⟨⟩ row hrow
  cases hrow

theorem Tidy.of_active (h : s.Tidy) {items : List Item} (ha : s.activeItems = .ok items) :
    ∀ item ∈ items, item.Tidy := by
  unfold activeItems table at ha
  cases hs : s.items with
  | none =>
    rw [hs] at ha
    cases ha
  | some catalog =>
    rw [hs] at ha
    cases ha
    intro item hitem
    obtain ⟨row, hrow, _, rfl⟩ := Catalog.row_of_active hitem
    exact h catalog hs row hrow

end Store

/-- Rows that come from others with their keys have the categories of these. -/
theorem ItemRow.tidy_of_key {a b : ItemRow} (h : b.key = a.key) (ha : a.item.Tidy) : b.item.Tidy := by
  have hcategory : b.category = a.category := congrArg Prod.snd h
  unfold Item.Tidy at ha ⊢
  rw [ItemRow.category_item] at ha ⊢
  rwa [hcategory]

/-- A cell of a row that is read has no blanks at its ends. -/
theorem Item.trim_cell? {row : Row} {columns : List String} {s : String}
    (h : Item.cell? row columns = some s) : Text.trim s = s := by
  unfold Item.cell? at h
  obtain ⟨column, _, hcell⟩ := List.mem_filterMap.1 (List.mem_of_find?_eq_some h)
  obtain ⟨text, _, rfl⟩ := Option.map_eq_some_iff.1 hcell
  exact Text.trim_trim text

/-- The item of a row has no blanks at the ends of its category. -/
theorem Item.ofRow_tidy {row : Row} {item : Item} (h : Item.ofRow row = .ok item) : item.Tidy := by
  obtain ⟨name, order, active, rule, _, _, _, _, rfl⟩ := Item.ofRow_eq_ok_iff.1 h
  unfold Item.Tidy
  dsimp only
  cases hcell : Item.cell? row Item.categoryColumns with
  | none => decide
  | some s => exact Item.trim_cell? hcell

namespace Store

variable {s : Store}

/-- What deactivating an item makes of the catalog, if there is one. -/
theorem deactivate_items (s : Store) (id : Int) :
    (s.deactivate id).2.items =
      s.items.map fun catalog => (catalog.deactivate? id).getD catalog := by
  unfold deactivate statement table
  dsimp only
  cases hs : s.items with
  | none => exact hs
  | some catalog =>
    dsimp only
    cases hd : catalog.deactivate? id with
    | none =>
      dsimp only
      rw [hs, Option.map_some, hd, Option.getD_none]
    | some after =>
      dsimp only
      rw [Option.map_some, hd, Option.getD_some]

theorem putItem_tidy (h : s.Tidy) {item : Item} (hi : item.Tidy) : (s.putItem item).2.Tidy := by
  cases hs : s.items with
  | none => rwa [putItem_of_none hs]
  | some catalog =>
    rcases Nat.eq_zero_or_pos catalog.idsLeft with hfull | hroom
    · rwa [putItem_of_full hs hfull]
    · rw [putItem_of_room hs hroom]
      rintro _ ⟨⟩ row hrow
      rcases Catalog.mem_entered hrow with hold | hnew
      · exact h catalog hs row hold
      · rw [hnew]
        unfold Item.Tidy
        rw [ItemRow.category_item]
        exact hi

theorem deactivate_tidy (h : s.Tidy) (id : Int) : (s.deactivate id).2.Tidy := by
  unfold Tidy
  rw [deactivate_items]
  rintro _ hafter row hrow
  obtain ⟨catalog, hcatalog, rfl⟩ := Option.map_eq_some_iff.1 hafter
  cases hd : catalog.deactivate? id with
  | none =>
    rw [hd, Option.getD_none] at hrow
    exact h catalog hcatalog row hrow
  | some after =>
    obtain ⟨_, hrows, _⟩ := Catalog.rows_of_deactivate? hd
    rw [hd, Option.getD_some, hrows] at hrow
    obtain ⟨old, hold, rfl⟩ := List.mem_map.1 hrow
    exact ItemRow.tidy_of_key (Catalog.retire_key id old) (h catalog hcatalog old hold)

theorem importFile_tidy (file : CatalogFile) (h : s.Tidy) : (Desk.importFile file s).2.Tidy := by
  obtain ⟨rows, hstore⟩ := Desk.importFile_store file s
  rw [hstore]
  refine List.foldlRecOn _ _ h fun t ht item hitem => ?_
  obtain ⟨row, _, hrow⟩ := Desk.mem_validItems.1 hitem
  exact putItem_tidy ht (Item.ofRow_tidy hrow)

end Store

/-! ## Changes of the catalog -/

/-- What changes the catalog. -/
inductive CatalogChange
  | put (item : Item)
  | deactivate (id : Int)
  | importFile (file : CatalogFile)

namespace CatalogChange

/-- The store after a change. -/
def apply : CatalogChange → Store → Store
  | put item, s => (s.putItem item).2
  | deactivate id, s => (s.deactivate id).2
  | importFile file, s => (Desk.importFile file s).2

/-- The store after one change upon another. -/
def run (changes : List CatalogChange) (s : Store) : Store :=
  changes.foldl (fun s change => change.apply s) s

/-- A change that puts no item with blanks at the ends of its category. -/
def Tidy : CatalogChange → Prop
  | put item => item.Tidy
  | deactivate _ => True
  | importFile _ => True

theorem apply_tidy {change : CatalogChange} (hc : change.Tidy) {s : Store} (h : s.Tidy) :
    (change.apply s).Tidy := by
  cases change with
  | put item => exact Store.putItem_tidy h hc
  | deactivate id => exact Store.deactivate_tidy h id
  | importFile file => exact Store.importFile_tidy file h

/-- Whatever is imported, and however items are put, a catalog stays without blanks at the ends of
its categories as long as no item is put with them. -/
theorem run_tidy {changes : List CatalogChange} (hc : ∀ change ∈ changes, change.Tidy) {s : Store}
    (h : s.Tidy) : (run changes s).Tidy := by
  induction changes generalizing s with
  | nil => exact h
  | cons change rest ih =>
    exact ih (fun c hmem => hc c (List.mem_cons_of_mem _ hmem))
      (apply_tidy (hc change List.mem_cons_self) h)

end CatalogChange

namespace Store

/-- **When the two ways to select items agree.**  The store selects a part of the items that apply, in
their order, and it selects all of them exactly when each is selected as it is written.  For a
category without blanks at its ends, which every report and every request at the desk has, that is
when the category of each has none either; and so it is after any imports, deactivations and items
put without such blanks. -/
theorem selections_agree (s : Store) (category : String) (strict : Bool) :
    (∀ items, s.activeItems = .ok items → ∃ selected, s.itemsFor category strict = .ok selected ∧
      selected.Sublist (items.filter fun item => item.appliesTo category strict)) ∧
    (s.SelectionsAgree category strict ↔ ∀ items, s.activeItems = .ok items → ∀ item ∈ items,
      item.appliesTo category strict = true → Catalog.selects category strict item.category = true) ∧
    (Text.trim category = category → (s.SelectionsAgree category strict ↔
      ∀ items, s.activeItems = .ok items → ∀ item ∈ items,
        item.appliesTo category strict = true → item.Tidy)) ∧
    ∀ changes : List CatalogChange, s.Tidy → (∀ change ∈ changes, change.Tidy) →
      Text.trim category = category →
        (CatalogChange.run changes s).SelectionsAgree category strict := by
  have htidy : ∀ t : Store, Text.trim category = category →
      (t.SelectionsAgree category strict ↔ ∀ items, t.activeItems = .ok items → ∀ item ∈ items,
        item.appliesTo category strict = true → item.Tidy) := by
    intro t hc
    rw [selectionsAgree_iff]
    constructor
    · intro h items ha item hitem happlies
      exact (Catalog.selects_iff_tidy hc happlies).1 (h items ha item hitem happlies)
    · intro h items ha item hitem happlies
      exact (Catalog.selects_iff_tidy hc happlies).2 (h items ha item hitem happlies)
  refine ⟨?_, selectionsAgree_iff, htidy s, ?_⟩
  · intro items ha
    rw [itemsFor_eq, ha]
    refine ⟨_, rfl, List.monotone_filter_right items ?_⟩
    exact fun item => Catalog.appliesTo_of_selects
  · intro changes hs hchanges hc
    refine (htidy _ hc).2 fun items ha item hitem _ => ?_
    exact (CatalogChange.run_tidy hchanges hs).of_active ha item hitem

/-- An item of paper that is put, beside one that is put and deactivated, is what both ways select for
paper. -/
theorem selections_agree_paper :
    ∃ (changes : List CatalogChange) (s : Store), s.Tidy ∧ (∀ change ∈ changes, change.Tidy) ∧
      Text.trim "纸张" = "纸张" ∧ (CatalogChange.run changes s).SelectionsAgree "纸张" true ∧
      (CatalogChange.run changes s).itemsFor "纸张" true =
        .ok [{ id := 1, name := "外观", category := "纸张" }] := by
  let changes : List CatalogChange :=
    [.put { name := "外观", category := "纸张" }, .put { name := "水分", category := "纸张" },
      .deactivate 2]
  have hchanges : ∀ change ∈ changes, change.Tidy := by
    intro change hmem
    simp only [changes, List.mem_cons, List.not_mem_nil, or_false] at hmem
    rcases hmem with rfl | rfl | rfl
    · show Text.trim "纸张" = "纸张"
      decide
    · show Text.trim "纸张" = "纸张"
      decide
    · trivial
  have hpaper : Text.trim "纸张" = "纸张" := by decide
  have hitems : (CatalogChange.run changes blank.prepare).items =
      some ⟨[.ofItem 1 { name := "外观", category := "纸张" },
        .ofItem 2 { name := "水分", category := "纸张", active := false }], 2⟩ := by decide
  refine ⟨changes, blank.prepare, blank_tidy, hchanges, hpaper,
    (selections_agree blank.prepare "纸张" true).2.2.2 changes blank_tidy hchanges hpaper, ?_⟩
  unfold itemsFor
  rw [hitems]
  exact congrArg (fun rows => Except.ok (rows.map ItemRow.item)) (List.mergeSort_singleton _)

/-- **The two ways can differ**: an item that is put under paper with a blank before it applies to
paper, and the store does not select it. -/
theorem selections_differ :
    ¬(CatalogChange.run [.put { name := "外观", category := " 纸张" }]
      blank.prepare).SelectionsAgree "纸张" true := by
  rw [selectionsAgree_iff]
  intro h
  have hitems : (CatalogChange.run [.put { name := "外观", category := " 纸张" }] blank.prepare).items =
      some ⟨[.ofItem 1 { name := "外观", category := " 纸张" }], 1⟩ := by decide
  have hactive : (CatalogChange.run [.put { name := "外观", category := " 纸张" }]
      blank.prepare).activeItems = .ok [{ id := 1, name := "外观", category := " 纸张" }] :=
    activeItems_of_one hitems rfl
  have hselected := h _ hactive _ List.mem_cons_self (by decide)
  exact absurd hselected (by decide)

end Store

end MaterialInspection
