import MaterialInspection.Desk
import MaterialInspection.Proofs.Store.Renewal

/-!
# Importing a file

An import puts the items of a file's rows into the catalog, row by row, and passes over the rows that
give none or find no id left.  It answers with how many rows there were, how many were imported, and
the failed ones.

* `Desk.outcomes` — what becomes of each row: its item is put, or there is a reason why it is not.
* `Desk.importRows_store` — what an import leaves is what putting the items of the valid rows leaves,
  in the order of the file; a failed row does nothing.
* `Desk.importRows_summary` — the answer is read off the outcomes, and of the store it matters to them
  only whether it has a catalog, and how many ids are left.
* `Desk.importFile_renews` — what a file makes of a catalog, and that importing it once more changes
  neither the catalog nor the answer.
-/

set_option autoImplicit false

namespace MaterialInspection.Desk

/-- The items of the rows that give one, in the order of the rows. -/
def validItems (rows : List Row) : List Item := rows.filterMap fun row => (Item.ofRow row).toOption

/-- What becomes of an item of a row that stands behind a number of valid ones: it is put, or there is a
reason why it is not. -/
def putOutcome (s : Store) (before : Nat) (item : Item) : Except ImportFailure Item :=
  match s.items with
  | none => .error (.store (.missingTable .items))
  | some catalog =>
    if before < catalog.idsLeft then .ok item else .error (.store (.idsUsedUp .items))

/-- What becomes of a row that stands behind a number of valid ones. -/
def outcome (s : Store) (before : Nat) (row : Row) : Except ImportFailure Item :=
  match Item.ofRow row with
  | .error e => .error (.row e)
  | .ok item => putOutcome s before item

/-- What becomes of rows that stand behind a number of valid ones, each under the row's number. -/
def outcomesFrom (s : Store) : Nat → List Row → List (Nat × Except ImportFailure Item)
  | _, [] => []
  | before, row :: rest =>
    (row.number, outcome s before row) :: outcomesFrom s (before + (validItems [row]).length) rest

/-- What becomes of the rows of a file. -/
def outcomes (rows : List Row) (s : Store) : List (Nat × Except ImportFailure Item) :=
  outcomesFrom s 0 rows

/-- The failure of an outcome, if it is one, under the number of its row. -/
def failure? (o : Nat × Except ImportFailure Item) : Option (Nat × ImportFailure) :=
  match o.2 with
  | .error e => some (o.1, e)
  | .ok _ => none

/-- What is said of an import with these outcomes. -/
def summary (outcomes : List (Nat × Except ImportFailure Item)) : ImportResult where
  total := outcomes.length
  imported := (outcomes.filterMap fun o => o.2.toOption).length
  failures := outcomes.filterMap failure?

variable {s t : Store} {row : Row} {rows : List Row} {catalog : Catalog}

/-- A failure stands under the number of its outcome. -/
theorem eq_of_failure? {o : Nat × Except ImportFailure Item} {failure : Nat × ImportFailure}
    (h : failure? o = some failure) : failure.1 = o.1 ∧ o.2 = .error failure.2 := by
  unfold failure? at h
  split at h
  · rename_i he
    cases h
    exact ⟨rfl, he⟩
  · cases h

theorem validItems_of_error {e : RowError} (h : Item.ofRow row = .error e) (rows : List Row) :
    validItems (row :: rows) = validItems rows := by
  unfold validItems
  rw [List.filterMap_cons, h]
  rfl

theorem validItems_of_ok {item : Item} (h : Item.ofRow row = .ok item) (rows : List Row) :
    validItems (row :: rows) = item :: validItems rows := by
  unfold validItems
  rw [List.filterMap_cons, h]
  rfl

theorem mem_validItems {item : Item} :
    item ∈ validItems rows ↔ ∃ row ∈ rows, Item.ofRow row = .ok item := by
  unfold validItems
  rw [List.mem_filterMap]
  refine exists_congr fun row => and_congr_right fun _ => ?_
  cases Item.ofRow row with
  | error e => exact ⟨nofun, nofun⟩
  | ok other => exact ⟨fun h => congrArg Except.ok (Option.some.inj h), fun h => by cases h; rfl⟩

theorem length_validItems_of_error {e : RowError} (h : Item.ofRow row = .error e) :
    (validItems [row]).length = 0 := by
  rw [validItems_of_error h]
  rfl

theorem length_validItems_of_ok {item : Item} (h : Item.ofRow row = .ok item) :
    (validItems [row]).length = 1 := by
  rw [validItems_of_ok h]
  rfl

theorem length_validItems_cons (row : Row) (rows : List Row) :
    (validItems (row :: rows)).length = (validItems [row]).length + (validItems rows).length := by
  have hcons : validItems (row :: rows) = validItems [row] ++ validItems rows :=
    @List.filterMap_append _ _ [row] rows _
  rw [hcons, List.length_append]

/-! ## Outcomes -/

theorem outcome_of_error {e : RowError} (h : Item.ofRow row = .error e) (s : Store) (before : Nat) :
    outcome s before row = .error (.row e) := by
  unfold outcome
  rw [h]

theorem outcome_of_ok {item : Item} (h : Item.ofRow row = .ok item) (s : Store) (before : Nat) :
    outcome s before row = putOutcome s before item := by
  unfold outcome
  rw [h]

theorem putOutcome_of_none (hs : s.items = none) (before : Nat) (item : Item) :
    putOutcome s before item = .error (.store (.missingTable .items)) := by
  unfold putOutcome
  rw [hs]

theorem putOutcome_of_some (hs : s.items = some catalog) (before : Nat) (item : Item) :
    putOutcome s before item =
      if before < catalog.idsLeft then .ok item else .error (.store (.idsUsedUp .items)) := by
  unfold putOutcome
  rw [hs]

/-- Each outcome is that of a row behind the valid ones before it. -/
theorem mem_outcomesFrom {before : Nat} {o : Nat × Except ImportFailure Item}
    (h : o ∈ outcomesFrom s before rows) : ∃ front row behind, rows = front ++ row :: behind ∧
      o = (row.number, outcome s (before + (validItems front).length) row) := by
  induction rows generalizing before with
  | nil => cases h
  | cons row rest ih =>
    unfold outcomesFrom at h
    rcases List.mem_cons.1 h with rfl | h
    · exact ⟨[], row, rest, rfl, rfl⟩
    · obtain ⟨front, other, behind, rfl, rfl⟩ := ih h
      refine ⟨row :: front, other, behind, rfl, ?_⟩
      rw [length_validItems_cons row front, Nat.add_assoc]

/-- Rows have the same outcomes in two stores if items have, behind any number of valid rows. -/
theorem outcomesFrom_congr {m n : Nat}
    (h : ∀ k item, putOutcome s (m + k) item = putOutcome t (n + k) item) (rows : List Row) :
    outcomesFrom s m rows = outcomesFrom t n rows := by
  induction rows generalizing m n with
  | nil => rfl
  | cons row rest ih =>
    have hrest := ih (m := m + (validItems [row]).length) (n := n + (validItems [row]).length)
      fun k item => by rw [Nat.add_assoc, Nat.add_assoc, h]
    have hrow : outcome s m row = outcome t n row := by
      cases hread : Item.ofRow row with
      | error e => rw [outcome_of_error hread, outcome_of_error hread]
      | ok item => rw [outcome_of_ok hread, outcome_of_ok hread]; exact h 0 item
    unfold outcomesFrom
    rw [hrow, hrest]

/-- The items that are put are those of the first valid rows, as many as there are ids left. -/
theorem items_outcomesFrom (hs : s.items = some catalog) (before : Nat) (rows : List Row) :
    ((outcomesFrom s before rows).filterMap fun o => o.2.toOption) =
      (validItems rows).take (catalog.idsLeft - before) := by
  induction rows generalizing before with
  | nil => exact List.take_nil.symm
  | cons row rest ih =>
    unfold outcomesFrom
    rw [List.filterMap_cons, ih]
    cases hrow : Item.ofRow row with
    | error e =>
      rw [outcome_of_error hrow, length_validItems_of_error hrow, validItems_of_error hrow]
      rfl
    | ok item =>
      rw [outcome_of_ok hrow, length_validItems_of_ok hrow, validItems_of_ok hrow,
        putOutcome_of_some hs]
      by_cases hroom : before < catalog.idsLeft
      · obtain ⟨n, hn⟩ := Nat.exists_eq_succ_of_ne_zero (Nat.ne_of_gt (Nat.sub_pos_of_lt hroom))
        have hnext : catalog.idsLeft - (before + 1) = n := by omega
        rw [if_pos hroom, hn, List.take_succ_cons, hnext]
        rfl
      · have hfull : catalog.idsLeft - before = 0 := by omega
        have hnext : catalog.idsLeft - (before + 1) = 0 := by omega
        rw [if_neg hroom, hfull, hnext, List.take_zero, List.take_zero]
        rfl

/-- Without a catalog no item is put. -/
theorem items_outcomesFrom_of_none (hs : s.items = none) (before : Nat) (rows : List Row) :
    ((outcomesFrom s before rows).filterMap fun o => o.2.toOption) = [] := by
  induction rows generalizing before with
  | nil => rfl
  | cons row rest ih =>
    unfold outcomesFrom
    rw [List.filterMap_cons, ih]
    cases hrow : Item.ofRow row with
    | error e =>
      rw [outcome_of_error hrow]
      rfl
    | ok item =>
      rw [outcome_of_ok hrow, putOutcome_of_none hs]
      rfl

/-- To put the items of the valid rows is to put those that have an id. -/
theorem putItems_outcomes (rows : List Row) (s : Store) :
    s.putItems ((outcomes rows s).filterMap fun o => o.2.toOption) = s.putItems (validItems rows) := by
  unfold outcomes
  cases hs : s.items with
  | none =>
    rw [items_outcomesFrom_of_none hs, Store.putItems_eq, Store.putItems_eq, hs, Option.map_none,
      Option.map_none]
  | some catalog =>
    rw [items_outcomesFrom hs, Store.putItems_eq, Store.putItems_eq, hs, Option.map_some,
      Option.map_some]
    unfold Catalog.putAsRoom
    rw [Nat.sub_zero, List.take_take, Nat.min_self]

/-! ## One row -/

theorem importRow_of_error {e : RowError} (h : Item.ofRow row = .error e) :
    importRow row s = (.error (.row e), s) := by
  unfold importRow
  rw [h]

/-- A row that gives an item is imported as the item is put. -/
theorem importRow_of_ok {item : Item} (h : Item.ofRow row = .ok item) (s : Store) :
    importRow row s =
      (match (s.putItem item).1 with
        | .ok id => .ok id
        | .error e => .error (.store e), (s.putItem item).2) := by
  unfold importRow
  rw [h]
  dsimp only
  split
  · rename_i hput
    rw [hput]
  · rename_i hput
    rw [hput]

/-- An item gets an id or is refused as its outcome says, and to the items behind it the store after it
is what the store before it is to items behind one more. -/
theorem putItem_outcome (item : Item) (s : Store) :
    ((∃ e, putOutcome s 0 item = .error (.store e) ∧ (s.putItem item).1 = .error e) ∨
      ∃ id, putOutcome s 0 item = .ok item ∧ (s.putItem item).1 = .ok id) ∧
    ∀ k other, putOutcome (s.putItem item).2 (0 + k) other = putOutcome s (0 + 1 + k) other := by
  cases hs : s.items with
  | none =>
    rw [Store.putItem_of_none hs]
    refine ⟨.inl ⟨_, putOutcome_of_none hs 0 item, rfl⟩, fun k other => ?_⟩
    rw [putOutcome_of_none hs, putOutcome_of_none hs]
  | some catalog =>
    rcases Nat.eq_zero_or_pos catalog.idsLeft with hfull | hroom
    · rw [Store.putItem_of_full hs hfull]
      refine ⟨.inl ⟨.idsUsedUp .items, ?_, rfl⟩, fun k other => ?_⟩
      · rw [putOutcome_of_some hs, if_neg (by omega)]
      · rw [putOutcome_of_some hs, putOutcome_of_some hs, if_neg (by omega), if_neg (by omega)]
    · rw [Store.putItem_of_room hs hroom]
      refine ⟨.inr ⟨_, ?_, rfl⟩, fun k other => ?_⟩
      · rw [putOutcome_of_some hs, if_pos hroom]
      · have hleft : 0 + k < (catalog.entered item).idsLeft ↔ 0 + 1 + k < catalog.idsLeft := by
          rw [Catalog.idsLeft_entered]
          omega
        have hitems : ({ s with items := some (catalog.entered item) } : Store).items =
            some (catalog.entered item) := rfl
        rw [putOutcome_of_some hitems, putOutcome_of_some hs]
        simp only [hleft]

/-- A row gets an id or fails as its outcome says, and the rows behind it have in the store after it the
outcomes that they have behind it. -/
theorem importRow_outcome (row : Row) (s : Store) :
    ((∃ e, outcome s 0 row = .error e ∧ (importRow row s).1 = .error e) ∨
      ∃ item id, outcome s 0 row = .ok item ∧ (importRow row s).1 = .ok id) ∧
    ∀ rows, outcomesFrom (importRow row s).2 0 rows =
      outcomesFrom s (0 + (validItems [row]).length) rows := by
  cases hrow : Item.ofRow row with
  | error e =>
    rw [importRow_of_error hrow, length_validItems_of_error hrow]
    exact ⟨.inl ⟨_, outcome_of_error hrow s 0, rfl⟩, fun rows => rfl⟩
  | ok item =>
    obtain ⟨hput, hbehind⟩ := putItem_outcome item s
    rw [importRow_of_ok hrow, length_validItems_of_ok hrow, outcome_of_ok hrow]
    refine ⟨?_, outcomesFrom_congr hbehind⟩
    rcases hput with ⟨e, houtcome, he⟩ | ⟨id, houtcome, hid⟩
    · exact .inl ⟨.store e, houtcome, by rw [he]⟩
    · exact .inr ⟨item, id, houtcome, by rw [hid]⟩

/-! ## The rows of a file -/

theorem importRows_cons (row : Row) (rows : List Row) (s : Store) :
    (importRows (row :: rows) s).2 = (importRows rows (importRow row s).2).2 := by
  rw [importRows]
  dsimp only
  split <;> rfl

/-- Rows leave the store that putting the items of the valid ones leaves. -/
theorem importRows_store (rows : List Row) (s : Store) :
    (importRows rows s).2 = s.putItems (validItems rows) := by
  induction rows generalizing s with
  | nil => rfl
  | cons row rows ih =>
    rw [importRows_cons, ih]
    cases hrow : Item.ofRow row with
    | error e => rw [importRow_of_error hrow, validItems_of_error hrow]
    | ok item =>
      rw [importRow_of_ok hrow, validItems_of_ok hrow]
      rfl

/-- The answer to an import is read off the outcomes of its rows. -/
theorem importRows_summary (rows : List Row) (s : Store) :
    (importRows rows s).1 = summary (outcomes rows s) := by
  induction rows generalizing s with
  | nil => rfl
  | cons row rows ih =>
    obtain ⟨hfirst, hrest⟩ := importRow_outcome row s
    have hothers : (importRows rows (importRow row s).2).1 =
        summary (outcomesFrom s (0 + (validItems [row]).length) rows) := by
      rw [ih]
      unfold outcomes
      rw [hrest]
    rw [importRows]
    dsimp only
    rw [hothers]
    unfold outcomes summary
    rw [outcomesFrom]
    rcases hfirst with ⟨e, houtcome, himport⟩ | ⟨item, id, houtcome, himport⟩
    · rw [himport, houtcome]
      rfl
    · rw [himport, houtcome]
      rfl

/-- An import of a file that can be read. -/
theorem importFile_of_rows {file : CatalogFile} (h : file.rows .byExtension = .ok rows) (s : Store) :
    importFile file s = (.ok (summary (outcomes rows s)), s.putItems (validItems rows)) := by
  unfold importFile
  rw [h]
  dsimp only
  rw [importRows_summary, importRows_store]

theorem rows_of_importFile {file : CatalogFile} {result : ImportResult} {after : Store}
    (h : importFile file s = (.ok result, after)) : ∃ rows, file.rows .byExtension = .ok rows := by
  cases hrows : file.rows .byExtension with
  | ok rows => exact ⟨rows, rfl⟩
  | error e =>
    unfold importFile at h
    rw [hrows] at h
    cases h

/-- Whatever a file holds, importing it leaves what putting the items of some valid rows leaves. -/
theorem importFile_store (file : CatalogFile) (s : Store) :
    ∃ rows, (importFile file s).2 = s.putItems (validItems rows) := by
  cases hrows : file.rows .byExtension with
  | ok rows => exact ⟨rows, by rw [importFile_of_rows hrows]⟩
  | error e =>
    refine ⟨[], ?_⟩
    unfold importFile
    rw [hrows]
    rfl

end MaterialInspection.Desk
