import MaterialInspection.Proofs.Desk.Import
import MaterialInspection.Proofs.Sheet.Records

/-!
# What becomes of each record

An import answers for records: each record that makes a row has one outcome, an item that is put or a
failure under the record's place, and no other record has any.

* `Desk.accounts` — the answer to an import and the store that it leaves, told by these outcomes.
* `Desk.noneLost_iff` — every record with a cell that is not blank has an outcome exactly when none of
  them has all such cells under names that stand once more behind them, over a blank.
* `Desk.importFile_accounts` — the two together for every file that is imported, with
  `Desk.importFile_loses_record`, where a record is lost.
-/

set_option autoImplicit false

namespace MaterialInspection.Desk

open Sheet (Grid)

/-- The answer to an import and the store that it leaves, told by outcomes. -/
structure Accounts (outcomes : List (Nat × Except ImportFailure Item)) (s after : Store)
    (result : ImportResult) : Prop where
  total : result.total = outcomes.length
  imported : result.imported = (outcomes.filterMap fun o => o.2.toOption).length
  failures : result.failures = outcomes.filterMap failure?
  store : after = s.putItems (outcomes.filterMap fun o => o.2.toOption)

/-- Every record with a cell that is not blank under a column with a name has an outcome, and no other
record has one. -/
def NoneLost (g : Grid) (outcomes : List (Nat × Except ImportFailure Item)) : Prop :=
  outcomes.map (·.1) = g.places (Sheet.filled g.columns)

variable {s after : Store} {result : ImportResult} {g : Grid}

/-! ## The answer, told by outcomes -/

/-- What an import of some rows answers and leaves. -/
theorem accounts (rows : List Row) (s : Store) :
    Accounts (outcomes rows s) s (s.putItems (validItems rows)) (summary (outcomes rows s)) where
  total := rfl
  imported := rfl
  failures := rfl
  store := (putItems_outcomes rows s).symm

/-- Each record of which there is an account was imported or failed. -/
theorem Accounts.imported_add_failed {outcomes : List (Nat × Except ImportFailure Item)}
    (h : Accounts outcomes s after result) :
    result.imported + result.failures.length = result.total := by
  rw [h.imported, h.failures, h.total, List.length_filterMap_eq_countP,
    List.length_filterMap_eq_countP,
    List.length_eq_countP_add_countP fun o : Nat × Except ImportFailure Item => o.2.toOption.isSome]
  congr 1
  refine List.countP_congr fun o _ => ?_
  unfold failure?
  cases o.2 with
  | error e => simp [Except.toOption]
  | ok item => simp [Except.toOption]

/-- The failures stand in the order of their outcomes. -/
theorem Accounts.failures_ascend {outcomes : List (Nat × Except ImportFailure Item)}
    (h : Accounts outcomes s after result) (hplaces : (outcomes.map (·.1)).Pairwise (· < ·)) :
    (result.failures.map (·.1)).Pairwise (· < ·) := by
  rw [h.failures, List.pairwise_map, List.pairwise_filterMap]
  rw [List.pairwise_map] at hplaces
  refine hplaces.imp ?_
  intro a b hab x hx y hy
  rw [(eq_of_failure? hx).1, (eq_of_failure? hy).1]
  exact hab

/-! ## Which records have an outcome -/

/-- Every row has one outcome, under its number. -/
theorem numbers_outcomesFrom (s : Store) (before : Nat) (rows : List Row) :
    (outcomesFrom s before rows).map (·.1) = rows.map (·.number) := by
  induction rows generalizing before with
  | nil => rfl
  | cons row rest ih =>
    unfold outcomesFrom
    rw [List.map_cons, List.map_cons, ih]

/-- The records that have an outcome are those that count. -/
theorem places_outcomes (g : Grid) (s : Store) :
    (outcomes g.rows s).map (·.1) = g.places (Sheet.counts g.columns) :=
  (numbers_outcomesFrom s 0 g.rows).trans g.numbers_rows

/-- No record is lost exactly when each that has a cell that is not blank counts. -/
theorem noneLost_iff (g : Grid) (s : Store) :
    NoneLost g (outcomes g.rows s) ↔ ∀ cells ∈ g.records,
      Sheet.filled g.columns cells = true → Sheet.counts g.columns cells = true := by
  unfold NoneLost
  rw [places_outcomes]
  exact Grid.places_eq_iff fun _ => Sheet.filled_of_counts

/-- **An import accounts for its records.**  The answer to an import and the store that it leaves are
told by one outcome for each record that counts, in the order of the file: an item that is put, or a
failure under the record's place.  So there are as many imported and failed records together as there
are records that count, and the places of the failures go up.  A record counts when the last cell
under some name is not blank.  No record with a cell that is not blank under a named column is lost
exactly when each of them counts; so it is if no name stands over two columns. -/
theorem importFile_accounts {file : CatalogFile}
    (h : importFile file s = (.ok result, after)) :
    ∃ g, file.Holds g ∧ Accounts (outcomes g.rows s) s after result ∧
      (outcomes g.rows s).map (·.1) = g.places (Sheet.counts g.columns) ∧
      result.total = g.records.countP (Sheet.counts g.columns) ∧
      result.imported + result.failures.length = result.total ∧
      (result.failures.map (·.1)).Pairwise (· < ·) ∧
      (NoneLost g (outcomes g.rows s) ↔ ∀ cells ∈ g.records,
        Sheet.filled g.columns cells = true → Sheet.counts g.columns cells = true) ∧
      ((g.columns.filter (· != "")).Nodup → NoneLost g (outcomes g.rows s) ∧
        result.total = g.records.countP (Sheet.filled g.columns)) := by
  obtain ⟨rows, hrows⟩ := rows_of_importFile h
  obtain ⟨g, hg, rfl⟩ := CatalogFile.holds_of_rows hrows
  rw [importFile_of_rows hrows, Prod.mk.injEq, Except.ok.injEq] at h
  obtain ⟨rfl, rfl⟩ := h
  have hall := accounts g.rows s
  have hplaces := places_outcomes g s
  -- there are as many outcomes as records whose places they have
  have htotal : ∀ p, (outcomes g.rows s).map (·.1) = g.places p →
      (summary (outcomes g.rows s)).total = g.records.countP p := by
    intro p hp
    rw [hall.total, ← Grid.length_places, ← hp, List.length_map]
  refine ⟨g, hg, hall, hplaces, htotal _ hplaces, hall.imported_add_failed, ?_, noneLost_iff g s, ?_⟩
  · refine hall.failures_ascend ?_
    rw [hplaces]
    exact g.pairwise_places _
  · intro hdistinct
    have hnone := (noneLost_iff g s).2 fun _ _ => Sheet.counts_of_filled hdistinct
    exact ⟨hnone, htotal _ hnone⟩

/-- A file with two columns for the name: a record whose name stands in the first has a unit but no
name, the record of blanks and the one with nothing but a name in the first column do not count, and
the two others are imported. -/
theorem importFile_accounts_lengths :
    ∃ (file : CatalogFile) (s after : Store) (result : ImportResult) (g : Grid),
      importFile file s = (.ok result, after) ∧ file.Holds g ∧
      result = ⟨3, 2, [(2, .row (.noName 2))]⟩ ∧ Accounts (outcomes g.rows s) s after result ∧
      (outcomes g.rows s).map (·.1) = [2, 5, 6] ∧ ¬NoneLost g (outcomes g.rows s) := by
  let text := "项目,项目,单位\n厚度,,mm\n,,\n外径,,\n,长度,m\n宽度\n"
  let file : CatalogFile := ⟨"items.csv", some (.bytes text.toUTF8.toList)⟩
  let s : Store := Store.blank.prepare
  let g : Grid := ⟨["项目", "项目", "单位"],
    [["厚度", "", "mm"], ["", "", ""], ["外径", "", ""], ["", "长度", "m"], ["宽度"]]⟩
  have hrecords : Sheet.Separated.texts? text.toUTF8.toList = some (g.header :: g.records) := by
    decide +kernel
  have hheld : file.Holds g := .separated (by decide) rfl hrecords
  have hresult : (importFile file s).1 = .ok ⟨3, 2, [(2, .row (.noName 2))]⟩ := by decide +kernel
  cases himport : importFile file s with
  | mk answer after =>
    rw [himport] at hresult
    obtain rfl : answer = _ := hresult
    obtain ⟨g', hg', haccounts, hplaces, _, _, _, hlost, _⟩ := importFile_accounts himport
    obtain rfl := hheld.unique hg'
    refine ⟨file, s, after, _, g, himport, hheld, rfl, haccounts, ?_, ?_⟩
    · rw [hplaces]
      decide +kernel
    · rw [hlost]
      decide +kernel

/-- **A record can be lost**: under two columns of one name, a record whose cell stands under the first
has neither an item nor a failure. -/
theorem importFile_loses_record :
    ∃ (file : CatalogFile) (g : Grid), file.Holds g ∧
      Sheet.filled g.columns ["厚度", ""] = true ∧ g.records = [["厚度", ""]] ∧
      importFile file Store.blank.prepare = (.ok ⟨0, 0, []⟩, Store.blank.prepare) ∧
      ¬NoneLost g (outcomes g.rows Store.blank.prepare) := by
  let bytes := "检验项目,检验项目\n厚度,\n".toUTF8.toList
  let file : CatalogFile := ⟨"items.csv", some (.bytes bytes)⟩
  let g : Grid := ⟨["检验项目", "检验项目"], [["厚度", ""]]⟩
  have hrecords : Sheet.Separated.texts? bytes = some (g.header :: g.records) := by decide +kernel
  have hheld : file.Holds g := .separated (by decide) rfl hrecords
  refine ⟨file, g, hheld, by decide, rfl, by decide +kernel, ?_⟩
  rw [noneLost_iff]
  decide +kernel

end MaterialInspection.Desk
