import MaterialInspection.Number.Width

/-!
# Tables with numbered rows

The rows of a table have ids that are given out one after another and never twice: a row that is
taken out or replaced leaves a gap.  Ids have 64 bits, and a table whose last id is the greatest of
them takes no further row.

Principal statements: `lt_nextId` (the next id is larger than those in use), `freshId?_eq_some_iff` and
`greatestId_append`.
-/

set_option autoImplicit false

namespace MaterialInspection

/-- Rows in order of their entry, and the last id used up. -/
structure Numbered (α : Type) where
  rows : List α
  lastId : Int
  deriving DecidableEq

namespace Numbered

variable {α : Type}

/-- A table before any row. -/
def empty : Numbered α := ⟨[], 0⟩

/-- The largest of the last id used up and those in use. -/
def greatestId (t : Numbered α) (id : α → Int) : Int := (t.rows.map id).foldl max t.lastId

/-- The next id, larger than the last one used up and than every one in use; none after the greatest
number of 64 bits. -/
def freshId? (t : Numbered α) (id : α → Int) : Option Int :=
  if t.greatestId id < maxInt64 then some (t.greatestId id + 1) else none

/-- The table with one more row under an id. -/
def append (t : Numbered α) (id : Int) (row : α) : Numbered α := ⟨t.rows ++ [row], id⟩

/-- The id that the next row gets. -/
def nextId (t : Numbered α) (id : α → Int) : Int := t.greatestId id + 1

theorem foldl_max_ge (ids : List Int) (a : Int) : a ≤ ids.foldl max a ∧ ∀ n ∈ ids, n ≤ ids.foldl max a := by
  induction ids generalizing a with
  | nil => simp
  | cons n rest ih =>
    obtain ⟨h1, h2⟩ := ih (max a n)
    rw [List.foldl_cons]
    refine ⟨by omega, ?_⟩
    intro m hm
    rcases List.mem_cons.1 hm with rfl | hm
    · omega
    · exact h2 m hm

theorem foldl_max_of_le {ids : List Int} {a : Int} (h : ∀ n ∈ ids, n ≤ a) : ids.foldl max a = a := by
  induction ids with
  | nil => rfl
  | cons n rest ih =>
    have hn := h n (by simp)
    rw [List.foldl_cons, show max a n = a by omega]
    exact ih fun m hm => h m (by simp [hm])

/-- The next id is larger than every id in use. -/
theorem lt_nextId (t : Numbered α) (id : α → Int) {row : α} (h : row ∈ t.rows) :
    id row < t.nextId id := by
  have := (foldl_max_ge (t.rows.map id) t.lastId).2 (id row) (List.mem_map_of_mem h)
  unfold nextId greatestId
  omega

theorem freshId?_eq_some_iff {t : Numbered α} {id : α → Int} {n : Int} :
    t.freshId? id = some n ↔ t.greatestId id < maxInt64 ∧ n = t.nextId id := by
  unfold freshId? nextId
  split
  · rename_i h
    simp [h, eq_comm]
  · rename_i h
    simp [h]

theorem freshId?_eq_none_iff {t : Numbered α} {id : α → Int} :
    t.freshId? id = none ↔ maxInt64 ≤ t.greatestId id := by
  unfold freshId?
  split
  · simp; omega
  · simp; omega

/-- The last id used up is the greatest, if no row has a larger one. -/
theorem greatestId_of_le {t : Numbered α} {id : α → Int} (h : ∀ row ∈ t.rows, id row ≤ t.lastId) :
    t.greatestId id = t.lastId := by
  refine foldl_max_of_le fun n hn => ?_
  obtain ⟨row, hrow, rfl⟩ := List.mem_map.1 hn
  exact h row hrow

/-- A row entered under the next id becomes the one with the greatest id. -/
theorem greatestId_append (t : Numbered α) (id : α → Int) {row : α} (h : id row = t.nextId id) :
    (t.append (t.nextId id) row).greatestId id = t.nextId id := by
  refine greatestId_of_le fun other hother => ?_
  rcases List.mem_append.1 hother with hother | hother
  · exact Int.le_of_lt (lt_nextId t id hother)
  · rw [List.mem_singleton.1 hother, h]
    exact Int.le_refl _

end Numbered

end MaterialInspection
