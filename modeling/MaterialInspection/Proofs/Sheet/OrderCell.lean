import Mathlib.Data.List.Basic
import MaterialInspection.Proofs.Number.WholeDecimal
import MaterialInspection.Sheet.ItemRow

/-!
# The order of a catalog row

The order of a row is a whole number, which a spreadsheet may write with a point and zeros.  With them it
is no whole number to the first reader of the cell and a double to the second, and both read the same
number.  They differ at one end of the range: the second compares magnitudes with the greatest order, so
it refuses the least order, whose magnitude is one more.

* `readOrder?_of_writes`, `readOrder?_pointed` — what the two spellings of a whole number are read as.
* `ofRow_of_without` — a row without its order is all of the item but the order.
* `ofRow_spellings` — the outcomes of a row under both spellings, the same but for the least order.
-/

set_option autoImplicit false

namespace MaterialInspection

open Number Binary64

seal unitsPerOne unitsLimit twoTo

/-! ## The range of orders -/

variable {text : List Char} {n : Int}

/-- The double of a whole number is read as an order if its magnitude is at most that of the greatest. -/
theorem order_of_rank {x : Binary64} (h : x.rank = some (place (n * unitsPerOne) 1)) :
    (if x.isWhole && x.abs.le (.ofInt maxInt32) then x.wholePart? else none) =
      if n.natAbs ≤ maxInt32.natAbs then some n else none := by
  have hsize : x.abs.le (.ofInt maxInt32) = decide (n.natAbs ≤ maxInt32.natAbs) :=
    abs_le_ofInt (k := 2147483647) (by rw [twoTo_53]; decide) h
  rw [hsize]
  by_cases hn : n.natAbs ≤ maxInt32.natAbs
  · have hexact : maxInt32.natAbs ≤ twoTo 53 := by rw [twoTo_53]; decide
    obtain ⟨hwhole, hpart⟩ := wholePart?_of_rank (Nat.le_trans hn hexact) h
    rw [decide_eq_true hn, hwhole, if_pos hn, hpart]
    rfl
  · rw [decide_eq_false hn, Bool.and_false, if_neg hn, if_neg Bool.false_ne_true]

namespace Item

/-- **A whole number is read as an order if it has 32 bits.** -/
theorem readOrder?_of_writes (h : WritesWhole text n) :
    readOrder? text = if minInt32 ≤ n ∧ n ≤ maxInt32 then some n else none := by
  have hmin : minInt32 = -2147483648 := rfl
  have hmax : maxInt32 = 2147483647 := rfl
  obtain ⟨x, hread, hrank⟩ := readDouble?_of_writes h 0
  rw [zeroFraction, if_pos rfl, List.append_nil] at hread
  unfold readOrder? readInt32?
  rw [readInt?_of_writes h, Option.filter_some]
  by_cases hrange : minInt32 ≤ n ∧ n ≤ maxInt32
  · rw [if_pos (by simpa using hrange), if_pos hrange]
  · rw [if_neg (by simpa using hrange), if_neg hrange, hread]
    dsimp only
    rw [order_of_rank hrank, if_neg (by omega)]

/-- **With a point and zeros it is read as an order if its magnitude is at most that of the greatest.** -/
theorem readOrder?_pointed (h : WritesWhole text n) {zeros : Nat} (hzeros : 1 ≤ zeros) :
    readOrder? (text ++ '.' :: List.replicate zeros '0') =
      if minInt32 < n ∧ n ≤ maxInt32 then some n else none := by
  have hmin : minInt32 = -2147483648 := rfl
  have hmax : maxInt32 = 2147483647 := rfl
  obtain ⟨x, hread, hrank⟩ := readDouble?_of_writes h zeros
  rw [zeroFraction, if_neg (by omega)] at hread
  unfold readOrder? readInt32?
  rw [readInt?_of_point (by simp), hread]
  dsimp only
  rw [order_of_rank hrank]
  by_cases hrange : minInt32 < n ∧ n ≤ maxInt32
  · rw [if_pos hrange, if_pos (by omega)]
  · rw [if_neg hrange, if_neg (by omega)]

end Item

/-! ## Rows without some columns -/

/-- A row without the cells of some columns. -/
def Row.without (row : Row) (columns : List String) : Row :=
  { row with fields := row.fields.filter fun f => !columns.contains f.1 }

theorem Row.field?_without {columns : List String} {column : String} (row : Row) (h : column ∉ columns) :
    (row.without columns).field? column = row.field? column := by
  unfold field? without
  rw [List.find?_filter]
  refine congrArg _ (congrArg (fun p => List.find? p _) (funext fun f => ?_))
  by_cases hname : f.1 = column
  · simp [hname, h]
  · simp [hname]

namespace Item

variable {row : Row} {item : Item} {columns others : List String}

/-- The cells of other columns stay as they are. -/
theorem cell?_without (row : Row) (h : ∀ column ∈ others, column ∉ columns) :
    cell? (row.without columns) others = cell? row others := by
  unfold cell?
  refine congrArg _ (List.filterMap_congr fun column hmem => ?_)
  rw [row.field?_without (h column hmem)]

theorem cell?_without_order (row : Row) : ∀ columns ∈ [nameColumns, standardColumns, criteriaColumns,
    ruleColumns, unitColumns, categoryColumns, statusColumns],
    cell? (row.without orderColumns) columns = cell? row columns := by
  intro columns hmem
  refine cell?_without row ?_
  revert columns
  decide

/-- **A row that is valid without its order is an item with that order, or misses only the order.** -/
theorem ofRow_of_without (h : ofRow (row.without orderColumns) = .ok item) :
    ofRow row = (orderOf row).map fun order => { item with order } := by
  have hcell := cell?_without_order row
  have hsameStatus : statusOf (row.without orderColumns) = statusOf row := by
    unfold statusOf
    rw [hcell statusColumns (by decide)]
    rfl
  have hsameRule : ruleOf (row.without orderColumns) = ruleOf row := by
    unfold ruleOf
    rw [hcell ruleColumns (by decide)]
    rfl
  obtain ⟨name, order, active, rule, hname, _, hstatus, hrule, rfl⟩ := ofRow_eq_ok_iff.1 h
  rw [hcell nameColumns (by decide)] at hname
  rw [hsameStatus] at hstatus
  rw [hsameRule] at hrule
  unfold ofRow
  rw [hname, hstatus, hrule, hcell standardColumns (by decide), hcell criteriaColumns (by decide),
    hcell unitColumns (by decide), hcell categoryColumns (by decide)]
  cases orderOf row <;> rfl

/-- With an order cell, such a row is what the cell makes of it. -/
theorem ofRow_of_cell {cell : String} (hvalid : ofRow (row.without orderColumns) = .ok item)
    (hcell : cell? row orderColumns = some cell) :
    ofRow row =
      match readOrder? cell.toList with
      | some order => .ok { item with order }
      | none => .error (.badOrder row.number cell) := by
  rw [ofRow_of_without hvalid]
  unfold orderOf
  rw [hcell]
  dsimp only
  cases readOrder? cell.toList <;> rfl

/-! ## Both spellings -/

/-- **The order of a row in both spellings.**  For every row that is valid without its order, a whole
number in its order cell is the order of the item if it is between the least and the greatest number of
32 bits, and otherwise an error of the order that quotes the cell.  With a point and any number of zeros
behind it, the same holds with the least number left out; so the two rows have the same outcome exactly
for the numbers that are not the least one. -/
theorem ofRow_spellings {plain pointed : Row} {zeros : Nat} (hwrites : WritesWhole text n)
    (hzeros : 1 ≤ zeros) (hsame : pointed.without orderColumns = plain.without orderColumns)
    (hvalid : ofRow (plain.without orderColumns) = .ok item)
    (hplain : cell? plain orderColumns = some (String.ofList text))
    (hpointed : cell? pointed orderColumns =
      some (String.ofList (text ++ '.' :: List.replicate zeros '0'))) :
    ofRow plain =
        (if minInt32 ≤ n ∧ n ≤ maxInt32 then .ok { item with order := n }
          else .error (.badOrder plain.number (String.ofList text))) ∧
      ofRow pointed =
        (if minInt32 < n ∧ n ≤ maxInt32 then .ok { item with order := n }
          else .error (.badOrder plain.number
            (String.ofList (text ++ '.' :: List.replicate zeros '0')))) ∧
      ((ofRow plain).toOption = (ofRow pointed).toOption ↔ n ≠ minInt32) := by
  have hmin : minInt32 = -2147483648 := rfl
  have hmax : maxInt32 = 2147483647 := rfl
  have hnumber : pointed.number = plain.number := (congrArg Row.number hsame :)
  have hfirst := ofRow_of_cell hvalid hplain
  have hsecond := ofRow_of_cell (hsame ▸ hvalid) hpointed
  rw [String.toList_ofList, readOrder?_of_writes hwrites] at hfirst
  rw [String.toList_ofList, readOrder?_pointed hwrites hzeros, hnumber] at hsecond
  rw [hfirst, hsecond]
  by_cases hrange : minInt32 ≤ n ∧ n ≤ maxInt32
  · rw [if_pos hrange, if_pos hrange]
    by_cases hleast : n = minInt32
    · rw [if_neg (by omega), if_neg (by omega)]
      exact ⟨rfl, rfl, nofun, fun hne => absurd hleast hne⟩
    · rw [if_pos (by omega), if_pos (by omega)]
      exact ⟨rfl, rfl, fun _ => hleast, fun _ => rfl⟩
  · rw [if_neg hrange, if_neg hrange, if_neg (by omega), if_neg (by omega)]
    exact ⟨rfl, rfl, fun _ => by omega, fun _ => rfl⟩

/-- A thickness is the twelfth item, whether its number stands as 12 or, between blanks and under another
name of the column, as 12.00. -/
theorem ofRow_spellings_twelfth :
    ofRow ⟨2, [("检验项目", "厚度"), ("排序", "12")]⟩ = .ok { name := "厚度", order := 12 } ∧
      ofRow ⟨2, [("检验项目", "厚度"), ("序号", " 12.00 ")]⟩ = .ok { name := "厚度", order := 12 } := by
  let plain : Row := ⟨2, [("检验项目", "厚度"), ("排序", "12")]⟩
  let pointed : Row := ⟨2, [("检验项目", "厚度"), ("序号", " 12.00 ")]⟩
  have hsame : pointed.without orderColumns = plain.without orderColumns := by decide
  have hvalid : ofRow (plain.without orderColumns) = .ok { name := "厚度" } := by rfl
  have hplain : cell? plain orderColumns = some (String.ofList (toString (12 : Int)).toList) := by decide
  have hpointed : cell? pointed orderColumns =
      some (String.ofList ((toString (12 : Int)).toList ++ '.' :: List.replicate 2 '0')) := by decide
  obtain ⟨hfirst, hsecond, _⟩ :=
    ofRow_spellings (writesWhole_toString 12) (by decide) hsame hvalid hplain hpointed
  exact ⟨hfirst, hsecond⟩

/-- **The least order is one only without a point.** -/
theorem least_order_pointed :
    (∃ item, ofRow ⟨2, [("检验项目", "厚度"), ("排序", "-2147483648")]⟩ = .ok item ∧ item.order = minInt32) ∧
      ofRow ⟨2, [("检验项目", "厚度"), ("排序", "-2147483648.0")]⟩ =
        .error (.badOrder 2 "-2147483648.0") := by
  let plain : Row := ⟨2, [("检验项目", "厚度"), ("排序", "-2147483648")]⟩
  let pointed : Row := ⟨2, [("检验项目", "厚度"), ("排序", "-2147483648.0")]⟩
  have hplain : cell? plain orderColumns = some "-2147483648" := by decide
  have hpointed : cell? pointed orderColumns = some "-2147483648.0" := by decide
  have htext : "-2147483648".toList = (toString minInt32).toList := by decide
  have hfirst : readOrder? "-2147483648".toList = some minInt32 := by
    rw [htext, readOrder?_of_writes (writesWhole_toString minInt32), if_pos (by decide)]
  have hsecond : readOrder? "-2147483648.0".toList = none := by
    have hpoint : "-2147483648.0".toList = "-2147483648".toList ++ '.' :: List.replicate 1 '0' := by decide
    rw [hpoint, htext, readOrder?_pointed (writesWhole_toString minInt32) (by decide),
      if_neg (by decide)]
  refine ⟨⟨{ name := "厚度", order := minInt32 }, ?_, rfl⟩, ?_⟩
  · rw [ofRow_of_cell (show ofRow (plain.without orderColumns) = .ok { name := "厚度" } by rfl) hplain,
      hfirst]
  · rw [ofRow_of_cell (show ofRow (pointed.without orderColumns) = .ok { name := "厚度" } by rfl) hpointed,
      hsecond]

end Item

end MaterialInspection
