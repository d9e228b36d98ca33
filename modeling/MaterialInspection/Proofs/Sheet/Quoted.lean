import MaterialInspection.Proofs.Sheet.Records

/-!
# Writing comma-separated texts

Any cell can be written between quotation marks, its own marks doubled, and so any records can be
written as comma-separated texts, whatever commas, marks, line ends and byte order marks their cells
hold.

The reader goes byte by byte, so the first lemmas say that the byte of a quotation mark belongs to
nothing but a quotation mark.  Each of the others runs the reader over one piece of what was written,
with any bytes behind it.

* `recordsFrom_doubled` — a cell without its marks, up to the closing one.
* `recordsFrom_quotedCells` — the cells of a record, up to the end of its line.
* `texts?_written` — records that are written are read back as they were.
-/

set_option autoImplicit false

namespace MaterialInspection.Sheet.Separated

/-! ## Writing -/

/-- How the line of a record ends. -/
inductive LineEnd
  | lineFeed
  | returnAndFeed
  deriving DecidableEq, Repr

def LineEnd.chars : LineEnd → List Char
  | .lineFeed => ['\n']
  | .returnAndFeed => ['\r', '\n']

/-- A character in a cell between quotation marks. -/
def doubledChar (c : Char) : List Char := if c = '"' then ['"', '"'] else [c]

/-- A cell between quotation marks. -/
def quotedCell (cell : String) : List Char := '"' :: (cell.toList.flatMap doubledChar ++ ['"'])

/-- The cells of a record with commas between them. -/
def quotedCells : List String → List Char
  | [] => []
  | [cell] => quotedCell cell
  | cell :: next :: cells => quotedCell cell ++ ',' :: quotedCells (next :: cells)

/-- Records as comma-separated texts, each with an end of its line. -/
def written (lines : List (List String × LineEnd)) : String :=
  String.ofList (lines.flatMap fun line => quotedCells line.1 ++ line.2.chars)

/-! ## Bytes -/

/-- The bytes of some characters. -/
def utf8 (cs : List Char) : List UInt8 := cs.flatMap String.utf8EncodeChar

/-- The bytes of a text. -/
def bytes (s : String) : List UInt8 := s.toUTF8.data.toList

theorem bytes_ofList (cs : List Char) : bytes (String.ofList cs) = utf8 cs := by
  unfold bytes utf8
  rw [String.toUTF8_eq_toByteArray, String.toByteArray_ofList, List.utf8Encode,
    List.data_toByteArray]

theorem bytes_eq (s : String) : bytes s = utf8 s.toList := by
  rw [← bytes_ofList, String.ofList_toList]

@[simp] theorem utf8_append (a b : List Char) : utf8 (a ++ b) = utf8 a ++ utf8 b :=
  List.flatMap_append

theorem utf8_cons (c : Char) (cs : List Char) : utf8 (c :: cs) = String.utf8EncodeChar c ++ utf8 cs :=
  List.flatMap_cons

/-- The bytes of a text are read as that text. -/
theorem text?_bytes (s : String) : text? (bytes s) = some s := by
  have hbytes : (⟨(bytes s).toArray⟩ : ByteArray) = s.toByteArray := by
    unfold bytes
    rw [String.toUTF8_eq_toByteArray, Array.toArray_toList]
  unfold text?
  rw [hbytes, String.fromUTF8?, dif_pos s.isValidUTF8]
  rfl

/-- The byte of a quotation mark stands in no other character. -/
theorem quote_not_mem {c : Char} (h : c ≠ '"') : quote ∉ String.utf8EncodeChar c := by
  have hcode : c.val.toNat ≠ 34 := fun hc => h (Char.ext (UInt32.toNat_inj.1 hc))
  have hbyte {n : Nat} (hn : n < 256) (hne : n ≠ 34) : quote ≠ UInt8.ofNat n := by
    intro heq
    have hnat := congrArg UInt8.toNat heq
    rw [UInt8.toNat_ofNat_of_lt' hn] at hnat
    exact hne hnat.symm
  unfold String.utf8EncodeChar
  dsimp only
  split
  · rw [List.mem_singleton]
    exact hbyte (by omega) hcode
  · -- the other bytes are from 128 on
    split
    · simp only [List.mem_cons, List.not_mem_nil, or_false, not_or]
      exact ⟨hbyte (by omega) (by omega), hbyte (by omega) (by omega)⟩
    · split
      · simp only [List.mem_cons, List.not_mem_nil, or_false, not_or]
        exact ⟨hbyte (by omega) (by omega), hbyte (by omega) (by omega), hbyte (by omega) (by omega)⟩
      · simp only [List.mem_cons, List.not_mem_nil, or_false, not_or]
        exact ⟨hbyte (by omega) (by omega), hbyte (by omega) (by omega),
          hbyte (by omega) (by omega), hbyte (by omega) (by omega)⟩

/-! ## Reading back -/

variable (cell : List UInt8) (cells : List (List UInt8)) (rest : List UInt8)

/-- Between quotation marks all bytes but those of a mark go into the cell. -/
theorem recordsFrom_inside {bs : List UInt8} (h : quote ∉ bs) :
    recordsFrom ⟨.quoted, cell, cells⟩ (bs ++ rest) =
      recordsFrom ⟨.quoted, bs.reverse ++ cell, cells⟩ rest := by
  induction bs generalizing cell with
  | nil => rfl
  | cons b bs ih =>
    rw [List.mem_cons, not_or] at h
    obtain ⟨hb, hbs⟩ := h
    have hstep : State.step ⟨.quoted, cell, cells⟩ b = (⟨.quoted, b :: cell, cells⟩, none) := by
      unfold State.step
      dsimp only
      rw [if_neg (by simpa using Ne.symm hb)]
      rfl
    rw [List.cons_append, recordsFrom, hstep]
    dsimp only
    rw [ih _ hbs, List.reverse_cons, List.append_assoc, List.singleton_append]

/-- A cell is read up to its closing mark. -/
theorem recordsFrom_doubled (cs : List Char) :
    recordsFrom ⟨.quoted, cell, cells⟩ (utf8 (cs.flatMap doubledChar) ++ quote :: rest) =
      recordsFrom ⟨.closing, (utf8 cs).reverse ++ cell, cells⟩ rest := by
  induction cs generalizing cell with
  | nil => rfl
  | cons c cs ih =>
    rw [List.flatMap_cons, utf8_append, utf8_cons, List.append_assoc, List.reverse_append,
      List.append_assoc]
    by_cases hc : c = '"'
    · -- the first of two marks seems to close the cell, and the second takes that back
      subst hc
      exact ih (quote :: cell)
    · have hbytes : utf8 (doubledChar c) = String.utf8EncodeChar c := by
        rw [doubledChar, if_neg hc, utf8_cons]
        exact List.append_nil _
      rw [hbytes, recordsFrom_inside _ _ _ (quote_not_mem hc), ih]

/-- A cell between quotation marks is read up to what follows the closing one. -/
theorem recordsFrom_quotedCell (s : String) :
    recordsFrom ⟨.cellStart, [], cells⟩ (utf8 (quotedCell s) ++ rest) =
      recordsFrom ⟨.closing, (bytes s).reverse, cells⟩ rest := by
  have hopen : utf8 (quotedCell s) ++ rest =
      quote :: (utf8 (s.toList.flatMap doubledChar) ++ quote :: rest) := by
    unfold quotedCell
    rw [utf8_cons, utf8_append, List.append_assoc, List.append_assoc]
    rfl
  have hread := recordsFrom_doubled [] cells rest s.toList
  rw [List.append_nil, ← bytes_eq] at hread
  rw [hopen]
  exact hread

/-- A line end ends the record after a cell between quotation marks. -/
theorem recordsFrom_lineEnd (ending : LineEnd) :
    recordsFrom ⟨.closing, cell, cells⟩ (utf8 ending.chars ++ rest) =
      (cell.reverse :: cells).reverse :: recordsFrom .start rest := by
  cases ending <;> rfl

/-- The cells of a record are read up to the end of its line. -/
theorem recordsFrom_quotedCells {texts : List String} (hne : texts ≠ []) (ending : LineEnd) :
    recordsFrom ⟨.cellStart, [], cells⟩ (utf8 (quotedCells texts) ++ (utf8 ending.chars ++ rest)) =
      (cells.reverse ++ texts.map bytes) :: recordsFrom .start rest := by
  induction texts generalizing cells with
  | nil => exact absurd rfl hne
  | cons s texts ih =>
    cases texts with
    | nil =>
      rw [quotedCells, recordsFrom_quotedCell, recordsFrom_lineEnd, List.reverse_reverse,
        List.reverse_cons]
      rfl
    | cons t texts =>
      have hcomma : utf8 (quotedCells (s :: t :: texts)) ++ (utf8 ending.chars ++ rest) =
          utf8 (quotedCell s) ++
            (comma :: (utf8 (quotedCells (t :: texts)) ++ (utf8 ending.chars ++ rest))) := by
        rw [quotedCells, utf8_append, utf8_cons, List.append_assoc, List.append_assoc]
        rfl
      have hstep : recordsFrom ⟨.closing, (bytes s).reverse, cells⟩
          (comma :: (utf8 (quotedCells (t :: texts)) ++ (utf8 ending.chars ++ rest))) =
          recordsFrom ⟨.cellStart, [], (bytes s).reverse.reverse :: cells⟩
            (utf8 (quotedCells (t :: texts)) ++ (utf8 ending.chars ++ rest)) := rfl
      rw [hcomma, recordsFrom_quotedCell, hstep, ih _ (List.cons_ne_nil t texts),
        List.reverse_reverse, List.reverse_cons, List.append_assoc, List.singleton_append]
      rfl

theorem quotedCells_eq_cons {texts : List String} (hne : texts ≠ []) :
    ∃ more, utf8 (quotedCells texts) = quote :: more := by
  cases texts with
  | nil => exact absurd rfl hne
  | cons s texts => cases texts <;> exact ⟨_, rfl⟩

variable {lines : List (List String × LineEnd)}

/-- Before a record a quotation mark starts its first cell. -/
theorem recordsFrom_start : recordsFrom .start (quote :: rest) =
    recordsFrom ⟨.cellStart, [], []⟩ (quote :: rest) := rfl

/-- Records that are written are read back, byte for byte. -/
theorem recordsFrom_written (h : ∀ line ∈ lines, line.1 ≠ []) :
    recordsFrom .start (bytes (written lines)) = lines.map fun line => line.1.map bytes := by
  unfold written
  rw [bytes_ofList]
  induction lines with
  | nil => rfl
  | cons line lines ih =>
    obtain ⟨hline, hlines⟩ := List.forall_mem_cons.1 h
    obtain ⟨more, hmore⟩ := quotedCells_eq_cons hline
    rw [List.flatMap_cons, List.append_assoc, utf8_append, utf8_append, hmore, List.cons_append,
      recordsFrom_start, ← List.cons_append, ← hmore, recordsFrom_quotedCells _ _ hline, ih hlines]
    rfl

/-- What was written has no byte order mark before it. -/
theorem withoutMark_written (h : ∀ line ∈ lines, line.1 ≠ []) :
    withoutMark (bytes (written lines)) = bytes (written lines) := by
  unfold written
  rw [bytes_ofList]
  cases lines with
  | nil => rfl
  | cons line lines =>
    obtain ⟨more, hmore⟩ := quotedCells_eq_cons (h line List.mem_cons_self)
    rw [List.flatMap_cons, List.append_assoc, utf8_append, hmore]
    rfl

theorem mapM_text?_bytes (texts : List String) : (texts.map bytes).mapM text? = some texts := by
  induction texts with
  | nil => rfl
  | cons s texts ih =>
    rw [List.map_cons, List.mapM_cons, text?_bytes, ih]
    rfl

/-- **Records that are written are read back as they were**, if each has a cell. -/
theorem texts?_written (h : ∀ line ∈ lines, line.1 ≠ []) :
    texts? (bytes (written lines)) = some (lines.map (·.1)) := by
  unfold texts? records
  rw [withoutMark_written h, recordsFrom_written h]
  clear h
  induction lines with
  | nil => rfl
  | cons line lines ih =>
    rw [List.map_cons, List.mapM_cons, mapM_text?_bytes, ih]
    rfl

end MaterialInspection.Sheet.Separated
