import MaterialInspection.Proofs.Desk.Import
import MaterialInspection.Proofs.Sheet.Records

/-!
# Row numbers and lines

A row of comma-separated texts is numbered by the place of its record: the header is record 1, and each
record after it counts one, whether it makes a row or not.  That is the line on which the record starts
as long as every line before it is a record.  An empty line is none, and a quoted cell may run over
several, so behind these the numbers fall short of the lines.

A line ends with a line feed, a carriage return or both.  To the reader a line end is one of three
things (`Break`): it ends a record, it ends a line without one, or it belongs to a quoted cell.

* `Separated.Taken` — all that the reader can do with a byte.
* `Separated.count_record` — line ends of the first kind are as many as the records that have ended.
* `Separated.exists_start`, `Separated.Starts.unique` — each record starts at one place of the text.
* `Separated.Starts.line` — the line on which a record starts is its place and the line ends of the
  other two kinds before it.
* `Desk.numbers_behind_lines` — so it is for the rows of every file, and an import reports its failures
  under these numbers.
-/

set_option autoImplicit false

namespace MaterialInspection

namespace Sheet.Separated

/-! ## Lines -/

/-- Whether a byte ends a line; a line feed right behind a carriage return ends none of its own. -/
def endsLine (returned : Bool) (b : UInt8) : Bool := b == 13 || b == 10 && !returned

/-- How many lines end in some bytes, behind a carriage return or not. -/
def linesEndedFrom (returned : Bool) : List UInt8 → Nat
  | [] => 0
  | b :: rest => (if endsLine returned b then 1 else 0) + linesEndedFrom (b == 13) rest

/-- The line of what stands behind some bytes; a text starts on line 1. -/
def lineBehind (before : List UInt8) : Nat := linesEndedFrom false before + 1

/-- What a line end is to the reader. -/
inductive Break
  /-- The end of a record. -/
  | record
  /-- The end of a line that holds no record. -/
  | blank
  /-- A part of a quoted cell. -/
  | cell
  deriving DecidableEq, Repr

/-- What a line end is at some place. -/
def Place.break : Place → Break
  | .outside => .blank
  | .quoted => .cell
  | _ => .record

/-- What the line ends of some bytes are to a reader in this state. -/
def breaksFrom (s : State) (returned : Bool) : List UInt8 → List Break
  | [] => []
  | b :: rest =>
    (if endsLine returned b then [s.place.break] else []) ++ breaksFrom (s.step b).1 (b == 13) rest

/-- What the line ends of some bytes are. -/
def breaks (before : List UInt8) : List Break := breaksFrom .start false before

theorem length_breaksFrom (s : State) (returned : Bool) (bytes : List UInt8) :
    (breaksFrom s returned bytes).length = linesEndedFrom returned bytes := by
  induction bytes generalizing s returned with
  | nil => rfl
  | cons b rest ih =>
    rw [breaksFrom, linesEndedFrom, List.length_append, ih]
    congr 1
    split <;> rfl

/-- The three kinds of line ends make up all of them. -/
theorem length_eq_counts (l : List Break) :
    l.length = l.count .record + (l.count .blank + l.count .cell) := by
  induction l with
  | nil => rfl
  | cons b l ih =>
    rw [List.length_cons, ih, List.count_cons, List.count_cons, List.count_cons]
    cases b <;> simp <;> omega

/-- A byte order mark ends no line. -/
theorem exists_mark (bytes : List UInt8) : ∃ mark, bytes = mark ++ withoutMark bytes ∧
    ∀ before, lineBehind (mark ++ before) = lineBehind before := by
  unfold withoutMark
  split
  · exact ⟨[0xEF, 0xBB, 0xBF], rfl, fun before => by
      simp [lineBehind, linesEndedFrom, endsLine]⟩
  · exact ⟨[], rfl, fun _ => rfl⟩

/-! ## Reading a part of a text -/

/-- The reader after some bytes, and the records that have ended. -/
def read (s : State) : List UInt8 → State × List (List (List UInt8))
  | [] => (s, [])
  | b :: rest => ((read (s.step b).1 rest).1, (s.step b).2.toList ++ (read (s.step b).1 rest).2)

/-- Before a record the reader holds nothing. -/
def State.Sound (s : State) : Prop := s.place = .outside → s = .start

theorem State.sound_start : State.start.Sound := fun _ => rfl

theorem State.Sound.of_ne {s : State} (h : s.place ≠ .outside) : s.Sound := fun hs => absurd hs h

/-- What the reader does with a byte: it stays before a record, ends one, takes a line end into a
quoted cell, or goes on inside a record. -/
inductive Taken (s : State) (b : UInt8) : Prop
  | between (hs : s = .start) (hend : isLineEnd b = true) (hstep : s.step b = (.start, none))
  | ended (hs : s.place ≠ .outside) (hopen : s.place ≠ .quoted) (hend : isLineEnd b = true)
      (hstep : s.step b = (.start, some s.record))
  | held (next : State) (hs : s.place = .quoted) (hnext : next.place = .quoted)
      (hend : isLineEnd b = true) (hstep : s.step b = (next, none))
  | inside (next : State) (hnext : next.place ≠ .outside) (hend : isLineEnd b = false)
      (hstep : s.step b = (next, none))

variable {s : State} {b : UInt8}

theorem quote_ne_of_isLineEnd (h : isLineEnd b = true) : (b == quote) = false := by
  rw [beq_eq_false_iff_ne]
  rintro rfl
  cases h

/-- Where a cell may end, a line end ends the record. -/
theorem atCellEnd_of_isLineEnd (h : isLineEnd b = true) :
    s.atCellEnd b = (.start, some s.record) := by
  have hcomma : (b == comma) = false := by
    rw [beq_eq_false_iff_ne]
    rintro rfl
    cases h
  unfold State.atCellEnd
  rw [hcomma, h]
  rfl

/-- Where a cell may end, any other byte leaves the reader in the record. -/
theorem atCellEnd_inside (h : isLineEnd b = false) :
    ∃ next, next.place ≠ .outside ∧ s.atCellEnd b = (next, none) := by
  unfold State.atCellEnd
  rw [h]
  by_cases hcomma : (b == comma) = true
  · exact ⟨s.endCell, nofun, by rw [if_pos hcomma]⟩
  · exact ⟨s.add .plain b, nofun, by rw [if_neg hcomma, if_neg Bool.false_ne_true]⟩

theorem taken (hs : s.Sound) (b : UInt8) : Taken s b := by
  obtain ⟨place, cell, cells⟩ := s
  cases hend : isLineEnd b with
  | true =>
    have hquote := quote_ne_of_isLineEnd hend
    cases place with
    | outside =>
      refine .between (hs rfl) hend ?_
      simp [State.step, hend]
    | quoted =>
      refine .held _ rfl ?_ hend (by simp only [State.step, hquote]; rfl)
      rfl
    | cellStart | plain | closing =>
      refine .ended nofun nofun hend ?_
      simp [State.step, hquote, atCellEnd_of_isLineEnd hend]
  | false =>
    obtain ⟨next, hnext, hcell⟩ := atCellEnd_inside (s := ⟨place, cell, cells⟩) hend
    cases place with
    | plain => exact .inside next hnext hend hcell
    | quoted =>
      cases hquote : b == quote with
      | true => exact .inside ⟨.closing, cell, cells⟩ nofun hend (by simp [State.step, hquote])
      | false =>
        exact .inside (State.add ⟨.quoted, cell, cells⟩ .quoted b) nofun hend
          (by simp [State.step, hquote])
    | outside | cellStart | closing =>
      cases hquote : b == quote with
      | true =>
        refine .inside _ ?_ hend (by simp only [State.step, hquote, hend]; rfl)
        nofun
      | false => exact .inside next hnext hend (by simpa [State.step, hquote, hend] using hcell)

/-- A byte leaves nothing behind where it leaves the reader before a record. -/
theorem State.Sound.step (hs : s.Sound) (b : UInt8) : (s.step b).1.Sound := by
  cases taken hs b with
  | between _ _ hstep => rw [hstep]; exact sound_start
  | ended _ _ _ hstep => rw [hstep]; exact sound_start
  | held next _ hnext _ hstep => rw [hstep]; exact .of_ne (by rw [hnext]; nofun)
  | inside next hnext _ hstep => rw [hstep]; exact .of_ne hnext

theorem State.Sound.read (hs : s.Sound) (bytes : List UInt8) : (read s bytes).1.Sound := by
  induction bytes generalizing s with
  | nil => exact hs
  | cons b rest ih => exact ih (hs.step b)

/-- Reading on from where the reader is. -/
theorem read_append (s : State) (before after : List UInt8) :
    read s (before ++ after) = ((read (read s before).1 after).1,
      (read s before).2 ++ (read (read s before).1 after).2) := by
  induction before generalizing s with
  | nil => rfl
  | cons b before ih => rw [List.cons_append, read, ih, read, List.append_assoc]

/-- What is read of a text is what has been read of its start and what comes after it. -/
theorem recordsFrom_append (s : State) (before after : List UInt8) :
    recordsFrom s (before ++ after) = (read s before).2 ++ recordsFrom (read s before).1 after := by
  induction before generalizing s with
  | nil => rfl
  | cons b before ih =>
    rw [List.cons_append, recordsFrom, read]
    cases hstep : s.step b with
    | mk next ended => cases ended <;> simp [ih]

/-- A reader inside a record that gets out of it has ended one. -/
theorem read_ended (hs : s.place ≠ .outside) {bytes : List UInt8}
    (h : (read s bytes).1.place = .outside) : (read s bytes).2 ≠ [] := by
  induction bytes generalizing s with
  | nil => exact absurd h hs
  | cons b rest ih =>
    rw [read] at h ⊢
    cases taken (.of_ne hs) b with
    | between hstart => exact absurd (by rw [hstart]; rfl) hs
    | ended _ _ _ hstep =>
      rw [hstep]
      exact List.cons_ne_nil _ _
    | held next _ hnext _ hstep =>
      rw [hstep] at h ⊢
      exact ih (by rw [hnext]; nofun) h
    | inside next hnext _ hstep =>
      rw [hstep] at h ⊢
      exact ih hnext h

/-- The line ends that end a record are as many as the records that have ended. -/
theorem count_record (hs : s.Sound) {returned : Bool}
    (hreturned : returned = true → s.place = .outside ∨ s.place = .quoted) (bytes : List UInt8) :
    (breaksFrom s returned bytes).count .record = (read s bytes).2.length := by
  induction bytes generalizing s returned with
  | nil => rfl
  | cons b rest ih =>
    rw [breaksFrom, read, List.count_append, List.length_append]
    -- a carriage return is followed before a record or in a quoted cell, so a line feed behind it
    -- has no record to end
    cases taken hs b with
    | between hstart _ hstep =>
      rw [hstep, ih State.sound_start fun _ => .inl rfl, hstart]
      cases endsLine returned b <;> rfl
    | ended hplace hopen hend hstep =>
      have hfresh : returned = false := by
        rw [← Bool.not_eq_true]
        exact fun h => (hreturned h).elim hplace hopen
      have hends : endsLine returned b = true := by
        rw [hfresh]
        simpa [endsLine, isLineEnd, or_comm] using hend
      have hbreak : s.place.break = .record := by
        revert hplace hopen
        cases s.place <;> simp [Place.break]
      rw [hstep, ih State.sound_start fun _ => .inl rfl, hends, if_pos rfl, hbreak]
      rfl
    | held next hplace hnext _ hstep =>
      rw [hstep, ih (.of_ne (by rw [hnext]; nofun)) fun _ => .inr hnext, hplace]
      cases endsLine returned b <;> rfl
    | inside next hnext hend hstep =>
      have hends : endsLine returned b = false ∧ (b == 13) = false := by
        simp only [isLineEnd, Bool.or_eq_false_iff] at hend
        simp [endsLine, hend.1, hend.2]
      have hrest := ih (.of_ne hnext) fun h : false = true => absurd h Bool.false_ne_true
      rw [hstep, hends.1, hends.2, hrest]
      rfl

/-! ## Where a record starts -/

/-- A record starts behind some bytes of a text, under its place among the records: the reader is before
a record there, the records before it have ended, and the next byte begins it. -/
structure Starts (text before : List UInt8) (place : Nat) (record : List (List UInt8)) : Prop where
  begins : ∃ b after, text = before ++ b :: after ∧ isLineEnd b = false ∧
    (recordsFrom .start (b :: after)).head? = some record
  outside : (read .start before).1.place = .outside
  behind : (read .start before).2.length + 1 = place

/-- Each record that is read has been begun already or starts somewhere. -/
theorem exists_start (hs : s.Sound) {bytes : List UInt8} {i : Nat} {record : List (List UInt8)}
    (h : (recordsFrom s bytes)[i]? = some record) :
    s.place ≠ .outside ∧ i = 0 ∨ ∃ before b after, bytes = before ++ b :: after ∧
      isLineEnd b = false ∧ (read s before).1 = .start ∧ (read s before).2.length = i ∧
      (recordsFrom .start (b :: after)).head? = some record := by
  induction bytes generalizing s i with
  | nil =>
    rw [recordsFrom] at h
    split at h
    · cases h
    · rename_i hplace
      cases i with
      | zero => exact .inl ⟨hplace, rfl⟩
      | succ i => cases h
  | cons b rest ih =>
    -- what starts in the rest starts behind one byte more
    have hlater : ∀ {next : State} {ended : Option (List (List UInt8))} {i j : Nat},
        s.step b = (next, ended) → i = ended.toList.length + j → (∃ before c after,
          rest = before ++ c :: after ∧ isLineEnd c = false ∧ (read next before).1 = .start ∧
            (read next before).2.length = j ∧
            (recordsFrom .start (c :: after)).head? = some record) →
        ∃ before c after, b :: rest = before ++ c :: after ∧ isLineEnd c = false ∧
          (read s before).1 = .start ∧ (read s before).2.length = i ∧
          (recordsFrom .start (c :: after)).head? = some record := by
      rintro next ended i j hstep hi ⟨before, c, after, hrest, hc, hout, hlength, hhead⟩
      refine ⟨b :: before, c, after, by rw [hrest]; rfl, hc, ?_, ?_, hhead⟩
      · rw [read, hstep]
        exact hout
      · rw [read, hstep, List.length_append, hlength, hi]
    have hall := h
    rw [recordsFrom] at h
    cases taken hs b with
    | between _ _ hstep =>
      rw [hstep] at h
      obtain ⟨hplace, _⟩ | hfound := ih State.sound_start h
      · exact absurd rfl hplace
      · exact .inr (hlater hstep (Nat.zero_add _).symm hfound)
    | ended hplace _ _ hstep =>
      cases i with
      | zero => exact .inl ⟨hplace, rfl⟩
      | succ i =>
        rw [hstep] at h
        obtain ⟨hplace, _⟩ | hfound := ih State.sound_start h
        · exact absurd rfl hplace
        · exact .inr (hlater hstep (Nat.add_comm i 1) hfound)
    | held next hplace hnext _ hstep =>
      have hinside : next.place ≠ .outside := by rw [hnext]; nofun
      rw [hstep] at h
      obtain ⟨_, hi⟩ | hfound := ih (.of_ne hinside) h
      · exact .inl ⟨by rw [hplace]; nofun, hi⟩
      · exact .inr (hlater hstep (Nat.zero_add _).symm hfound)
    | inside next hnext hend hstep =>
      rw [hstep] at h
      obtain ⟨_, rfl⟩ | hfound := ih (.of_ne hnext) h
      · by_cases hplace : s.place = .outside
        · -- the byte begins the record
          obtain rfl := hs hplace
          exact .inr ⟨[], b, rest, rfl, hend, rfl, rfl, by rw [List.head?_eq_getElem?]; exact hall⟩
        · exact .inl ⟨hplace, rfl⟩
      · exact .inr (hlater hstep (Nat.zero_add _).symm hfound)

variable {text before other : List UInt8} {place : Nat} {record : List (List UInt8)}

/-- Each record of a text starts somewhere. -/
theorem starts_of_getElem? (h : (recordsFrom .start text)[place]? = some record) :
    ∃ before, Starts text before (place + 1) record := by
  obtain ⟨hplace, _⟩ | ⟨before, b, after, htext, hb, hout, hlength, hhead⟩ :=
    exists_start State.sound_start h
  · exact absurd rfl hplace
  · exact ⟨before, ⟨b, after, htext, hb, hhead⟩, by rw [hout]; rfl, by rw [hlength]⟩

theorem Starts.read_eq (h : Starts text before place record) : (read .start before).1 = .start :=
  State.sound_start.read before h.outside

/-- What starts under a place is the record of this place. -/
theorem Starts.getElem? (h : Starts text before place record) :
    (recordsFrom .start text)[place - 1]? = some record := by
  obtain ⟨b, after, rfl, _, hhead⟩ := h.begins
  rw [recordsFrom_append, h.read_eq, ← h.behind, Nat.add_sub_cancel,
    List.getElem?_append_right (Nat.le_refl _), Nat.sub_self, ← List.head?_eq_getElem?, hhead]

/-- Where a record starts, no longer start of the text has another record before it. -/
theorem Starts.length_lt (h : Starts text before place record) {b : UInt8} {more : List UInt8}
    (hb : isLineEnd b = false) (hout : (read .start (before ++ b :: more)).1.place = .outside) :
    (read .start before).2.length < (read .start (before ++ b :: more)).2.length := by
  rw [read_append, h.read_eq] at hout ⊢
  rw [List.length_append]
  have hne : (read .start (b :: more)).2 ≠ [] := by
    cases taken State.sound_start b with
    | between _ hend => rw [hb] at hend; cases hend
    | ended hplace => exact absurd rfl hplace
    | held _ hplace => cases hplace
    | inside next hnext _ hstep =>
      dsimp only at hout
      rw [read, hstep] at hout ⊢
      exact read_ended hnext hout
  have hpos := List.length_pos_iff.2 hne
  omega

/-- A record starts at one place of a text. -/
theorem Starts.unique {record' : List (List UInt8)} (h : Starts text before place record)
    (h' : Starts text other place record') : before = other ∧ record = record' := by
  have hbehind : (read .start before).2.length = (read .start other).2.length :=
    Nat.succ.inj (h.behind.trans h'.behind.symm)
  obtain ⟨b, after, htext, hb, _⟩ := h.begins
  obtain ⟨c, after', htext', hc, _⟩ := h'.begins
  refine ⟨?_, Option.some.inj (h.getElem?.symm.trans h'.getElem?)⟩
  obtain ⟨more, hother, hmore⟩ | ⟨more, hbefore, hmore⟩ :=
    List.append_eq_append_iff.1 (htext.symm.trans htext')
  · cases more with
    | nil => rw [hother, List.append_nil]
    | cons d more =>
      obtain ⟨rfl, _⟩ := List.cons.inj hmore
      rw [hother] at hbehind
      exact absurd hbehind (Nat.ne_of_lt (h.length_lt hb (hother ▸ h'.outside)))
  · cases more with
    | nil => rw [hbefore, List.append_nil]
    | cons d more =>
      obtain ⟨rfl, _⟩ := List.cons.inj hmore
      rw [hbefore] at hbehind
      exact absurd hbehind (Nat.ne_of_gt (h'.length_lt hc (hbefore ▸ h.outside)))

/-- **The line on which a record starts** is its place, and as many lines more as there are line ends
before it that end no record. -/
theorem Starts.line (h : Starts text before place record) :
    lineBehind before = place + (breaks before).count .blank + (breaks before).count .cell ∧
      (place = lineBehind before ↔ ∀ b ∈ breaks before, b = .record) := by
  have hlength : linesEndedFrom false before = (breaks before).length :=
    (length_breaksFrom .start false before).symm
  have hcounts := length_eq_counts (breaks before)
  have hrecord := count_record State.sound_start (fun h : false = true => by cases h) before
  have hbehind := h.behind
  have hline : lineBehind before =
      place + (breaks before).count .blank + (breaks before).count .cell := by
    unfold lineBehind
    unfold breaks at *
    omega
  refine ⟨hline, ?_⟩
  have hall : (∀ b ∈ breaks before, b = .record) ↔
      (breaks before).count .blank = 0 ∧ (breaks before).count .cell = 0 := by
    rw [List.count_eq_zero, List.count_eq_zero]
    constructor
    · intro hb
      refine ⟨fun hmem => ?_, fun hmem => ?_⟩ <;> cases hb _ hmem
    · rintro ⟨hblank, hcell⟩ b hb
      cases b with
      | record => rfl
      | blank => exact absurd hb hblank
      | cell => exact absurd hb hcell
  rw [hall]
  omega

end Sheet.Separated

/-! ## The rows of a file -/

open Sheet (Grid)
open Sheet.Separated

theorem getElem?_of_mapM {α β : Type} {f : α → Option β} {l : List α} {m : List β}
    (h : l.mapM f = some m) {i : Nat} {b : β} (hb : m[i]? = some b) :
    ∃ a, l[i]? = some a ∧ f a = some b := by
  induction l generalizing m i with
  | nil => cases h; cases hb
  | cons a l ih =>
    rw [List.mapM_cons] at h
    obtain ⟨c, hc, h⟩ := Option.bind_eq_some_iff.1 h
    obtain ⟨rest, hrest, h⟩ := Option.bind_eq_some_iff.1 h
    cases h
    cases i with
    | zero => exact ⟨a, rfl, hc.trans hb⟩
    | succ i => exact ih hrest hb

namespace CatalogFile

/-- A row of some records is that of the record with its number. -/
theorem record_of_mem {records : List (List String)} {row : Row}
    (h : row ∈ (Grid.ofRecords records).rows) : ∃ i cells, row.number = i + 1 ∧
      records[i]? = some cells ∧ row = Row.ofCells (Grid.ofRecords records).columns (i + 1) cells := by
  rw [Grid.rows_eq] at h
  obtain ⟨⟨cells, number⟩, hplaced, rfl⟩ := List.mem_map.1 h
  have hmem := (List.mem_filter.1 hplaced).1
  rw [List.mk_mem_zipIdx_iff_le_and_getElem?_sub] at hmem
  obtain ⟨hle, hget⟩ := hmem
  obtain ⟨k, rfl⟩ := Nat.exists_eq_add_of_le' hle
  refine ⟨k + 1, cells, rfl, ?_, rfl⟩
  rw [Nat.add_sub_cancel] at hget
  simpa [Grid.ofRecords] using hget

/-- A file that is read as comma-separated texts holds such, and is read so by its name too. -/
theorem texts_of_separated {file : CatalogFile} {rows : List Row}
    (h : file.rows .separated = .ok rows) : ∃ bytes records, file.contents = some (.bytes bytes) ∧
      texts? bytes = some records ∧ (Grid.ofRecords records).rows = rows ∧
      file.rows .byExtension = .ok rows := by
  unfold CatalogFile.rows at h ⊢
  dsimp only at h ⊢
  split at h
  · cases h
  · rename_i contents hcontents
    split at h
    · rename_i hname
      obtain ⟨bytes, records, rfl, hrecords, hrows⟩ := texts_of_separatedRows h
      exact ⟨bytes, records, hcontents, hrecords, hrows, by rw [if_pos hname]; exact h⟩
    · cases h

end CatalogFile

namespace Desk

/-- **Rows are numbered by records, not by lines.**  In a file that is read as comma-separated texts,
each row comes of the record whose place is its number, the header being record 1, and that record
starts behind one part of the text only.  The line on which it starts is the number of the row, and one
more for each line before it that holds no record and for each line end in a quoted cell before it.  So
the row has the number of its line exactly when every line end before it ends a record.  An import of
the file reports a failure under the number of the row that failed. -/
theorem numbers_behind_lines {file : CatalogFile} {rows : List Row}
    (h : file.rows .separated = .ok rows) :
    ∃ bytes mark records, file.contents = some (.bytes bytes) ∧ bytes = mark ++ withoutMark bytes ∧
      texts? bytes = some records ∧ rows = (Grid.ofRecords records).rows ∧
      (∀ row ∈ rows, ∃ before record cells,
        Starts (withoutMark bytes) before row.number record ∧
        (∀ other record', Starts (withoutMark bytes) other row.number record' → other = before) ∧
        record.mapM text? = some cells ∧
        row = Row.ofCells (Grid.ofRecords records).columns row.number cells ∧
        lineBehind (mark ++ before) =
          row.number + (breaks before).count .blank + (breaks before).count .cell ∧
        (row.number = lineBehind (mark ++ before) ↔ ∀ b ∈ breaks before, b = .record)) ∧
      ∀ s, ∃ result after, importFile file s = (.ok result, after) ∧
        ∀ failure ∈ result.failures, ∃ front row behind, rows = front ++ row :: behind ∧
          failure.1 = row.number ∧
          outcome s (validItems front).length row = .error failure.2 := by
  obtain ⟨bytes, records, hfile, hrecords, hrows, hread⟩ := CatalogFile.texts_of_separated h
  obtain ⟨mark, hmark, hlines⟩ := exists_mark bytes
  refine ⟨bytes, mark, records, hfile, hmark, hrecords, hrows.symm, ?_, ?_⟩
  · intro row hrow
    obtain ⟨i, cells, hnumber, hcells, hof⟩ := CatalogFile.record_of_mem (hrows ▸ hrow)
    obtain ⟨record, hrecord, htexts⟩ := getElem?_of_mapM hrecords hcells
    obtain ⟨before, hstarts⟩ := starts_of_getElem? hrecord
    rw [← hnumber] at hstarts hof
    refine ⟨before, record, cells, hstarts, fun _ _ hother => (hother.unique hstarts).1, htexts, hof, ?_⟩
    rw [hlines]
    exact hstarts.line
  · intro s
    refine ⟨_, _, importFile_of_rows hread s, fun failure hfailure => ?_⟩
    obtain ⟨o, ho, hsome⟩ := List.mem_filterMap.1 hfailure
    obtain ⟨front, row, behind, hsplit, rfl⟩ := mem_outcomesFrom ho
    obtain ⟨hnumber, hfailed⟩ := eq_of_failure? hsome
    rw [Nat.zero_add] at hfailed
    exact ⟨front, row, behind, hsplit, hnumber, hfailed⟩

/-- A file with a byte order mark, an empty line, a quoted cell over two lines and a record of blanks:
the last row has number 5 and its record starts on line 7. -/
theorem numbers_behind_lines_grammage :
    ∃ (file : CatalogFile) (bytes mark before : List UInt8) (rows : List Row)
      (record : List (List UInt8)), file.rows .separated = .ok rows ∧
      file.contents = some (.bytes bytes) ∧ bytes = mark ++ withoutMark bytes ∧
      rows.map (·.number) = [2, 3, 5] ∧ Starts (withoutMark bytes) before 5 record ∧
      breaks before = [.record, .record, .blank, .cell, .record, .record] ∧
      lineBehind (mark ++ before) = 7 := by
  let start := "检验项目,单位\r\n厚度,mm\r\n\r\n\"外\n观\",个\n,,\n".toUTF8.toList
  let last := "克重,g\n".toUTF8.toList
  let file : CatalogFile := ⟨"items.csv", some (.bytes ("\ufeff".toUTF8.toList ++ start ++ last))⟩
  let rows : List Row := [⟨2, [("检验项目", "厚度"), ("单位", "mm")]⟩,
    ⟨3, [("检验项目", "外\n观"), ("单位", "个")]⟩, ⟨5, [("检验项目", "克重"), ("单位", "g")]⟩]
  have hrows : file.rows .separated = .ok rows := by decide +kernel
  obtain ⟨bytes, mark, records, hfile, hmark, _, _, hall, _⟩ := numbers_behind_lines hrows
  obtain ⟨before, record, _, hstarts, hunique, _, _, hline, _⟩ :=
    hall ⟨5, [("检验项目", "克重"), ("单位", "g")]⟩ (by decide)
  obtain rfl : _ = bytes := FileContents.bytes.inj (Option.some.inj hfile)
  have hown : Starts (withoutMark ("\ufeff".toUTF8.toList ++ start ++ last)) start 5
      ["克重".toUTF8.toList, "g".toUTF8.toList] :=
    ⟨⟨0xE5, last.tail, by decide +kernel, by decide, by decide +kernel⟩, by decide +kernel,
      by decide +kernel⟩
  obtain rfl := hunique _ _ hown
  have hbreaks : breaks start = [.record, .record, .blank, .cell, .record, .record] := by
    decide +kernel
  rw [hbreaks] at hline
  exact ⟨file, _, mark, start, rows, record, hrows, hfile, hmark, rfl, hstarts, hbreaks, hline⟩

/-- **A row behind an empty line has not the number of its line**: its record starts on line 3, the
row has number 2, and so has the failure of its import. -/
theorem number_before_line :
    ∃ (file : CatalogFile) (bytes before : List UInt8) (record : List (List UInt8)),
      file.contents = some (.bytes bytes) ∧ withoutMark bytes = bytes ∧
      file.rows .separated = .ok [⟨2, [("检验项目", ""), ("单位", "mm")]⟩] ∧
      Starts bytes before 2 record ∧ lineBehind before = 3 ∧
      (importFile file Store.blank.prepare).1 = .ok ⟨1, 0, [(2, .row (.noName 2))]⟩ := by
  let before : List UInt8 := "检验项目,单位\n\n".toUTF8.toList
  let bytes := before ++ ",mm\n".toUTF8.toList
  refine ⟨⟨"items.csv", some (.bytes bytes)⟩, bytes, before, [[], "mm".toUTF8.toList], rfl,
    by decide +kernel, by decide +kernel, ?_, by decide +kernel, by decide +kernel⟩
  exact ⟨⟨comma, "mm\n".toUTF8.toList, by decide +kernel, by decide, by decide +kernel⟩,
    by decide +kernel, by decide +kernel⟩

end Desk

end MaterialInspection
