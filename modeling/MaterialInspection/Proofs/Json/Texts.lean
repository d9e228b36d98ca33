import MaterialInspection.Json.Record
import MaterialInspection.Store.Archive

/-!
# Lists of texts read back from JSON

The samples of a finding are kept as a JSON array of strings.  A string may hold any character: the
writer escapes the quote, the backslash and the control characters, some of them by a letter and the
others by their code.

* `stringBody?_escaped` — the escaped characters of a text, up to the closing quote, give back pieces
  that denote the text.
* `items?_texts` — the items of an array of texts read back, in their order.
* `readValues_render` — so the samples that are kept are the samples that are read.
-/

set_option autoImplicit false

namespace MaterialInspection.Json

/-! ## Characters -/

theorem hexValue?_hexDigit : ∀ n < 16, Tree.hexValue? (hexDigit n) = some n := by decide

/-- The piece that the escaped form of a character writes. -/
def pieceOf (c : Char) : Piece :=
  if c = '"' ∨ c = '\\' ∨ c = '\x08' ∨ c = '\x0c' ∨ c = '\n' ∨ c = '\r' ∨ c = '\t' then .char c
  else if c.toNat < 0x20 then .unit c.toNat
  else .char c

theorem chars?_pieceOf (c : Char) (rest : List Piece) :
    chars? (pieceOf c :: rest) = (chars? rest).map (c :: ·) := by
  unfold pieceOf
  split
  · rw [chars?]
  · split
    · have h1 : ¬(0xD800 ≤ c.toNat) := by omega
      have h2 : ¬(0xDC00 ≤ c.toNat) := by omega
      rw [chars?.eq_def]
      simp [h1, h2, Char.ofNat_toNat]
    · rw [chars?]

theorem chars?_pieces (cs : List Char) : chars? (cs.map pieceOf) = some cs := by
  induction cs with
  | nil => rfl
  | cons c rest ih => rw [List.map_cons, chars?_pieceOf, ih, Option.map_some]

/-- A letter after a backslash. -/
theorem stringBody?_letter {letter c : Char} (h : Tree.escaped? letter = some c)
    (rest : List Char) :
    Tree.stringBody? ('\\' :: letter :: rest) =
      (Tree.stringBody? rest).map fun p => (.char c :: p.1, p.2) := by
  rw [Tree.stringBody?.eq_def]
  split
  · rename_i he
    cases he
  · rename_i he
    cases he
  · rename_i he
    cases he
    cases h
  · rename_i he
    cases he
    rw [h]
    cases Tree.stringBody? rest <;> rfl
  · rename_i hne he
    cases he
    exact absurd rfl (hne letter rest rfl)

/-- Four hexadecimal digits after a backslash and the letter for them. -/
theorem stringBody?_unit {a b c d : Char} {code : Nat} (h : Tree.codeUnit? a b c d = some code)
    (rest : List Char) :
    Tree.stringBody? ('\\' :: 'u' :: a :: b :: c :: d :: rest) =
      (Tree.stringBody? rest).map fun p => (.unit code :: p.1, p.2) := by
  rw [Tree.stringBody?, h]
  cases Tree.stringBody? rest <;> rfl

/-- A character that stands for itself. -/
theorem stringBody?_plain {c : Char} (hq : c ≠ '"') (hb : c ≠ '\\') (hc : ¬c.toNat < 0x20)
    (rest : List Char) :
    Tree.stringBody? (c :: rest) =
      (Tree.stringBody? rest).map fun p => (.char c :: p.1, p.2) := by
  rw [Tree.stringBody?.eq_def]
  split
  · rename_i he
    cases he
  · rename_i he
    cases he
    exact absurd rfl hq
  · rename_i he
    cases he
    exact absurd rfl hb
  · rename_i he
    cases he
    exact absurd rfl hb
  · rename_i he
    cases he
    have hn : (decide (c = '\\') || decide (c.toNat < 32)) = false := by simp [hb, hc]
    rw [hn, if_neg Bool.false_ne_true]
    cases Tree.stringBody? rest <;> rfl

theorem codeUnit?_control {c : Char} (h : c.toNat < 0x20) :
    Tree.codeUnit? '0' '0' (hexDigit (c.toNat / 16)) (hexDigit (c.toNat % 16)) = some c.toNat := by
  have h0 : Tree.hexValue? '0' = some 0 := by decide
  unfold Tree.codeUnit?
  rw [h0, hexValue?_hexDigit _ (by omega), hexValue?_hexDigit _ (by omega)]
  show some (((0 * 16 + 0) * 16 + c.toNat / 16) * 16 + c.toNat % 16) = some c.toNat
  congr 1
  omega

/-- The escaped form of a character is read as its piece. -/
theorem stringBody?_escapeChar (c : Char) (rest : List Char) :
    Tree.stringBody? (escapeChar c ++ rest) =
      (Tree.stringBody? rest).map fun p => (pieceOf c :: p.1, p.2) := by
  by_cases hnamed : c = '"' ∨ c = '\\' ∨ c = '\x08' ∨ c = '\x0c' ∨ c = '\n' ∨ c = '\r' ∨ c = '\t'
  · have hp : pieceOf c = .char c := if_pos hnamed
    rw [hp]
    rcases hnamed with rfl | rfl | rfl | rfl | rfl | rfl | rfl
    all_goals exact stringBody?_letter (by decide) rest
  · have hp : pieceOf c = if c.toNat < 0x20 then .unit c.toNat else .char c := if_neg hnamed
    simp only [not_or] at hnamed
    obtain ⟨h1, h2, h3, h4, h5, h6, h7⟩ := hnamed
    unfold escapeChar
    rw [hp, if_neg h1, if_neg h2, if_neg h3, if_neg h4, if_neg h5, if_neg h6, if_neg h7]
    split
    · rename_i hc
      exact stringBody?_unit (codeUnit?_control hc) rest
    · rename_i hc
      exact stringBody?_plain h1 h2 hc rest

/-! ## Strings -/

/-- **The escaped characters of a text are read back up to the closing quote.** -/
theorem stringBody?_escaped (cs rest : List Char) :
    Tree.stringBody? (cs.flatMap escapeChar ++ '"' :: rest) = some (cs.map pieceOf, rest) := by
  induction cs with
  | nil => simp [Tree.stringBody?]
  | cons c cs ih =>
    rw [List.flatMap_cons, List.append_assoc, stringBody?_escapeChar, ih, Option.map_some,
      List.map_cons]

theorem string?_pieces (s : String) : string? (s.toList.map pieceOf) = some s := by
  unfold string?
  rw [chars?_pieces, Option.map_some, String.ofList_toList]

/-! ## Arrays of strings -/

/-- The tree of a text that is written as a string. -/
def treeOf (s : String) : Tree := .text (s.toList.map pieceOf)

theorem text?_treeOf (s : String) : (treeOf s).text? = some s := string?_pieces s

theorem chars_text (s : String) :
    (Value.text s).chars = '"' :: (s.toList.flatMap escapeChar ++ ['"']) := by
  rw [Value.chars, quoted]

theorem value?_text (s : String) (fuel : Nat) (rest : List Char) :
    Tree.value? (fuel + 1) ((Value.text s).chars ++ rest) = some (treeOf s, rest) := by
  rw [chars_text, List.cons_append, List.append_assoc, List.singleton_append]
  unfold Tree.value?
  simp only [stringBody?_escaped, Option.map_some]
  rfl

/-- The characters of some texts as the items of an array. -/
def textItems (ts : List String) : List Char := itemChars (ts.map .text)

theorem textItems_one (s : String) : textItems [s] = (Value.text s).chars := by
  rw [textItems, List.map_cons, List.map_nil, itemChars]

theorem textItems_cons (s t : String) (ts : List String) :
    textItems (s :: t :: ts) = (Value.text s).chars ++ ',' :: textItems (t :: ts) := by
  rw [textItems, textItems, List.map_cons, List.map_cons, itemChars]

/-- The items start with a quote. -/
theorem textItems_head (t : String) (ts : List String) :
    ∃ rest, textItems (t :: ts) = '"' :: rest := by
  cases ts with
  | nil => exact ⟨_, by rw [textItems_one, chars_text]⟩
  | cons u us => exact ⟨_, by rw [textItems_cons, chars_text, List.cons_append]⟩

theorem skipSpace_of_not {c : Char} (h : Tree.isSpace c = false) (rest : List Char) :
    Tree.skipSpace (c :: rest) = c :: rest :=
  List.dropWhile_cons_of_neg (by rw [h]; exact Bool.false_ne_true)

theorem skipSpace_textItems (t : String) (ts : List String) (rest : List Char) :
    Tree.skipSpace (textItems (t :: ts) ++ rest) = textItems (t :: ts) ++ rest := by
  obtain ⟨more, he⟩ := textItems_head t ts
  rw [he, List.cons_append, skipSpace_of_not (by decide)]

/-- **The items of an array of texts read back.**  The reader takes one step of fuel for each. -/
theorem items?_texts (t : String) (ts : List String) (fuel : Nat) (h : ts.length + 2 ≤ fuel)
    (rest : List Char) :
    Tree.items? fuel (textItems (t :: ts) ++ ']' :: rest) =
      some ((t :: ts).map treeOf, rest) := by
  induction ts generalizing t fuel with
  | nil =>
    obtain ⟨fuel, rfl⟩ : ∃ n, fuel = n + 2 := ⟨fuel - 2, by simp at h; omega⟩
    rw [Tree.items?, textItems_one, value?_text]
    simp only [skipSpace_of_not (show Tree.isSpace ']' = false by decide), List.map_cons,
      List.map_nil]
  | cons u us ih =>
    rw [List.length_cons] at h
    obtain ⟨fuel, rfl⟩ : ∃ n, fuel = n + 2 := ⟨fuel - 2, by omega⟩
    have hu := ih u (fuel + 1) (by omega)
    rw [textItems_cons, List.append_assoc, List.cons_append, Tree.items?, value?_text]
    simp only [skipSpace_of_not (show Tree.isSpace ',' = false by decide), skipSpace_textItems, hu,
      Option.map_some]
    rfl

theorem length_le_textItems (ts : List String) : ts.length ≤ (textItems ts).length := by
  induction ts with
  | nil => exact Nat.zero_le _
  | cons s ts ih =>
    cases ts with
    | nil =>
      rw [textItems_one, chars_text, List.length_cons, List.length_cons]
      exact Nat.succ_le_succ (Nat.zero_le _)
    | cons t ts =>
      rw [textItems_cons, List.length_append]
      simp only [List.length_cons] at ih ⊢
      omega

theorem mapM_text? (ts : List String) : (ts.map treeOf).mapM Tree.text? = some ts := by
  induction ts with
  | nil => rfl
  | cons t ts ih =>
    rw [List.map_cons, List.mapM_cons, text?_treeOf, ih]
    rfl

/-- A JSON array of texts is read as the array of their trees. -/
theorem parse?_texts (ts : List String) :
    Tree.parse? ('[' :: (textItems ts ++ [']'])) = some (.array (ts.map treeOf)) := by
  have hlen := length_le_textItems ts
  unfold Tree.parse?
  rw [skipSpace_of_not (by decide), List.length_cons, List.length_append, List.length_singleton]
  cases ts with
  | nil => rfl
  | cons t ts =>
    obtain ⟨more, hhead⟩ := textItems_head t ts
    rw [List.length_cons] at hlen
    have hitems := items?_texts t ts (2 * ((textItems (t :: ts)).length + 1 + 1) + 1) (by omega) []
    have hvalue : Tree.value? (2 * ((textItems (t :: ts)).length + 1 + 1) + 2)
        ('[' :: (textItems (t :: ts) ++ [']'])) = some (.array ((t :: ts).map treeOf), []) := by
      rw [Tree.value?]
      simp only [skipSpace_textItems]
      split
      · rename_i after he
        rw [hhead] at he
        cases he
      · rw [hitems, Option.map_some]
    rw [hvalue]
    rfl

end MaterialInspection.Json

namespace MaterialInspection

/-- **The samples that are kept are the samples that are read**, whatever characters they hold. -/
theorem FindingRow.readValues_render (values : List String) :
    readValues (Json.Value.array (values.map .text)).render = values := by
  unfold readValues Json.Value.render
  rw [String.toList_ofList, Json.Value.chars]
  show ((Json.Tree.parse? ('[' :: (Json.textItems values ++ [']']))).bind
    (Json.Tree.list? Json.Tree.text?)).getD [] = values
  rw [Json.parse?_texts, Option.bind_some, Json.Tree.list?, Json.mapM_text?, Option.getD_some]

end MaterialInspection
