/-!
# Text patterns

Stored texts are searched by patterns: a percent sign stands for any run of characters, an underscore
for any one character, and every other character for itself, ASCII letters in either case.  The two
codes at the end of the basic plane, which are no characters, count as replacement characters.  A text
counts up to its first NUL, both in a pattern match and for its length.

`matchChars` says what has the form of a pattern; `fits` works it out for a text and all its endings at
once, which takes one pass over the text for each character of the pattern.

Principal statements: `fits_eq_map` (the pass agrees with `matchChars`), `matchesStart_eq` and
`matchesStart_nil`, every text starts with nothing.
-/

set_option autoImplicit false

namespace MaterialInspection.Pattern

/-- The part of a text that counts. -/
def counted (cs : List Char) : List Char := cs.takeWhile fun c => c != '\x00'

/-- A character as a pattern tells it from others. -/
def seen (c : Char) : Char := if c = '\uFFFE' || c = '\uFFFF' then '\uFFFD' else c

/-- Whether a character other than a percent sign in a pattern stands for a character. -/
def standsFor (p c : Char) : Bool := p == '_' || (seen p).toLower == (seen c).toLower

/-- Whether a property holds of some end of a text. -/
def anySuffix (p : List Char → Bool) : List Char → Bool
  | [] => p []
  | c :: rest => p (c :: rest) || anySuffix p rest

/-- Whether a text has the form of a pattern. -/
def matchChars : List Char → List Char → Bool
  | [], cs => cs.isEmpty
  | p :: pattern, cs =>
    if p = '%' then anySuffix (matchChars pattern) cs
    else
      match cs with
      | [] => false
      | c :: rest => standsFor p c && matchChars pattern rest

/-- A text and its endings, the longest first. -/
def endings : List Char → List (List Char)
  | [] => [[]]
  | c :: rest => (c :: rest) :: endings rest

/-- For every place, whether one of the answers from there on is yes. -/
def anyLater : List Bool → List Bool
  | [] => []
  | b :: rest =>
    let later := anyLater rest
    (b || later.headD false) :: later

/-- For a text and its endings, the longest first, whether they have the form of a pattern. -/
def fits : List Char → List Char → List Bool
  | [], cs => cs.foldr (fun _ answers => false :: answers) [true]
  | p :: pattern, cs =>
    let answers := fits pattern cs
    if p = '%' then anyLater answers
    else List.zipWith (fun c answer => standsFor p c && answer) cs answers.tail ++ [false]

/-- Whether a text starts with the form of a pattern. -/
def matchesStart (pattern text : String) : Bool :=
  (fits (counted (pattern.toList ++ ['%'])) (counted text.toList)).headD false

/-- Whether a pattern is short enough to be searched for: below fifty thousand bytes. -/
def isShort (pattern : String) : Bool := pattern.utf8ByteSize < 50000

/-- The number of characters of a text that count. -/
def length (text : String) : Nat := (counted text.toList).length

theorem map_endings_headD (p : List Char → Bool) (cs : List Char) :
    ((endings cs).map p).headD false = p cs := by
  cases cs <;> rfl

theorem anyLater_map_endings (p : List Char → Bool) (cs : List Char) :
    anyLater ((endings cs).map p) = (endings cs).map (anySuffix p) := by
  induction cs with
  | nil => simp [endings, anyLater, anySuffix]
  | cons c rest ih =>
    simp only [endings, List.map_cons, anyLater, ih, map_endings_headD, anySuffix]

theorem zipWith_endings (p : Char) (pattern : List Char) (hp : p ≠ '%') (cs : List Char) :
    List.zipWith (fun c answer => standsFor p c && answer) cs
        ((endings cs).map (matchChars pattern)).tail ++ [false] =
      (endings cs).map (matchChars (p :: pattern)) := by
  induction cs with
  | nil => simp [endings, matchChars, hp]
  | cons c rest ih =>
    cases rest with
    | nil => simp [endings, matchChars, hp]
    | cons d more =>
      simp only [endings, List.map_cons, List.tail_cons, List.zipWith_cons_cons,
        List.cons_append] at ih ⊢
      rw [ih]
      simp [matchChars, hp]

/-- The pass over a text answers for it and each of its endings. -/
theorem fits_eq_map (pattern cs : List Char) :
    fits pattern cs = (endings cs).map (matchChars pattern) := by
  induction pattern with
  | nil =>
    induction cs with
    | nil => rfl
    | cons c rest ih =>
      simp only [fits, List.foldr_cons, endings, List.map_cons] at ih ⊢
      rw [ih]
      rfl
  | cons p pattern ih =>
    unfold fits
    rw [ih]
    by_cases hp : p = '%'
    · have hf : matchChars (p :: pattern) = anySuffix (matchChars pattern) := by
        funext l
        simp [matchChars, hp]
      simp only [hp, if_true, anyLater_map_endings]
      rw [← hf, hp]
    · simp only [hp, if_false, zipWith_endings p pattern hp]

/-- A text starts with the form of a pattern if it has the form of the pattern with any run after it. -/
theorem matchesStart_eq (pattern text : String) :
    matchesStart pattern text =
      matchChars (counted (pattern.toList ++ ['%'])) (counted text.toList) := by
  rw [matchesStart, fits_eq_map, map_endings_headD]

/-- Some end of every text is empty. -/
theorem anySuffix_matchChars_nil (cs : List Char) : anySuffix (matchChars []) cs = true := by
  induction cs with
  | nil => rfl
  | cons c rest ih => simp [anySuffix, ih]

/-- Every text starts with nothing. -/
theorem matchesStart_nil (text : String) : matchesStart "" text = true := by
  simp only [matchesStart_eq, String.toList_empty, List.nil_append, counted, List.takeWhile_cons]
  exact anySuffix_matchChars_nil _

end MaterialInspection.Pattern
