/-!
# JSON texts

`Tree.parse?` reads a JSON text strictly and keeps its parts as they are written: a numeral as its
digits, a string as its characters and escaped code units.  What a numeral or a string denotes,
and whether it denotes anything, is left to whoever needs the part, so a member that nobody asks
for may hold a numeral too large for a double or a lone surrogate.

Only the four blanks of JSON separate tokens, control characters in strings are refused, and a
second text after the first is an error.
-/

set_option autoImplicit false

namespace MaterialInspection.Json

/-- A numeral as it is written; an empty fraction means that no point is written. -/
structure NumeralText where
  negative : Bool
  whole : List Char
  fraction : List Char
  /-- The exponent's sign and digits. -/
  exponent : Option (Bool × List Char)
  deriving DecidableEq, Repr

/-- A part of a string as it is written. -/
inductive Piece
  | char (c : Char)
  /-- A 16-bit code unit in four hexadecimal digits. -/
  | unit (code : Nat)
  deriving DecidableEq, Repr

/-- A JSON text. -/
inductive Tree
  | null
  | bool (value : Bool)
  | numeral (text : NumeralText)
  | text (pieces : List Piece)
  | array (items : List Tree)
  | object (members : List (List Piece × Tree))
  deriving Repr

namespace Tree

/-- The blanks between tokens. -/
def isSpace (c : Char) : Bool := c == ' ' || c == '\t' || c == '\n' || c == '\r'

def skipSpace (cs : List Char) : List Char := cs.dropWhile isSpace

/-- The value of a hexadecimal digit. -/
def hexValue? (c : Char) : Option Nat :=
  if c.isDigit then some (c.toNat - 48)
  else if 'a' ≤ c && c ≤ 'f' then some (c.toNat - 87)
  else if 'A' ≤ c && c ≤ 'F' then some (c.toNat - 55)
  else none

/-- The code unit that four hexadecimal digits write. -/
def codeUnit? (a b c d : Char) : Option Nat := do
  let w ← hexValue? a
  let x ← hexValue? b
  let y ← hexValue? c
  let z ← hexValue? d
  return ((w * 16 + x) * 16 + y) * 16 + z

/-- What a letter after a backslash stands for. -/
def escaped? (c : Char) : Option Char :=
  if c = '"' then some '"'
  else if c = '\\' then some '\\'
  else if c = '/' then some '/'
  else if c = 'b' then some '\x08'
  else if c = 'f' then some '\x0c'
  else if c = 'n' then some '\n'
  else if c = 'r' then some '\r'
  else if c = 't' then some '\t'
  else none

/-- The pieces of a string up to its closing quote, and what follows the quote. -/
def stringBody? : List Char → Option (List Piece × List Char)
  | [] => none
  | '"' :: rest => some ([], rest)
  | '\\' :: 'u' :: a :: b :: c :: d :: rest =>
    match codeUnit? a b c d, stringBody? rest with
    | some code, some (pieces, after) => some (.unit code :: pieces, after)
    | _, _ => none
  | '\\' :: letter :: rest =>
    match escaped? letter, stringBody? rest with
    | some c, some (pieces, after) => some (.char c :: pieces, after)
    | _, _ => none
  | c :: rest =>
    if c = '\\' || c.toNat < 0x20 then none
    else
      match stringBody? rest with
      | some (pieces, after) => some (.char c :: pieces, after)
      | none => none

/-- The digits at the start of a text, at least one, and what follows them. -/
def digits? (cs : List Char) : Option (List Char × List Char) :=
  let digits := cs.takeWhile Char.isDigit
  if digits.isEmpty then none else some (digits, cs.dropWhile Char.isDigit)

/-- The digits before the point: a zero alone, or digits that do not start with zero. -/
def wholeDigits? : List Char → Option (List Char × List Char)
  | '0' :: rest => if (rest.head?.any Char.isDigit) then none else some (['0'], rest)
  | cs => digits? cs

/-- The digits of a fraction, if one is written. -/
def fraction? : List Char → Option (List Char × List Char)
  | '.' :: rest => digits? rest
  | cs => some ([], cs)

/-- The sign and digits of an exponent, if one is written. -/
def exponent? : List Char → Option (Option (Bool × List Char) × List Char)
  | c :: rest =>
    if c = 'e' || c = 'E' then
      let (negative, rest) :=
        match rest with
        | '-' :: tail => (true, tail)
        | '+' :: tail => (false, tail)
        | tail => (false, tail)
      match digits? rest with
      | some (digits, after) => some (some (negative, digits), after)
      | none => none
    else some (none, c :: rest)
  | [] => some (none, [])

/-- A numeral without its sign. -/
def magnitude? (negative : Bool) (cs : List Char) : Option (NumeralText × List Char) :=
  match wholeDigits? cs with
  | none => none
  | some (whole, rest) =>
    match fraction? rest with
    | none => none
    | some (fraction, rest) =>
      match exponent? rest with
      | none => none
      | some (exponent, rest) => some (⟨negative, whole, fraction, exponent⟩, rest)

/-- A numeral. -/
def numeral? : List Char → Option (NumeralText × List Char)
  | '-' :: rest => magnitude? true rest
  | cs => magnitude? false cs

/-- What follows a fixed word. -/
def word? (word cs : List Char) : Option (List Char) :=
  if word.isPrefixOf cs then some (cs.drop word.length) else none

mutual

/-- One JSON text at the start, without blanks before it, and what follows it. -/
def value? : Nat → List Char → Option (Tree × List Char)
  | 0, _ => none
  | fuel + 1, cs =>
    match cs with
    | '"' :: rest => (stringBody? rest).map fun (pieces, after) => (.text pieces, after)
    | '[' :: rest =>
      match skipSpace rest with
      | ']' :: after => some (.array [], after)
      | rest => (items? fuel rest).map fun (items, after) => (.array items, after)
    | '{' :: rest =>
      match skipSpace rest with
      | '}' :: after => some (.object [], after)
      | rest => (members? fuel rest).map fun (members, after) => (.object members, after)
    | 'n' :: rest => (word? ['u', 'l', 'l'] rest).map fun after => (.null, after)
    | 't' :: rest => (word? ['r', 'u', 'e'] rest).map fun after => (.bool true, after)
    | 'f' :: rest => (word? ['a', 'l', 's', 'e'] rest).map fun after => (.bool false, after)
    | cs => (numeral? cs).map fun (n, after) => (.numeral n, after)

/-- The items of an array from the first one to the closing bracket. -/
def items? : Nat → List Char → Option (List Tree × List Char)
  | 0, _ => none
  | fuel + 1, cs =>
    match value? fuel cs with
    | none => none
    | some (item, rest) =>
      match skipSpace rest with
      | ']' :: after => some ([item], after)
      | ',' :: rest =>
        (items? fuel (skipSpace rest)).map fun (items, after) => (item :: items, after)
      | _ => none

/-- The members of an object from the first one to the closing brace. -/
def members? : Nat → List Char → Option (List (List Piece × Tree) × List Char)
  | 0, _ => none
  | fuel + 1, cs =>
    match cs with
    | '"' :: rest =>
      match stringBody? rest with
      | none => none
      | some (key, rest) =>
        match skipSpace rest with
        | ':' :: rest =>
          match value? fuel (skipSpace rest) with
          | none => none
          | some (value, rest) =>
            match skipSpace rest with
            | '}' :: after => some ([(key, value)], after)
            | ',' :: rest =>
              (members? fuel (skipSpace rest)).map fun (members, after) =>
                ((key, value) :: members, after)
            | _ => none
        | _ => none
    | _ => none

end

/-- A whole JSON text.  Every two steps of the reader take at least one character. -/
def parse? (cs : List Char) : Option Tree :=
  match value? (2 * cs.length + 2) (skipSpace cs) with
  | some (tree, rest) => if (skipSpace rest).isEmpty then some tree else none
  | none => none

end Tree

end MaterialInspection.Json
