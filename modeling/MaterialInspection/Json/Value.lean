import MaterialInspection.Json.Tree
import MaterialInspection.Number.Shortest
import MaterialInspection.Number.Width

/-!
# JSON values

What a JSON text denotes when nothing is left out: every numeral is a whole number of 64 bits or a
double, every string is a text, and arrays and objects nest at most 127 deep.

A numeral without point and exponent is whole when it fits 64 bits, except that a minus before zero
makes the negative zero.  Every other numeral is read in two rounded steps: as many digits as fit
64 bits make a double, and one multiplication or division by a power of ten scales it.  A numeral
beyond the largest double denotes nothing.
-/

set_option autoImplicit false

namespace MaterialInspection.Json

/-! ## Numerals -/

/-- A number in a JSON text. -/
inductive Number
  | whole (n : Int)
  | double (x : Binary64)
  deriving DecidableEq

namespace Number

/-- A number as a double. -/
def toDouble : Number → Binary64
  | .whole n => .ofInt n
  | .double x => x

/-- A number as JSON writes it. -/
def text : Number → String
  | .whole n => toString n
  | .double x => x.jsonText

/-- Digits taken while the number they extend fits 64 bits, and the digits left over. -/
def absorb (significand : Nat) : List Char → Nat × List Char
  | [] => (significand, [])
  | c :: rest =>
    let next := significand * 10 + (c.toNat - 48)
    if next < wordCount then absorb next rest else (significand, c :: rest)

/-- A power of ten as a double. -/
def powerOfTen (n : Nat) : Binary64 := .ofDecimal false 1 n

/-- A double divided by `10 ^ exponent`, in steps of `1e308` where one division cannot reach; more
steps than three leave nothing of a 64-bit number. -/
def scaleDown : Nat → Binary64 → Nat → Binary64
  | 0, x, _ => x * 0
  | steps + 1, x, exponent =>
    if exponent ≤ 308 then x / powerOfTen exponent
    else if x.same 0 then x
    else scaleDown steps (x / powerOfTen 308) (exponent - 308)

/-- A double times `10 ^ exponent`, unless that is beyond the largest double. -/
def scale? (x : Binary64) : Int → Option Binary64
  | .ofNat e =>
    if e ≤ 308 then some (x * powerOfTen e) |>.filter Binary64.isFinite
    else if x.same 0 then some x
    else none
  | .negSucc e => some (scaleDown 4 x (e + 1))

/-- A double with a sign. -/
def withSign (negative : Bool) (x : Binary64) : Binary64 := if negative then -x else x

/-- The double that a numeral's digits and exponent denote. -/
def double? (n : NumeralText) : Option Binary64 :=
  let (significand, extra) := absorb 0 n.whole
  let (significand, ignored) := absorb significand n.fraction
  let point : Int := (extra.length : Int) + (ignored.length : Int) - (n.fraction.length : Int)
  let scaled? (exponent : Int) : Option Binary64 :=
    (scale? (.ofInt significand) exponent).map (withSign n.negative)
  match n.exponent with
  | none => scaled? point
  | some (negative, digits) =>
    let size := Nat.ofDigitChars 10 digits 0
    if (size : Int) ≤ maxInt32 then scaled? (if negative then point - size else point + size)
    else if significand != 0 && !negative then none
    else some (Binary64.zero n.negative)

/-- The number that a numeral denotes. -/
def ofText? (n : NumeralText) : Option Number :=
  if n.fraction.isEmpty && n.exponent.isNone then
    let size := Nat.ofDigitChars 10 n.whole 0
    if !n.negative && size < wordCount then some (.whole size)
    else if n.negative && minInt64 ≤ -(size : Int) && size != 0 then some (.whole (-(size : Int)))
    else (double? n).map .double
  else (double? n).map .double

end Number

/-! ## Strings -/

/-- The text of a string's pieces; a surrogate without its partner denotes nothing. -/
def chars? : List Piece → Option (List Char)
  | [] => some []
  | .char c :: rest => (chars? rest).map (c :: ·)
  | .unit code :: rest =>
    if 0xD800 ≤ code && code < 0xDC00 then
      match rest with
      | .unit low :: rest =>
        if 0xDC00 ≤ low && low < 0xE000 then
          (chars? rest).map (Char.ofNat (0x10000 + (code - 0xD800) * 0x400 + (low - 0xDC00)) :: ·)
        else none
      | _ => none
    else if 0xDC00 ≤ code && code < 0xE000 then none
    else (chars? rest).map (Char.ofNat code :: ·)

/-- The text of a string. -/
def string? (pieces : List Piece) : Option String := (chars? pieces).map String.ofList

/-! ## Values -/

/-- A JSON value. -/
inductive Value
  | null
  | bool (value : Bool)
  | number (n : Number)
  | text (s : String)
  | array (items : List Value)
  | object (members : List (String × Value))

/-- How deep arrays and objects may nest. -/
def maxDepth : Nat := 127

mutual

/-- What a tree denotes with at most `depth` arrays and objects inside one another. -/
def Tree.denote? (depth : Nat) : Tree → Option Value
  | .null => some .null
  | .bool value => some (.bool value)
  | .numeral n => (Number.ofText? n).map .number
  | .text pieces => (string? pieces).map .text
  | .array items => if depth = 0 then none else (denoteItems? (depth - 1) items).map .array
  | .object members => if depth = 0 then none else (denoteMembers? (depth - 1) members).map .object

/-- What the items of an array denote. -/
def denoteItems? (depth : Nat) : List Tree → Option (List Value)
  | [] => some []
  | item :: rest =>
    match item.denote? depth, denoteItems? depth rest with
    | some v, some vs => some (v :: vs)
    | _, _ => none

/-- What the members of an object denote. -/
def denoteMembers? (depth : Nat) : List (List Piece × Tree) → Option (List (String × Value))
  | [] => some []
  | (key, member) :: rest =>
    match string? key, member.denote? depth, denoteMembers? depth rest with
    | some k, some v, some vs => some ((k, v) :: vs)
    | _, _, _ => none

end

namespace Value

/-- The value of a whole JSON text. -/
def parse? (s : String) : Option Value :=
  match Tree.parse? s.toList with
  | some tree => tree.denote? maxDepth
  | none => none

/-- The last member of an object under a key. -/
def member? (key : String) : Value → Option Value
  | .object members => (members.reverse.find? fun m => m.1 == key).map (·.2)
  | _ => none

/-- Whether a value is an object. -/
def isObject : Value → Bool
  | .object _ => true
  | _ => false

end Value

/-! ## Writing -/

/-- A hexadecimal digit. -/
def hexDigit (n : Nat) : Char := if n < 10 then Char.ofNat (48 + n) else Char.ofNat (87 + n)

/-- A character inside a string. -/
def escapeChar (c : Char) : List Char :=
  if c = '"' then ['\\', '"']
  else if c = '\\' then ['\\', '\\']
  else if c = '\x08' then ['\\', 'b']
  else if c = '\x0c' then ['\\', 'f']
  else if c = '\n' then ['\\', 'n']
  else if c = '\r' then ['\\', 'r']
  else if c = '\t' then ['\\', 't']
  else if c.toNat < 0x20 then
    ['\\', 'u', '0', '0', hexDigit (c.toNat / 16), hexDigit (c.toNat % 16)]
  else [c]

/-- A string in quotes. -/
def quoted (s : String) : List Char := '"' :: (s.toList.flatMap escapeChar ++ ['"'])

mutual

/-- A value without blanks. -/
def Value.chars : Value → List Char
  | .null => ['n', 'u', 'l', 'l']
  | .bool true => ['t', 'r', 'u', 'e']
  | .bool false => ['f', 'a', 'l', 's', 'e']
  | .number n => n.text.toList
  | .text s => quoted s
  | .array items => '[' :: (itemChars items ++ [']'])
  | .object members => '{' :: (memberChars members ++ ['}'])

/-- Items with commas between them. -/
def itemChars : List Value → List Char
  | [] => []
  | [item] => item.chars
  | item :: next :: rest => item.chars ++ ',' :: itemChars (next :: rest)

/-- Members with commas between them. -/
def memberChars : List (String × Value) → List Char
  | [] => []
  | [(key, value)] => quoted key ++ ':' :: value.chars
  | (key, value) :: next :: rest =>
    quoted key ++ ':' :: (value.chars ++ ',' :: memberChars (next :: rest))

end

/-- The JSON text of a value. -/
def Value.render (v : Value) : String := String.ofList v.chars

end MaterialInspection.Json
