import MaterialInspection.Json.Value

/-!
# Records in JSON texts

A record is written as an object, or as an array of its fields in order.  In an object a field may
stand once, members that the record does not know are passed over, and a field that may be absent
may be left out or null.  In an array no field may be left out and none may follow the last.

`Record` holds the fields that were written, and its `required?`, `optional?` and `orElse?` read
one of them each.
-/

set_option autoImplicit false

namespace MaterialInspection.Json

/-- The fields of a record that were written. -/
structure Record (α : Type) where
  inOrder : Bool
  fields : List (String × α)

namespace Record

variable {α β : Type}

/-- A record written as an array. -/
def ofItems? (names : List String) (items : List α) : Option (Record α) :=
  if items.length ≤ names.length then some ⟨true, names.zip items⟩ else none

/-- A record written as an object. -/
def ofMembers? (names : List String) (members : List (String × α)) : Option (Record α) :=
  let known := members.filter fun m => names.contains m.1
  if names.all fun name => (known.filter fun m => m.1 == name).length ≤ 1 then some ⟨false, known⟩
  else none

/-- What was written for a field. -/
def field? (r : Record α) (name : String) : Option α :=
  (r.fields.find? fun m => m.1 == name).map (·.2)

/-- A field that must be written. -/
def required? (r : Record α) (name : String) (read? : α → Option β) : Option β :=
  match r.field? name with
  | some a => read? a
  | none => none

/-- A field with a value of its own when it is not written. -/
def orElse? (r : Record α) (name : String) (read? : α → Option β) (default : β) : Option β :=
  match r.field? name with
  | some a => read? a
  | none => some default

end Record

namespace Tree

variable {β : Type}

/-- The members of an object under the texts of their keys. -/
def keyed? : List (List Piece × Tree) → Option (List (String × Tree))
  | [] => some []
  | (key, member) :: rest =>
    match string? key, keyed? rest with
    | some k, some ms => some ((k, member) :: ms)
    | _, _ => none

/-- The record with these fields that a tree writes. -/
def record? (names : List String) : Tree → Option (Record Tree)
  | .array items => Record.ofItems? names items
  | .object members =>
    match keyed? members with
    | some ms => Record.ofMembers? names ms
    | none => none
  | _ => none

/-- The text of a string. -/
def text? : Tree → Option String
  | .text pieces => string? pieces
  | _ => none

/-- A truth value. -/
def bool? : Tree → Option Bool
  | .bool value => some value
  | _ => none

/-- A number as a double. -/
def double? : Tree → Option Binary64
  | .numeral n => (Number.ofText? n).map Number.toDouble
  | _ => none

/-- A whole number between two bounds, written without point and exponent. -/
def int? (low high : Int) : Tree → Option Int
  | .numeral n =>
    match Number.ofText? n with
    | some (.whole i) => if low ≤ i && i ≤ high then some i else none
    | _ => none
  | _ => none

/-- A signed 32-bit number. -/
def int32? : Tree → Option Int := int? minInt32 maxInt32

/-- A signed 64-bit number. -/
def int64? : Tree → Option Int := int? minInt64 maxInt64

/-- An unsigned 64-bit number. -/
def size? (t : Tree) : Option Nat := (int? 0 (wordCount - 1) t).map Int.toNat

/-- The items of an array, each read in the same way. -/
def list? (read? : Tree → Option β) : Tree → Option (List β)
  | .array items => items.mapM read?
  | _ => none

/-- A word of a fixed set, written as a string or as the key of a lone null. -/
def tag? : Tree → Option String
  | .text pieces => string? pieces
  | .object [(key, .null)] => string? key
  | _ => none

end Tree

/-- A field that may be absent: null, or left out of an object. -/
def Record.optional? {β : Type} (r : Record Tree) (name : String) (read? : Tree → Option β) :
    Option (Option β) :=
  match r.field? name with
  | some .null => some none
  | some t => (read? t).map some
  | none => if r.inOrder then none else some none

end MaterialInspection.Json
