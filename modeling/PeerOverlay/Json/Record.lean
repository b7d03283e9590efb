import PeerOverlay.Json.Reader

/-!
# Records and variants in JSON

A record is an object with its field names in any order, unknown names being
passed over, or an array of all its fields in order.  A variant is an object
with the name of the case as its only field.
-/

namespace PeerOverlay.Json

def valuesOf (name : String) (fields : List (JsonString × Json)) : List Json :=
  fields.filterMap fun field => if field.1 = some name then some field.2 else none

/-- The value of a field that may be left out, but not written twice. -/
def field? (fields : List (JsonString × Json)) (name : String) : Option (Option Json) :=
  match valuesOf name fields with
  | [] => some none
  | [value] => some (some value)
  | _ => none

/-- The values of a record's fields in the order of the names, `none` for a
field that is left out. -/
def record? (names : List String) : Json → Option (List (Option Json))
  | .object fields =>
      if fields.all fun field => field.1.isSome then
        names.mapM (field? fields)
      else
        none
  | .array items =>
      if items.length = names.length then some (items.map some) else none
  | _ => none

/-- The name of a case and what it holds. -/
def variant? : Json → Option (String × Json)
  | .object [(some name, content)] => some (name, content)
  | _ => none

def ofRecord (fields : List (String × Json)) : Json :=
  .object (fields.map fun (name, value) => (some name, value))

def ofVariant (name : String) (content : Json) : Json :=
  .object [(some name, content)]

/-! ## Fields -/

def string? : Json → Option String
  | .string content => content
  | _ => none

def integer? : Json → Option Int
  | .integer value => some value
  | _ => none

/-- An integer from zero up to a bound, which is left out. -/
def natBelow? (bound : Nat) (value : Json) : Option Nat :=
  match value.integer? with
  | some (.ofNat value) => if value < bound then some value else none
  | _ => none

def uint8? (value : Json) : Option UInt8 :=
  (value.natBelow? UInt8.size).map UInt8.ofNat

def uint16? (value : Json) : Option UInt16 :=
  (value.natBelow? UInt16.size).map UInt16.ofNat

def uint32? (value : Json) : Option UInt32 :=
  (value.natBelow? UInt32.size).map UInt32.ofNat

def uint64? (value : Json) : Option UInt64 :=
  (value.natBelow? UInt64.size).map UInt64.ofNat

def int64? (value : Json) : Option Int64 :=
  match value.integer? with
  | some value =>
      if Int64.minValue.toInt ≤ value ∧ value ≤ Int64.maxValue.toInt then
        some (Int64.ofInt value)
      else
        none
  | none => none

def optional? {α : Type} (read? : Json → Option α) : Option Json → Option (Option α)
  | none => some none
  | some .null => some none
  | some value => (read? value).map some

def list? {α : Type} (read? : Json → Option α) : Json → Option (List α)
  | .array items => items.mapM read?
  | _ => none

/-- An optional value, `null` when it is missing. -/
def ofOption {α : Type} (write : α → Json) : Option α → Json
  | none => .null
  | some value => write value

end PeerOverlay.Json
