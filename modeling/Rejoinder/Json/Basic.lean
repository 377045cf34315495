import Rejoinder.Json.Double

/-!
# JSON values

The values of variables and the content of script files. A number that fits a 64-bit integer is
kept as an integer, any other with double precision.

A file may repeat a key. `Json` keeps the fields as they stand, so that a reader of one shape can
refuse a repetition, and `Json.canonical` is the value meant where repetitions are allowed: the
last one counts, and the keys stand in ascending order.
-/

set_option autoImplicit false

namespace Rejoinder

/-- A JSON value. -/
inductive Json
  | null
  | bool (value : Bool)
  | integer (value : Int)
  | decimal (value : Double)
  | string (value : String)
  | array (items : List Json)
  | object (fields : List (String × Json))
deriving Inhabited, BEq, Repr

namespace Json

/-- The text of a string value. -/
def text? : Json → Option String
  | .string s => some s
  | _ => none

/-- The value of a natural number of 64 bits. -/
def natural? : Json → Option Nat
  | .integer n => if 0 ≤ n ∧ n < 0x10000000000000000 then some n.toNat else none
  | _ => none

/-- Fields in ascending order of their keys with one more field put in; a field of the same key
gives way. -/
def putField (key : String) (value : Json) : List (String × Json) → List (String × Json)
  | [] => [(key, value)]
  | (k, v) :: rest =>
    if key < k then (key, value) :: (k, v) :: rest
    else if key = k then (key, value) :: rest
    else (k, v) :: putField key value rest

/-- The object with these fields, the last of a repeated key counting. -/
def ofFields (fields : List (String × Json)) : Json :=
  .object (fields.foldl (fun sorted field => putField field.1 field.2 sorted) [])

mutual

/-- The value with the keys of every object in ascending order, each once. -/
def canonical : Json → Json
  | .array items => .array (canonicalItems items)
  | .object fields => ofFields (canonicalFields fields)
  | value => value
termination_by structural value => value

/-- The canonical forms of the items of an array. -/
def canonicalItems : List Json → List Json
  | [] => []
  | item :: items => canonical item :: canonicalItems items
termination_by structural items => items

/-- The fields of an object with canonical values, in the order given. -/
def canonicalFields : List (String × Json) → List (String × Json)
  | [] => []
  | (key, value) :: rest => (key, canonical value) :: canonicalFields rest
termination_by structural fields => fields

end

end Json

end Rejoinder
