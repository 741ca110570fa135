import DepBundle.Json.Basic
import DepBundle.Data.OrderedMap
/-!
# JSON — reading typed values

Readers that accept exactly one shape of value. A record is written as an
object whose keys are its fields, in any order but none twice, or as an
array of its fields in order.
-/

namespace DepBundle.Json

/-- A reader of values. -/
abbrev Reader (α : Type) := Json → Option α

/-- A string. -/
def readString : Reader String
  | string spelling => spelling
  | _ => none

/-- `true` or `false`. -/
def readBool : Reader Bool
  | bool b => some b
  | _ => none

/-- An array of values of one shape. -/
def readList {α : Type} (read : Reader α) : Reader (List α)
  | array items => items.mapM read
  | _ => none

/-- `null`, or a value. -/
def readOptional {α : Type} (read : Reader α) : Reader (Option α)
  | null => some none
  | v => (read v).map some

/-- An object as a map: the last value of a key counts, at the place of
its first. -/
def readMap {α : Type} (read : Reader α) : Reader (OrderedMap String α)
  | object members => do
    let entries ← members.mapM fun (k, v) => do return ((← k), (← read v))
    return OrderedMap.ofList entries
  | _ => none

/-- The values of a record's fields by position, absent ones `none`. With
`strict`, a key that is no field is refused. -/
def readFields (fields : List String) (strict : Bool) : Reader (List (Option Json))
  | object members => do
    let named ← members.mapM fun (k, v) => do return ((← k), v)
    guard (!strict || named.all (fields.contains ·.1))
    fields.mapM fun field =>
      match named.filter (·.1 == field) with
      | [] => some none
      | [(_, v)] => some (some v)
      | _ => none
  | array items => do
    guard (items.length ≤ fields.length)
    return items.map some ++ List.replicate (fields.length - items.length) none
  | _ => none

/-- Whether a value is written as an array. -/
def isArray : Json → Bool
  | array _ => true
  | _ => false

/-- A field read where it is present. -/
def field {α : Type} (read : Reader α) (absent : Option α) : Option Json → Option α
  | none => absent
  | some v => read v

end DepBundle.Json
