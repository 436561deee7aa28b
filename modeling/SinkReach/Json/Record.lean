/-
# Records, choices and words in JSON

How the documents of this library read a JSON value.

* A RECORD is an object with known fields, each written at most once; fields it does not know are
  passed over.  It may also be written as the list of its fields in their order, without the
  trailing ones that have a default.
* A CHOICE is an object with one field, whose name says which alternative it is; an alternative
  that carries nothing is a bare name, or a field with `null`.
* A WORD is an integer of 32 or 64 bits.
-/
import SinkReach.Json.Basic

namespace SinkReach.Json

/-- The value of a field that may stand once at most: `none` if it is repeated, `some none` if it
is absent. -/
def field? (name : String) (fields : List (String × Json)) : Option (Option Json) :=
  match fields.filter (fun f => f.1 = name) with
  | [] => some none
  | [(_, v)] => some (some v)
  | _ => none

/-- The fields of a record, in the order of their names. -/
def record? (names : List String) : Json → Option (List (Option Json))
  | .obj fields => names.mapM fun name => field? name fields
  | .arr items =>
    if items.length ≤ names.length then
      some (items.map some ++ List.replicate (names.length - items.length) none)
    else none
  | _ => none

/-- The alternative of a choice and what it carries; a bare name carries nothing. -/
def choice? : Json → Option (String × Option Json)
  | .str name => some (name, none)
  | .obj [(name, v)] => some (name, some v)
  | _ => none

/-- The alternative of a choice whose alternatives carry nothing. -/
def name? (j : Json) : Option String :=
  match j.choice? with
  | some (name, none) | some (name, some .null) => some name
  | _ => none

/-- A string. -/
def str? : Json → Option String
  | .str s => some s
  | _ => none

/-- A truth value. -/
def bool? : Json → Option Bool
  | .bool b => some b
  | _ => none

/-- The items of a list. -/
def arr? : Json → Option (List Json)
  | .arr items => some items
  | _ => none

/-- A signed word of 64 bits. -/
def int64? : Json → Option Int64
  | .int n => if -0x8000000000000000 ≤ n ∧ n < 0x8000000000000000 then some (.ofInt n) else none
  | _ => none

/-- An unsigned word of 64 bits. -/
def uint64? : Json → Option UInt64
  | .int n => if 0 ≤ n ∧ n < 0x10000000000000000 then some (.ofNat n.toNat) else none
  | _ => none

/-- An unsigned word of 32 bits. -/
def uint32? : Json → Option UInt32
  | .int n => if 0 ≤ n ∧ n < 0x100000000 then some (.ofNat n.toNat) else none
  | _ => none

/-- A count that a 64-bit word can hold. -/
def count? (j : Json) : Option Nat := j.uint64?.map UInt64.toNat

/-- A word as JSON. -/
def ofUInt64 (n : UInt64) : Json := .int n.toNat

/-- A word as JSON. -/
def ofUInt32 (n : UInt32) : Json := .int n.toNat

end SinkReach.Json
