/-
# JSON documents

The value of a JSON text.  Objects keep their fields as they are written, repetitions included:
what a repeated field means is for the reader of the object to say.

Integers are exact.  Every other number is kept as it is written, since nothing in the documents
of this library is a fraction.  `unreadable` stands for a value that is written correctly and yet
cannot be held: a string with half of a surrogate pair, a number beyond the doubles, or a
collection nested beyond the allowed depth.  A reader that has no use for such a value passes
over it, and one that needs it refuses.
-/

namespace SinkReach

/-- A JSON value. -/
inductive Json where
  | null
  | bool (b : Bool)
  | int (n : Int)
  /-- A number with a fraction or an exponent, or a negative zero. -/
  | real (lexeme : String)
  | str (s : String)
  | arr (items : List Json)
  | obj (fields : List (String × Json))
  /-- A value that is written correctly and cannot be held. -/
  | unreadable

namespace Json

mutual

/-- Whether every part of a value can be held. -/
def isReadable : Json → Bool
  | .arr items => itemsReadable items
  | .obj fields => fieldsReadable fields
  | .unreadable => false
  | _ => true

/-- Whether every item can be held. -/
def itemsReadable : List Json → Bool
  | [] => true
  | j :: js => j.isReadable && itemsReadable js

/-- Whether the value of every field can be held. -/
def fieldsReadable : List (String × Json) → Bool
  | [] => true
  | (_, j) :: fs => j.isReadable && fieldsReadable fs

end

mutual

/-- The number of brackets open at once where the value nests deepest. -/
def depth : Json → Nat
  | .arr items => itemsDepth items + 1
  | .obj fields => fieldsDepth fields + 1
  | _ => 0

/-- The greatest depth among items. -/
def itemsDepth : List Json → Nat
  | [] => 0
  | j :: js => max j.depth (itemsDepth js)

/-- The greatest depth among the values of fields. -/
def fieldsDepth : List (String × Json) → Nat
  | [] => 0
  | (_, j) :: fs => max j.depth (fieldsDepth fs)

end

mutual

/-- The value in which of fields with one name only the last is left, at every depth. -/
def lastFields : Json → Json
  | .arr items => .arr (lastFieldsItems items)
  | .obj fields => .obj (lastFieldsOf fields)
  | j => j

/-- The items, each with its last fields. -/
def lastFieldsItems : List Json → List Json
  | [] => []
  | j :: js => j.lastFields :: lastFieldsItems js

/-- The fields that are the last of their name, each with the last fields of its value. -/
def lastFieldsOf : List (String × Json) → List (String × Json)
  | [] => []
  | (name, j) :: fs =>
    if fs.any (·.1 = name) then lastFieldsOf fs else (name, j.lastFields) :: lastFieldsOf fs

end

end Json

end SinkReach
