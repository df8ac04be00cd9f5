import StringCatalog.OrderedMap
import StringCatalog.Value

/-! JSON values. The members of an object keep their order and have distinct names. -/

namespace StringCatalog

/-- A JSON value; numbers with a fraction or an exponent are floating-point numbers. -/
inductive Json where
  | null
  | bool (b : Bool)
  | int (i : Int)
  | float (x : Binary64)
  | text (t : Text)
  | list (items : List Json)
  | object (members : List (Text × Json))

namespace Json

mutual

/-- The JSON value as a decoded value, with texts as keys. -/
def toValue : Json → Value
  | null => .null
  | bool b => .bool b
  | int i => .int i
  | float x => .float x
  | text t => .text t
  | list items => .list (toValues items)
  | object members => .mapping (toMembers members)
termination_by structural j => j

/-- The items of a list as decoded values. -/
def toValues : List Json → List Value
  | [] => []
  | j :: rest => j.toValue :: toValues rest
termination_by structural js => js

/-- The members of an object as members of a mapping. -/
def toMembers : List (Text × Json) → List (Value × Value)
  | [] => []
  | (name, j) :: rest => (.text name, j.toValue) :: toMembers rest
termination_by structural ms => ms

end

/-- The text of a value where a text is wanted. -/
def display (j : Json) : Text := j.toValue.display

/-- Null, false, zero, and what is empty. -/
def isFalsy (j : Json) : Bool := j.toValue.isFalsy

/-- The word for the kind of a value. -/
def kindWord : Json → Text
  | null => "NoneType"
  | bool _ => "bool"
  | int _ => "int"
  | float _ => "float"
  | text _ => "str"
  | list _ => "list"
  | object _ => "dict"

end Json

end StringCatalog
