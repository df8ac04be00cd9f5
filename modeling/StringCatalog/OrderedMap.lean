/-! Finite maps that remember the order in which their keys came. -/

namespace StringCatalog

/-- Keys and their values, in the order in which the keys were first put. -/
abbrev OrderedMap (α β : Type) := List (α × β)

namespace OrderedMap

variable {α β : Type} [DecidableEq α]

/-- The value of the first pair with the key. -/
def get? : OrderedMap α β → α → Option β
  | [], _ => none
  | (k, v) :: rest, key => if k = key then some v else get? rest key

/-- Gives the key a value: in its old place if it is there, else in a new place at the end. -/
def put : OrderedMap α β → α → β → OrderedMap α β
  | [], key, value => [(key, value)]
  | (k, v) :: rest, key, value =>
    if k = key then (k, value) :: rest else (k, v) :: put rest key value

/-- The map of a list of pairs: of a repeated key, the first place and the last value count. -/
def ofPairs (pairs : List (α × β)) : OrderedMap α β :=
  pairs.foldl (fun map pair => map.put pair.1 pair.2) []

end OrderedMap

end StringCatalog
