import StringCatalog.Yaml.Node
import StringCatalog.Yaml.Scalar

/-! Values of YAML documents. Collections are read level by level: first the scalars of the
outermost one, then those of the collections in it, and so on. So of several faults the one that is
least deep is found. -/

namespace StringCatalog.Yaml

/-! ### Keys -/

/-- Two scalars are one key: numbers are compared by their value, whatever their kind, and truth
values count as one and zero. -/
def sameKey (a b : Value) : Bool :=
  match number? a, number? b with
  | some m, some n => m == n
  | none, none => match a, b with
    | .null, .null => true
    | .text s, .text t => s == t
    | .date d, .date e => d == e
    | .dateTime t, .dateTime u => sameTime t u
    | .float x, .float y => x == y
    | _, _ => false
  | _, _ => false
where
  /-- The integer that a scalar counts as. -/
  number? : Value → Option Int
    | .bool b => some (if b then 1 else 0)
    | .int i => some i
    | .float x => x.toInt?
    | _ => none

/-- Gives a key a value: in its old place if it is there, else at the end. -/
def putMember (key value : Value) : List (Value × Value) → List (Value × Value)
  | [] => [(key, value)]
  | (k, v) :: rest =>
    if sameKey k key then (k, value) :: rest else (k, v) :: putMember key value rest

/-- The mapping of members, of which later ones count more. -/
def mappingOf (members : List (Value × Value)) : Value :=
  .mapping (members.foldl (fun ms m => putMember m.1 m.2 ms) [])

/-! ### Merge keys -/

/-- The key brings the members of its value into the mapping around it. -/
def isMergeKey : Node → Bool
  | .scalar s true => s == "<<"
  | _ => false

mutual

/-- The members of a mapping: first those that merge keys bring in, then its own. -/
def mergedMembers :
    List (Node × Node) → Except ReadError (List (Node × Node) × List (Node × Node))
  | [] => .ok ([], [])
  | (key, value) :: rest =>
    if isMergeKey key then do
      let here ← broughtIn value
      let (merged, own) ← mergedMembers rest
      .ok (here ++ merged, own)
    else do
      let (merged, own) ← mergedMembers rest
      .ok (merged, (key, value) :: own)
termination_by structural members => members

/-- The members that the value of a merge key brings in: those of a mapping, or of several of which
the first count more. -/
def broughtIn : Node → Except ReadError (List (Node × Node))
  | .mapping members => do
    let (merged, own) ← mergedMembers members
    .ok (merged ++ own)
  | .sequence items => broughtInByAll items
  | .scalar _ _ => .error .malformed
termination_by structural node => node

/-- The members that several mappings bring in, those of the last one first. -/
def broughtInByAll : List Node → Except ReadError (List (Node × Node))
  | [] => .ok []
  | .mapping members :: rest => do
    let (merged, own) ← mergedMembers members
    let others ← broughtInByAll rest
    .ok (others ++ merged ++ own)
  | _ :: _ => .error .malformed
termination_by structural items => items

end

/-! ### Levels -/

/-- A place in a collection: a value, or a collection that is read with the next level. -/
inductive Place where
  | value (v : Value)
  | deeper (n : Node)

/-- A node of which its own level has been read. -/
inductive Outline where
  | value (v : Value)
  | sequence (places : List Place)
  | mapping (members : List (Value × Place))

/-- The value of a scalar. -/
def scalarValue (text : Text) (plain : Bool) : Except ReadError Value :=
  if plain then plainValue text else .ok (.text text)

/-- The place of a node in a collection. -/
def Place.ofNode : Node → Except ReadError Place
  | .scalar text plain => (scalarValue text plain).map value
  | n => .ok (deeper n)

/-- The value of a key, which is a scalar. The sign of equality is a text as a key. -/
def keyValue : Node → Except ReadError Value
  | .scalar [.char '='] _ => .ok (.text "=")
  | .scalar text plain => scalarValue text plain
  | _ => .error .malformed

namespace Outline

/-- Reads the own level of a node. -/
def ofNode : Node → Except ReadError Outline
  | .scalar text plain => (scalarValue text plain).map value
  | .sequence items => (items.mapM Place.ofNode).map sequence
  | .mapping members => do
    let (merged, own) ← mergedMembers members
    let read ← (merged ++ own).mapM fun m => do
      let key ← keyValue m.1
      let place ← Place.ofNode m.2
      .ok (key, place)
    .ok (mapping read)

/-- The places of a node. -/
def places : Outline → List Place
  | value _ => []
  | sequence ps => ps
  | mapping ms => ms.map (·.2)

/-- The collections that are read with the next level. -/
def pending (o : Outline) : List Node :=
  o.places.filterMap fun
    | .deeper n => some n
    | .value _ => none

end Outline

/-- Puts the values of the next level, of which the first is due, into a place. -/
def Place.fill : Place → StateM (List Value) Value
  | value v => return v
  | deeper _ => modifyGet fun due => (due.headD .null, due.tail)

/-- Puts the values of the next level into the places of a node. -/
def Outline.fill : Outline → StateM (List Value) Value
  | value v => return v
  | sequence ps => do
    let items ← ps.mapM Place.fill
    return .list items
  | mapping ms => do
    let members ← ms.mapM fun m => do
      let v ← m.2.fill
      return (m.1, v)
    return mappingOf members

/-- The values of the nodes of a level, by way of the levels below it; the first argument bounds
their number. -/
def levelValues : Nat → List Node → Except ReadError (List Value)
  | _, [] => .ok []
  | 0, _ => .error .tooDeep
  | depth + 1, nodes => do
    let outlines ← nodes.mapM Outline.ofNode
    let due ← levelValues depth (outlines.flatMap Outline.pending)
    .ok ((outlines.mapM Outline.fill).run' due)

/-- The value of the only document of a text; null if there is none. -/
def ofText (text : Text) : Except ReadError Value := do
  match ← Node.ofTokens? (Token.scan text) with
  | none => .ok .null
  | some node =>
    let values ← levelValues (Node.deepest + 1) [node]
    .ok (values.headD .null)

/-- The fault that callers see. -/
def ReadError.fault : ReadError → DocumentFault
  | .malformed => .malformed "not a document"
  | .noValue => .unforeseen "ValueError"
  | .outOfRange => .unforeseen "OverflowError"
  | .tooDeep => .unforeseen "RecursionError"

/-- Reads a document without anchors, aliases, tags and block scalars. -/
def readDocument (text : Text) : Except DocumentFault Value :=
  (ofText text).mapError ReadError.fault

end StringCatalog.Yaml
