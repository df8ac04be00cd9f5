import StringCatalog.Format.Kind
import StringCatalog.Text.Quoted

/-! The reasons for which a resource, or a whole run, cannot be generated. -/

namespace StringCatalog

/-- Why a resource or a set of resources cannot be generated. -/
inductive GenerationError where
  /-- An argument of the key is used with several kinds. -/
  | typeConflict (key : Text) (position : Int) (kinds : List ArgumentKind)
  /-- A text addresses one argument both by its place and by its number. -/
  | positionCollision (key : Text) (position : Int) (kinds : List ArgumentKind) (text : Text)
  /-- The positions in use leave others out below the greatest. -/
  | gap (key : Text) (positions missing : List Int)
  /-- Members of one namespace have one name. -/
  | namespaceCollision (path names : List Text)
  /-- The text of a substitution holds the marker of another one. -/
  | substitutionOverlap (key token : Text)
  /-- Keys occur more than once. -/
  | duplicateKeys (duplicates sources : List Text)
  /-- A key cannot be split into names. -/
  | invalidKey (key reason : Text)
  deriving DecidableEq

namespace GenerationError

/-- The integers from one up to a bound. -/
def oneTo (bound : Int) : List Int := (List.range bound.toNat).map fun (i : Nat) => (i : Int) + 1

/-- The conflict of a list of kinds, each counted once and in the order of names. -/
def conflictOf (key : Text) (position : Int) (kinds : List ArgumentKind) : GenerationError :=
  typeConflict key position (ArgumentKind.distinct kinds)

/-- The collision of a list of kinds, each counted once and in the order of names. -/
def collisionOf (key : Text) (position : Int) (kinds : List ArgumentKind) (text : Text) :
    GenerationError :=
  positionCollision key position (ArgumentKind.distinct kinds) text

/-- The gap of a list of positions: what is missing are the integers from one up to the greatest
position that the list does not hold. -/
def gapOf (key : Text) (positions : List Int) : GenerationError :=
  let sorted := positions.mergeSort fun a b => decide (a ≤ b)
  gap key sorted ((oneTo (sorted.getLastD 0)).filter (!sorted.contains ·))

/-- The integers of a list, in brackets. -/
def intList (items : List Int) : Text := Text.bracketed (items.map Text.ofInt)

/-- The place of a namespace in messages. -/
def placeOf (path : List Text) : Text :=
  match Text.join "." path with
  | [] => "<root>"
  | place => place

/-- The sources of duplicate keys in parentheses, if they are known. -/
def sourceNote : List Text → Text
  | [] => []
  | sources => " (" ++ Text.join ", " sources ++ ")"

/-- The sentence that tells of an error. -/
def message : GenerationError → Text
  | typeConflict key position kinds =>
    "'" ++ key ++ "': argument " ++ Text.ofInt position ++ " is used with conflicting types (" ++
      Text.join ", " (kinds.map ArgumentKind.name) ++ ")"
  | positionCollision key position _ text =>
    "'" ++ key ++ "': argument " ++ Text.ofInt position ++
      " is addressed both implicitly and explicitly in " ++ text.quoted
  | gap key positions missing =>
    "'" ++ key ++ "': argument positions " ++ intList positions ++
      " are not contiguous (missing " ++ intList missing ++ ")"
  | namespaceCollision path names =>
    placeOf path ++ ": generated names collide: " ++ Text.quotedList names
  | substitutionOverlap key token =>
    "substitution '" ++ key ++ "' expands to text containing another substitution marker " ++
      token.quoted
  | duplicateKeys duplicates sources =>
    "duplicate keys" ++ sourceNote sources ++ ": " ++ Text.quotedList duplicates
  | invalidKey key reason => "invalid key " ++ key.quoted ++ ": " ++ reason

end GenerationError

/-- Why a step of a generation ends without a result: a generation error, a position whose numeral
is too long to have a value, or a key in too many namespaces. -/
inductive GenerationFailure where
  | generation (e : GenerationError)
  | numeralTooLong
  | tooDeep
  deriving DecidableEq

end StringCatalog
