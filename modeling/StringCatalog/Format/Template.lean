import StringCatalog.Format.Specifier
import StringCatalog.GenerationError
import StringCatalog.OrderedMap

/-! Templates: a text as a list of literal parts and placeholders, after its substitution markers
have been expanded. -/

namespace StringCatalog

/-- A place in a text where an argument is put: what it looks like, what it takes, and the position
of the argument if it is given. -/
structure Placeholder where
  kind : ArgumentKind
  specifier : Text
  position : Option Int
  deriving DecidableEq

/-- A part of a template. In the text of a literal, doubled percent signs are still doubled. -/
inductive Segment where
  | literal (text : Text)
  | placeholder (p : Placeholder)
  deriving DecidableEq

namespace Segment

/-- The segment as written. -/
def text : Segment → Text
  | literal t => t
  | placeholder p => p.specifier

end Segment

/-- A text as the sequence of its segments. -/
abbrev Template := List Segment

/-- The text of a literal as it is shown: every pair of percent signs is one. -/
def rendered (literal : Text) : Text := Text.replace "%%" "%" literal

namespace Template

/-- The text that the segments make up. -/
def text (t : Template) : Text := t.flatMap Segment.text

/-- The placeholders, in order. -/
def placeholders (t : Template) : List Placeholder :=
  t.filterMap fun
    | .placeholder p => some p
    | .literal _ => none

/-- The literals as they are shown, in order. -/
def renderedLiterals (t : Template) : List Text :=
  t.filterMap fun
    | .literal text => some (rendered text)
    | .placeholder _ => none

/-- A literal with the given reversed text, unless it is empty. -/
def flush : Text → Template
  | [] => []
  | pending => [.literal pending.reverse]

/-- The placeholder of a specifier. -/
def placeholderOf (s : Specifier) : Placeholder :=
  ⟨s.kind, s.text, s.position.map Int.ofNat⟩

/-- A text, given reversed, ends with an odd number of percent signs, so the last of them stands
alone. -/
def endsInLonePercent (pending : Text) : Bool :=
  (pending.takeWhile (· == .char '%')).length % 2 == 1

/-- Turns pieces into segments; `pending` is the text of the literal under way, reversed. A
specifier behind a lone percent sign is the second half of an escape and so part of the literal. -/
def ofPieces (pending : Text) : List Piece → Template
  | [] => flush pending
  | .char c :: rest => ofPieces (c :: pending) rest
  | .specifier s :: rest =>
    if endsInLonePercent pending then ofPieces (s.text.reverse ++ pending) rest
    else flush pending ++ .placeholder (placeholderOf s) :: ofPieces [] rest

/-- The template of a text without markers to expand. -/
def ofText (text : Text) : Except GenerationFailure Template :=
  let pieces := Piece.split text
  if (Piece.specifiers pieces).any Specifier.isOverlong then .error .numeralTooLong
  else .ok (ofPieces [] pieces)

end Template

/-- Names of substitutions with the texts that replace their markers. -/
abbrev SubstitutionMap := OrderedMap Text Text

namespace SubstitutionMap

/-- The marker that stands for a substitution in a text. -/
def token (name : Text) : Text := "%#@" ++ name ++ "@"

/-- The first text of the map that holds a marker of the map, with that marker. -/
def overlap? (subs : SubstitutionMap) : Option GenerationError :=
  subs.findSome? fun s =>
    ((subs.map (token ·.1)).find? (Text.hasInfix · s.2)).map (.substitutionOverlap s.1)

/-- Replaces the markers of the map in the text, one name after another. Refused if a text of the
map holds a marker, since the result would hang on the order of the names. -/
def expand (subs : SubstitutionMap) (text : Text) : Except GenerationError Text :=
  match overlap? subs with
  | some e => .error e
  | none => .ok (subs.foldl (fun t s => Text.replace (token s.1) s.2 t) text)

end SubstitutionMap

/-- The template of a text with the substitutions of a map. -/
def Template.scan (text : Text) (subs : SubstitutionMap) : Except GenerationFailure Template :=
  match subs.expand text with
  | .error e => .error (.generation e)
  | .ok expanded => Template.ofText expanded

end StringCatalog
