import StringCatalog.Yaml.Directive
import StringCatalog.Yaml.Plain
import StringCatalog.Yaml.Quoted

/-! The tokens of a YAML document: directives, brackets, marks and scalars, with the block structure
that the indentation gives made explicit. Anchors, aliases, tags and block scalars are refused. A
text that breaks off has the tokens that are settled before that, and a fault behind them. -/

namespace StringCatalog.Yaml

/-- A token. The block tokens come from the indentation, and `key` stands before what is behind a
question mark or before a colon. A fault stands where the text cannot be taken further. -/
inductive Token where
  | directive (d : Directive)
  | documentStart
  | documentEnd
  | blockSequenceStart
  | blockMappingStart
  | blockEnd
  | flowSequenceStart
  | flowSequenceEnd
  | flowMappingStart
  | flowMappingEnd
  | flowEntry
  | blockEntry
  | key
  | value
  | scalar (text : Text) (plain : Bool)
  | fault (e : ReadError)
  deriving DecidableEq, Repr

/-- A token that a colon may turn into a key: its number, the number of brackets around it, whether
only a key may stand there, and its place. -/
structure KeyCandidate where
  number : Nat
  depth : Nat
  required : Bool
  index : Nat
  line : Nat
  column : Nat

/-- The tokens found so far, the last one first, with their number, and what decides on the next:
the column of the block under way and of those around it, the number of brackets around, whether a
key may begin here, and the candidates for a key, at most one for each number of brackets, and that
of the innermost bracket first. -/
structure Scanner where
  rest : List Located
  found : List Token
  count : Nat
  indent : Int
  outer : List Int
  depth : Nat
  keyAllowed : Bool
  candidates : List KeyCandidate

namespace Scanner

/-- The beginning of a text. -/
def start (text : List Located) : Scanner := ⟨text, [], 0, -1, [], 0, true, []⟩

/-- The scanner stands inside brackets. -/
def inFlow (sc : Scanner) : Bool := sc.depth != 0

/-- Adds a token. -/
def emit (sc : Scanner) (t : Token) : Scanner :=
  { sc with found := t :: sc.found, count := sc.count + 1 }

/-- Adds a token before the one of a given number. -/
def insert (sc : Scanner) (number : Nat) (t : Token) : Scanner :=
  { sc with found := sc.found.insertIdx (sc.count - number) t, count := sc.count + 1 }

/-- Drops characters. -/
def drop (sc : Scanner) (n : Nat) : Scanner := { sc with rest := sc.rest.drop n }

/-- A candidate that is out of reach: a key stands on one line with its colon and at most 1024
characters before it. -/
def isStale (l : Located) (k : KeyCandidate) : Bool :=
  k.line != l.line || Nat.blt 1024 (l.index - k.index)

/-- Forgets all candidates that are out of reach, none of which may be required. -/
def refreshKeys (l : Located) (sc : Scanner) : Except ReadError Scanner :=
  if sc.candidates.any fun k => isStale l k && k.required then .error .malformed
  else .ok { sc with candidates := sc.candidates.filter fun k => !isStale l k }

/-- The candidate of the innermost bracket. -/
def candidate? (sc : Scanner) : Option KeyCandidate :=
  sc.candidates.head?.filter fun k => k.depth == sc.depth

/-- Forgets the candidate of the innermost bracket, which must not be required. -/
def forgetKey (sc : Scanner) : Except ReadError Scanner :=
  match sc.candidate? with
  | some k =>
    if k.required then .error .malformed else .ok { sc with candidates := sc.candidates.tail }
  | none => .ok sc

/-- Takes note that the next token may be a key. -/
def noteKey (l : Located) (sc : Scanner) : Except ReadError Scanner :=
  if sc.keyAllowed then do
    let sc ← sc.forgetKey
    let required := !sc.inFlow && sc.indent == (l.column : Int)
    let k := ⟨sc.count, sc.depth, required, l.index, l.line, l.column⟩
    .ok { sc with candidates := k :: sc.candidates }
  else .ok sc

/-- Ends the blocks that begin behind a column, outermost last; the list holds the columns of the
blocks around. -/
def unwindTo (column : Int) : List Int → Scanner → Scanner
  | [], sc => sc
  | around :: outer, sc =>
    if column < sc.indent then
      unwindTo column outer { sc.emit .blockEnd with indent := around, outer := outer }
    else sc

/-- Ends the blocks that begin behind a column, unless inside brackets. -/
def unwind (column : Int) (sc : Scanner) : Scanner :=
  if sc.inFlow then sc else unwindTo column sc.outer sc

/-- Begins a block at a column behind that of the block under way, with its token before the one of
a given number. -/
def openBlock (sc : Scanner) (column : Nat) (number : Nat) (t : Token) : Scanner :=
  if sc.indent < column then
    { sc.insert number t with indent := column, outer := sc.indent :: sc.outer }
  else sc

/-- Takes a directive and its line. -/
def directive (sc : Scanner) : Except ReadError Scanner := do
  let sc ← (sc.unwind (-1)).forgetKey
  let (d, rest) ← Directive.read sc.rest.tail
  .ok ({ sc with keyAllowed := false, rest := rest }.emit (.directive d))

/-- Takes a mark between documents. -/
def documentMark (t : Token) (sc : Scanner) : Except ReadError Scanner := do
  let sc ← (sc.unwind (-1)).forgetKey
  .ok ({ sc with keyAllowed := false }.drop 3 |>.emit t)

/-- Takes an opening bracket. -/
def openFlow (l : Located) (t : Token) (sc : Scanner) : Except ReadError Scanner := do
  let sc ← sc.noteKey l
  .ok ({ sc with keyAllowed := true, depth := sc.depth + 1 }.drop 1 |>.emit t)

/-- Takes a closing bracket. -/
def closeFlow (t : Token) (sc : Scanner) : Except ReadError Scanner := do
  let sc ← sc.forgetKey
  if sc.inFlow then
    .ok ({ sc with keyAllowed := false, depth := sc.depth - 1 }.drop 1 |>.emit t)
  else .error .malformed

/-- Takes a comma. -/
def flowEntry (sc : Scanner) : Except ReadError Scanner := do
  let sc ← sc.forgetKey
  .ok ({ sc with keyAllowed := true }.drop 1 |>.emit .flowEntry)

/-- Begins a block for a hyphen, or for a question mark or colon without a key on its line. -/
def openBlockHere (l : Located) (t : Token) (sc : Scanner) : Except ReadError Scanner :=
  if sc.inFlow then .ok sc
  else if sc.keyAllowed then .ok (sc.openBlock l.column sc.count t)
  else .error .malformed

/-- Takes a hyphen. -/
def blockEntry (l : Located) (sc : Scanner) : Except ReadError Scanner := do
  let sc ← sc.openBlockHere l .blockSequenceStart
  let sc ← { sc with keyAllowed := true }.forgetKey
  .ok (sc.drop 1 |>.emit .blockEntry)

/-- Takes a question mark. -/
def explicitKey (l : Located) (sc : Scanner) : Except ReadError Scanner := do
  let sc ← sc.openBlockHere l .blockMappingStart
  let sc ← { sc with keyAllowed := !sc.inFlow }.forgetKey
  .ok (sc.drop 1 |>.emit .key)

/-- Takes a colon: the candidate, if there is one, becomes a key. -/
def colon (l : Located) (sc : Scanner) : Except ReadError Scanner :=
  match sc.candidate? with
  | some k =>
    let sc := { sc with candidates := sc.candidates.tail, keyAllowed := false }.insert k.number .key
    let sc := if sc.inFlow then sc else sc.openBlock k.column k.number .blockMappingStart
    .ok (sc.drop 1 |>.emit .value)
  | none => do
    let sc ← sc.openBlockHere l .blockMappingStart
    let sc ← { sc with keyAllowed := !sc.inFlow }.forgetKey
    .ok (sc.drop 1 |>.emit .value)

/-- Takes a quoted scalar; the first argument bounds its length. -/
def quoted (bound : Nat) (l : Located) (double : Bool) (sc : Scanner) :
    Except ReadError Scanner := do
  let sc ← sc.noteKey l
  let (text, rest) ← quotedScalar double bound sc.rest.tail
  .ok ({ sc with keyAllowed := false, rest := rest }.emit (.scalar text false))

/-- Takes a plain scalar; the first argument bounds its length. -/
def plain (bound : Nat) (l : Located) (sc : Scanner) : Except ReadError Scanner := do
  let sc ← sc.noteKey l
  let (text, ended, rest) := plainScalar sc.inFlow (sc.indent + 1) bound [] false sc.rest
  .ok ({ sc with keyAllowed := ended, rest := rest }.emit (.scalar text true))

/-- The characters that begin something else than a plain scalar. -/
def isIndicator (c : CodePoint) : Bool :=
  ("-?:,[]\x7b\x7d#&*!|>'\"%@\x60" : Text).contains c

/-- A plain scalar may begin here. -/
def beginsPlain (sc : Scanner) (c : CodePoint) (behind : List Located) : Bool :=
  (!isIndicator c && !isSpaceOrTab c) ||
    (!endsWord behind && (c == '-' || (!sc.inFlow && (c == '?' || c == ':'))))

/-- Takes the token that begins at `l`; the first argument bounds its length. -/
def take (bound : Nat) (l : Located) (behind : List Located) (sc : Scanner) :
    Except ReadError Scanner :=
  let spaced := sc.inFlow || endsWord behind
  if l.column = 0 ∧ l.char = '%' then sc.directive
  else if l.column = 0 ∧ isTriple '-' (l :: behind) then sc.documentMark .documentStart
  else if l.column = 0 ∧ isTriple '.' (l :: behind) then sc.documentMark .documentEnd
  else if l.char = '[' then sc.openFlow l .flowSequenceStart
  else if l.char = '\x7b' then sc.openFlow l .flowMappingStart
  else if l.char = ']' then sc.closeFlow .flowSequenceEnd
  else if l.char = '\x7d' then sc.closeFlow .flowMappingEnd
  else if l.char = ',' then sc.flowEntry
  else if l.char = '-' ∧ endsWord behind then sc.blockEntry l
  else if l.char = '?' ∧ spaced then sc.explicitKey l
  else if l.char = ':' ∧ spaced then sc.colon l
  else if l.char = '\'' then sc.quoted bound l false
  else if l.char = '"' then sc.quoted bound l true
  else if sc.beginsPlain l.char behind then sc.plain bound l
  else .error .malformed

/-- Skips blanks and takes the next token, or ends all blocks at the end of the text. The first
argument bounds the length of a token. -/
def next (bound : Nat) (sc : Scanner) : Except ReadError Scanner :=
  let (broken, rest) := skipBlanks false sc.rest
  let sc := { sc with
    rest := rest
    keyAllowed := sc.keyAllowed || (broken && !sc.inFlow) }
  match rest with
  | [] => (sc.unwind (-1)).forgetKey
  | l :: behind => do
    let sc ← sc.refreshKeys l
    (sc.unwind l.column).take bound l behind

/-- The number of tokens that what follows cannot change: those before all candidates for a key that
are in reach. -/
def settledCount (sc : Scanner) : Nat :=
  let pending := match sc.rest with
    | [] => sc.candidates
    | l :: _ => sc.candidates.filter fun k => !isStale l k
  pending.foldl (fun n k => min n k.number) sc.count

/-- The tokens that are settled, and a fault behind them. -/
def breakOff (sc : Scanner) (e : ReadError) : List Token :=
  (.fault e :: sc.found.drop (sc.count - sc.settledCount)).reverse

/-- Takes tokens to the end of the text or to a fault. The first argument bounds the number of
tokens and the length of each. -/
def run : Nat → Scanner → List Token
  | 0, sc => sc.breakOff .malformed
  | bound + 1, sc =>
    match sc.next bound with
    | .error e => sc.breakOff e
    | .ok sc' => if sc.rest.isEmpty then sc'.found.reverse else run bound sc'

end Scanner

/-- The tokens of a text. A byte order mark at its beginning is left out. -/
def Token.scan (text : Text) : List Token :=
  if text.all isAllowed then
    let located := locate 0 0 0 text
    let located := if startsWith byteOrderMark located then located.tail else located
    Scanner.run (located.length + 2) (Scanner.start located)
  else [.fault .malformed]

end StringCatalog.Yaml
