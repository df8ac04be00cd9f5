import StringCatalog.Yaml.Token

/-! The structure of a YAML document: scalars, sequences and mappings. A fault among the tokens ends
the reading where it is met, and so only if nothing before it is wrong. -/

namespace StringCatalog.Yaml

/-- A node of a document. Where a value is left out, a plain scalar without text stands. -/
inductive Node where
  | scalar (text : Text) (plain : Bool)
  | sequence (items : List Node)
  | mapping (members : List (Node × Node))

namespace Node

/-- The node that stands for nothing. -/
def empty : Node := scalar [] true

/-- The number of collections that may be nested. -/
def deepest : Nat := 488

/-- The number of collections that may be nested inside one of so many. -/
def inside : Nat → Except ReadError Nat
  | 0 => .error .tooDeep
  | depth + 1 => .ok depth

/-- Refuses tokens: for the fault that is met here, or else for being out of place. -/
def refuse {α : Type} : List Token → Except ReadError α
  | .fault e :: _ => .error e
  | _ => .error .malformed

/-- Nothing is written before one of these tokens inside a block. -/
def endsEntry : List Token → Bool
  | .key :: _ | .value :: _ | .blockEnd :: _ => true
  | _ => false

/-- Nothing is written between a key mark and one of these tokens inside brackets. -/
def endsFlowEntry (closing : Token) : List Token → Bool
  | t :: _ => t == .flowEntry || t == closing
  | [] => false

mutual

/-- Reads a node; `inBlock` allows a block, and `hyphens` a sequence at the indentation of the key
above it. The first number is that of the collections that may be nested in it, and the second one
bounds the number of steps. -/
def read (inBlock hyphens : Bool) (depth : Nat) :
    Nat → List Token → Except ReadError (Node × List Token)
  | 0, _ => .error .malformed
  | bound + 1, tokens => match tokens with
    | .scalar text plain :: rest => .ok (scalar text plain, rest)
    | .flowSequenceStart :: rest => do
      let depth ← inside depth
      let (items, rest') ← readFlowItems true depth bound rest
      .ok (sequence items, rest')
    | .flowMappingStart :: rest => do
      let depth ← inside depth
      let (members, rest') ← readFlowMembers true depth bound rest
      .ok (mapping members, rest')
    | .blockSequenceStart :: rest =>
      if inBlock then do
        let depth ← inside depth
        let (items, rest') ← readBlockItems depth bound rest
        .ok (sequence items, rest')
      else refuse tokens
    | .blockMappingStart :: rest =>
      if inBlock then do
        let depth ← inside depth
        let (members, rest') ← readBlockMembers depth bound rest
        .ok (mapping members, rest')
      else refuse tokens
    | .blockEntry :: _ =>
      if hyphens then do
        let depth ← inside depth
        let (items, rest') ← readHyphens depth bound tokens
        .ok (sequence items, rest')
      else refuse tokens
    | _ => refuse tokens
termination_by structural bound => bound

/-- Reads the items of a block sequence and the end of the block. -/
def readBlockItems (depth : Nat) : Nat → List Token → Except ReadError (List Node × List Token)
  | 0, _ => .error .malformed
  | bound + 1, tokens => match tokens with
    | .blockEntry :: rest => do
      let (item, rest') ← match rest with
        | .blockEntry :: _ | .blockEnd :: _ => .ok (empty, rest)
        | _ => read true false depth bound rest
      let (items, rest'') ← readBlockItems depth bound rest'
      .ok (item :: items, rest'')
    | .blockEnd :: rest => .ok ([], rest)
    | _ => refuse tokens
termination_by structural bound => bound

/-- Reads the items of a sequence that has no block of its own. -/
def readHyphens (depth : Nat) : Nat → List Token → Except ReadError (List Node × List Token)
  | 0, _ => .error .malformed
  | bound + 1, tokens => match tokens with
    | .blockEntry :: rest => do
      let (item, rest') ← match rest with
        | .blockEntry :: _ => .ok (empty, rest)
        | _ => if endsEntry rest then .ok (empty, rest) else read true false depth bound rest
      let (items, rest'') ← readHyphens depth bound rest'
      .ok (item :: items, rest'')
    | _ => .ok ([], tokens)
termination_by structural bound => bound

/-- Reads the members of a block mapping and the end of the block. -/
def readBlockMembers (depth : Nat) :
    Nat → List Token → Except ReadError (List (Node × Node) × List Token)
  | 0, _ => .error .malformed
  | bound + 1, tokens => match tokens with
    | .key :: rest => do
      let (key, rest₁) ←
        if endsEntry rest then .ok (empty, rest) else read true true depth bound rest
      let (value, rest₂) ← match rest₁ with
        | .value :: rest₂ =>
          if endsEntry rest₂ then .ok (empty, rest₂) else read true true depth bound rest₂
        | _ => .ok (empty, rest₁)
      let (members, rest₃) ← readBlockMembers depth bound rest₂
      .ok ((key, value) :: members, rest₃)
    | .blockEnd :: rest => .ok ([], rest)
    | _ => refuse tokens
termination_by structural bound => bound

/-- Reads a key and its value inside brackets, behind the key mark. -/
def readFlowPair (closing : Token) (depth : Nat) :
    Nat → List Token → Except ReadError ((Node × Node) × List Token)
  | 0, _ => .error .malformed
  | bound + 1, tokens => do
    let (key, rest) ←
      if tokens.head? == some .value || endsFlowEntry closing tokens then .ok (empty, tokens)
      else read false false depth bound tokens
    match rest with
    | .value :: rest' =>
      let (value, rest'') ←
        if endsFlowEntry closing rest' then .ok (empty, rest')
        else read false false depth bound rest'
      .ok ((key, value), rest'')
    | _ => .ok ((key, empty), rest)
termination_by structural bound => bound

/-- Reads the items of a sequence in brackets and the closing bracket. A comma comes before every
item but the first, and may come before the bracket. -/
def readFlowItems (first : Bool) (depth : Nat) :
    Nat → List Token → Except ReadError (List Node × List Token)
  | 0, _ => .error .malformed
  | bound + 1, tokens => match tokens with
    | .flowSequenceEnd :: rest => .ok ([], rest)
    | _ => do
      let rest ← if first then .ok tokens else match tokens with
        | .flowEntry :: rest => .ok rest
        | _ => refuse tokens
      match rest with
      | .flowSequenceEnd :: rest' => .ok ([], rest')
      | .key :: rest' =>
        let pairDepth ← inside depth
        let (pair, rest'') ← readFlowPair .flowSequenceEnd pairDepth bound rest'
        let (items, rest''') ← readFlowItems false depth bound rest''
        .ok (mapping [pair] :: items, rest''')
      | _ =>
        let (item, rest') ← read false false depth bound rest
        let (items, rest'') ← readFlowItems false depth bound rest'
        .ok (item :: items, rest'')
termination_by structural bound => bound

/-- Reads the members of a mapping in brackets and the closing bracket; a node without a colon is a
key without a value. -/
def readFlowMembers (first : Bool) (depth : Nat) :
    Nat → List Token → Except ReadError (List (Node × Node) × List Token)
  | 0, _ => .error .malformed
  | bound + 1, tokens => match tokens with
    | .flowMappingEnd :: rest => .ok ([], rest)
    | _ => do
      let rest ← if first then .ok tokens else match tokens with
        | .flowEntry :: rest => .ok rest
        | _ => refuse tokens
      match rest with
      | .flowMappingEnd :: rest' => .ok ([], rest')
      | .key :: rest' =>
        let (pair, rest'') ← readFlowPair .flowMappingEnd depth bound rest'
        let (members, rest''') ← readFlowMembers false depth bound rest''
        .ok (pair :: members, rest''')
      | _ =>
        let (key, rest') ← read false false depth bound rest
        let (members, rest'') ← readFlowMembers false depth bound rest'
        .ok ((key, empty) :: members, rest'')
termination_by structural bound => bound

end

/-- The directive that a token is. -/
def directive? : Token → Option Directive
  | .directive d => some d
  | _ => none

/-- Takes what comes before a document: directives and the start mark. -/
def enterDocument (tokens : List Token) : Except ReadError (List Token) :=
  let directives := tokens.takeWhile fun t => (directive? t).isSome
  if Directive.mayMeet (directives.filterMap directive?) then
    match tokens.drop directives.length with
    | .documentStart :: rest => .ok rest
    | rest => refuse rest
  else .error .malformed

/-- A document without content is over before one of these tokens. -/
def endsDocument : List Token → Bool
  | [] | .directive _ :: _ | .documentStart :: _ | .documentEnd :: _ => true
  | _ => false

/-- The only document of a list of tokens, if there is one. It may be behind directives and a start
mark, and end marks may follow it. Of three nested steps one takes a token. -/
def ofTokens? (tokens : List Token) : Except ReadError (Option Node) := do
  let bound := 3 * tokens.length + 3
  match tokens with
  | [] => .ok none
  | first :: _ =>
    let (node, rest) ←
      if (directive? first).isSome || first == .documentStart then do
        let rest ← enterDocument tokens
        if endsDocument rest then .ok (empty, rest) else read true false deepest bound rest
      else read true false deepest bound tokens
    match rest.dropWhile (· == .documentEnd) with
    | [] => .ok (some node)
    | behind => do
      let _ ← enterDocument behind
      .error .malformed

end Node

end StringCatalog.Yaml
