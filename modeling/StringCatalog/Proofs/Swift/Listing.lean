import StringCatalog.Config.Reader
import StringCatalog.Proofs.Swift.Declaration
import StringCatalog.Proofs.Swift.Identifier
import StringCatalog.Proofs.Swift.StringLiteral
import StringCatalog.Swift.Source

/-! A reader of generated members. It goes through the lines with a stack of the blocks that are
open, asks of each line that it is indented as deep as it stands, and lists the members that it
finds, each with the enumerations around it. -/

namespace StringCatalog.Swift

/-- A static member as it is read. -/
structure Member where
  enums : List Text
  name : Text
  parameters : List (Text × Text)
  key : Text
  deriving DecidableEq

/-- What a line is, apart from its indentation. -/
inductive LineKind where
  | comment
  | enumeration (name : Text)
  | member (name : Text) (parameters : List (Text × Text))
  | call (key : Text)
  | closing
  deriving DecidableEq

/-- A block that is open: an enumeration, or a member with the key of the call in it. -/
inductive Block where
  | enumeration (name : Text)
  | member (name : Text) (parameters : List (Text × Text)) (key : Option Text)
  deriving DecidableEq

/-- The blocks that are open, the innermost first, and the members that have been closed. -/
structure Listing where
  blocks : List Block
  members : List Member
  deriving DecidableEq

/-! ### The kind of a line -/

/-- Reads a parameter: an underscore, a name and a type. -/
def readParameter (s : Text) : Option (Text × Text) :=
  (("_ " : Text).isPrefixOf? (s.dropWhile (· == .char ' '))).bind fun rest =>
    (readUpTo ':' rest).bind fun (name, behind) =>
      ((" " : Text).isPrefixOf? behind).map fun type => (name, type)

/-- Reads parameters with commas between them. -/
def readParameters (s : Text) : Option (List (Text × Text)) :=
  (Text.splitAt ',' s).mapM readParameter

/-- What a line of an enumeration has behind its first words. -/
def readEnumeration (s : Text) : Option LineKind :=
  (readUpTo ' ' s).bind fun (name, behind) =>
    if behind = "\x7b" then some (.enumeration name) else none

/-- What a line of a variable has behind its first words. -/
def readVariable (typeName s : Text) : Option LineKind :=
  (readUpTo ':' s).bind fun (name, behind) =>
    if behind = " " ++ typeName ++ " \x7b" then some (.member name []) else none

/-- What a line of a function has behind its first words. -/
def readFunction (typeName s : Text) : Option LineKind :=
  (readUpTo '(' s).bind fun (name, rest) =>
    (readUpTo ')' rest).bind fun (inside, behind) =>
      if behind = " -> " ++ typeName ++ " \x7b" then (readParameters inside).map (.member name)
      else none

/-- The character that a part of a literal is. -/
def LiteralPart.char? : LiteralPart → Option CodePoint
  | char c => some c
  | reference _ => none

/-- Reads a call: the type with a literal as the first argument, up to a bracket at the end. -/
def readCall (typeName s : Text) : Option LineKind :=
  ((typeName ++ "(").isPrefixOf? s).bind fun arguments =>
    (readLiteral arguments).bind fun (parts, behind) =>
      if (behind = ")" ∨ ("," : Text) <+: behind) ∧ (")" : Text) <:+ behind then
        (parts.mapM LiteralPart.char?).map .call
      else none

/-- The kind of a line. Only the first words of a line decide what it opens. -/
def lineKind (access typeName s : Text) : Option LineKind :=
  if ("///" : Text) <+: s then some .comment
  else if s = closingLine then some .closing
  else match (access ++ " enum ").isPrefixOf? s with
    | some rest => readEnumeration rest
    | none => match (access ++ " static var ").isPrefixOf? s with
      | some rest => readVariable typeName rest
      | none => match (access ++ " static func ").isPrefixOf? s with
        | some rest => readFunction typeName rest
        | none => readCall typeName s

/-! ### The blocks around a line -/

namespace Listing

/-- The names of the enumerations among the blocks, the outermost first. -/
def enumsOf (blocks : List Block) : List Text :=
  blocks.reverse.filterMap fun
    | .enumeration name => some name
    | .member .. => none

/-- A block may be opened: no member is open. -/
def mayOpen (l : Listing) : Bool :=
  match l.blocks with
  | .member .. :: _ => false
  | _ => true

/-- What a line does to the listing. A member is listed when it is closed, and has exactly one
call. -/
def step (l : Listing) : LineKind → Option Listing
  | .comment => some l
  | .enumeration name =>
    if l.mayOpen then some { l with blocks := .enumeration name :: l.blocks } else none
  | .member name parameters =>
    if l.mayOpen then some { l with blocks := .member name parameters none :: l.blocks } else none
  | .call key =>
    match l.blocks with
    | .member name parameters none :: outer =>
      some { l with blocks := .member name parameters (some key) :: outer }
    | _ => none
  | .closing =>
    match l.blocks with
    | .enumeration _ :: outer => some { l with blocks := outer }
    | .member name parameters (some key) :: outer =>
      some ⟨outer, l.members ++ [⟨enumsOf outer, name, parameters, key⟩]⟩
    | _ => none

/-- How deep a line stands. The blocks are inside an extension, and a closing line stands as deep as
the line that opened its block. -/
def depth (l : Listing) : LineKind → Nat
  | .closing => l.blocks.length
  | _ => l.blocks.length + 1

/-- Reads a line, which is empty or is indented by exactly the width times its depth. -/
def readLine (access typeName : Text) (width : Nat) (l : Listing) (line : Text) : Option Listing :=
  if line = [] then some l
  else
    let content := line.dropWhile (· == .char ' ')
    (lineKind access typeName content).bind fun kind =>
      if line = Text.copies (width * l.depth kind) ' ' ++ content then l.step kind else none

/-- Reads lines, one after another. -/
def readLines (access typeName : Text) (width : Nat) (l : Listing) (ls : List Text) :
    Option Listing :=
  ls.foldlM (readLine access typeName width) l

/-- The members of a text of lines in which every block that is opened is closed again. -/
def read (access typeName : Text) (width : Nat) (text : Text) : Option (List Member) :=
  match readLines access typeName width ⟨[], []⟩ (Text.lines text) with
  | some ⟨[], members⟩ => some members
  | _ => none

end Listing

/-! ### The kinds of generated lines -/

section Kinds

variable {typeName : Text}

theorem isPrefixOf?_append_append (before part text : Text) :
    (before ++ part).isPrefixOf? (before ++ text) = part.isPrefixOf? text := by
  induction before with
  | nil => rfl
  | cons c before ih => simpa [List.isPrefixOf?] using ih

/-- The first character of a modifier begins no comment, and is not a blank. -/
theorem AccessLevel.exists_modifier (level : AccessLevel) : ∃ c rest, level.modifier = c :: rest ∧
    c ≠ .char ' ' ∧ c ≠ .char '/' ∧ c ≠ .char '\x7d' := by
  cases level <;> exact ⟨_, _, rfl, by decide, by decide, by decide⟩

theorem AccessLevel.bracket_notMem (level : AccessLevel) : CodePoint.char '(' ∉ level.modifier := by
  cases level <;> decide

/-- A line that begins with neither a slash nor a brace is no comment and closes nothing. -/
theorem lineKind_cons {c : CodePoint} (hslash : c ≠ .char '/') (hbrace : c ≠ .char '\x7d')
    (access typeName rest : Text) :
    lineKind access typeName (c :: rest) =
      match (access ++ " enum ").isPrefixOf? (c :: rest) with
      | some rest => readEnumeration rest
      | none => match (access ++ " static var ").isPrefixOf? (c :: rest) with
        | some rest => readVariable typeName rest
        | none => match (access ++ " static func ").isPrefixOf? (c :: rest) with
          | some rest => readFunction typeName rest
          | none => readCall typeName (c :: rest) := by
  have hcomment : ¬("///" : Text) <+: c :: rest := fun h =>
    hslash (List.cons_prefix_cons.mp h).1.symm
  have hclosing : c :: rest ≠ closingLine := fun h => hbrace (List.cons.inj h).1
  rw [lineKind, if_neg hcomment, if_neg hclosing]

theorem lineKind_closingLine (access typeName : Text) :
    lineKind access typeName closingLine = some .closing := by
  have hcomment : ¬("///" : Text) <+: closingLine := by decide
  rw [lineKind, if_neg hcomment, if_pos rfl]

/-- The kind of a line that begins with a modifier hangs on the words behind it. -/
theorem lineKind_modifier (level : AccessLevel) (typeName words : Text) :
    lineKind level.modifier typeName (level.modifier ++ words) =
      match (Text.ofString " enum ").isPrefixOf? words with
      | some rest => readEnumeration rest
      | none => match (Text.ofString " static var ").isPrefixOf? words with
        | some rest => readVariable typeName rest
        | none => match (Text.ofString " static func ").isPrefixOf? words with
          | some rest => readFunction typeName rest
          | none => readCall typeName (level.modifier ++ words) := by
  obtain ⟨c, rest, hmodifier, -, hslash, hbrace⟩ := level.exists_modifier
  have hkind := lineKind_cons hslash hbrace level.modifier typeName (rest ++ words)
  rw [← List.cons_append, ← hmodifier] at hkind
  simp only [isPrefixOf?_append_append] at hkind
  exact hkind

theorem lineKind_enumHeader (style : Style) (typeName name : Text) :
    lineKind style.accessLevel.modifier typeName (enumHeader style name) =
      some (.enumeration (typeIdentifier name)) := by
  have hname := (isUnbroken_typeIdentifier name).notMem (c := .char ' ') (by decide)
  have hheader : enumHeader style name = style.accessLevel.modifier ++ (Text.ofString " enum " ++
      (typeIdentifier name ++ CodePoint.char ' ' :: [.char '\x7b'])) := by
    simp only [enumHeader, List.append_assoc]
    rfl
  rw [hheader, lineKind_modifier, Text.isPrefixOf?_append]
  dsimp only
  rw [readEnumeration, readUpTo_append hname]
  rfl

/-- A line of a variable. -/
theorem lineKind_variable (level : AccessLevel) (typeName : Text) {name : Text}
    (hname : name.IsUnbroken) :
    lineKind level.modifier typeName (level.modifier ++ " static var " ++ name ++ ": " ++
      typeName ++ " \x7b") = some (.member name []) := by
  have hcolon := hname.notMem (c := .char ':') (by decide)
  have hheader : level.modifier ++ Text.ofString " static var " ++ name ++ Text.ofString ": " ++
      typeName ++ Text.ofString " \x7b" =
        level.modifier ++ (Text.ofString " static var " ++ (name ++
          CodePoint.char ':' :: (Text.ofString " " ++ typeName ++ Text.ofString " \x7b"))) := by
    simp only [List.append_assoc]
    rfl
  have hfirst : (Text.ofString " enum ").isPrefixOf? (Text.ofString " static var " ++
      (name ++ CodePoint.char ':' :: (Text.ofString " " ++ typeName ++ Text.ofString " \x7b"))) =
        none := rfl
  rw [hheader, lineKind_modifier, hfirst, Text.isPrefixOf?_append]
  dsimp only
  rw [readVariable, readUpTo_append hcolon]
  exact if_pos rfl

/-! ### Parameters -/

/-- What a parameter is read as. -/
def parameterOf (a : Argument) : Text × Text := (a.name, typeOf a.kind)

theorem readParameter_parameter {a : Argument} (h : a.name.IsUnbroken) (blanks : Nat) :
    readParameter (Text.copies blanks ' ' ++ parameter a) = some (parameterOf a) := by
  have hcolon := h.notMem (c := .char ':') (by decide)
  have hparameter : parameter a = Text.ofString "_ " ++
      (a.name ++ CodePoint.char ':' :: (Text.ofString " " ++ typeOf a.kind)) := by
    simp only [parameter, List.append_assoc]
    rfl
  have hblanks : (Text.copies blanks ' ' ++ parameter a).dropWhile (· == .char ' ') =
      parameter a := by
    rw [List.dropWhile_append_of_pos fun c hc => by simp [List.eq_of_mem_replicate hc], hparameter]
    rfl
  rw [readParameter, hblanks, hparameter, Text.isPrefixOf?_append]
  dsimp only [Option.bind_some]
  rw [readUpTo_append hcolon]
  dsimp only [Option.bind_some]
  rw [Text.isPrefixOf?_append]
  rfl

theorem notMem_typeOf (kind : ArgumentKind) :
    CodePoint.char ',' ∉ typeOf kind ∧ CodePoint.char ')' ∉ typeOf kind := by
  cases kind <;> decide

theorem notMem_parameter {a : Argument} (h : a.name.IsUnbroken) :
    CodePoint.char ',' ∉ parameter a ∧ CodePoint.char ')' ∉ parameter a := by
  have hcomma := h.notMem (c := .char ',') (by decide)
  have hbracket := h.notMem (c := .char ')') (by decide)
  obtain ⟨hcomma', hbracket'⟩ := notMem_typeOf a.kind
  have hstart : CodePoint.char ',' ∉ Text.ofString "_ " ∧
      CodePoint.char ')' ∉ Text.ofString "_ " := by decide
  have hcolon : CodePoint.char ',' ∉ Text.ofString ": " ∧
      CodePoint.char ')' ∉ Text.ofString ": " := by decide
  simp only [parameter, List.mem_append, not_or]
  exact ⟨⟨⟨⟨hstart.1, hcomma⟩, hcolon.1⟩, hcomma'⟩, ⟨⟨⟨hstart.2, hbracket⟩, hcolon.2⟩, hbracket'⟩⟩

/-- Parameters are read back, behind any number of blanks. -/
theorem readParameters_join {a : Argument} {as : List Argument}
    (h : ∀ x ∈ a :: as, x.name.IsUnbroken) (blanks : Nat) :
    readParameters (Text.copies blanks ' ' ++ Text.join ", " ((a :: as).map parameter)) =
      some ((a :: as).map parameterOf) := by
  have hpart : ∀ (x : Argument) (n : Nat), x.name.IsUnbroken →
      ∀ c ∈ Text.copies n ' ' ++ parameter x, (c == CodePoint.char ',') = false := by
    intro x n hx c hc
    rw [beq_eq_false_iff_ne]
    rintro rfl
    rcases List.mem_append.mp hc with hblank | hparameter
    · exact absurd (List.eq_of_mem_replicate hblank) (by decide)
    · exact (notMem_parameter hx).1 hparameter
  induction as generalizing a blanks with
  | nil =>
    have ha := h a List.mem_cons_self
    have hread := readParameter_parameter ha blanks
    have hjoin : Text.join ", " ([a].map parameter) = parameter a := rfl
    rw [hjoin, readParameters, Text.splitAt, Text.splitWhere_self (hpart a blanks ha)]
    simp [hread]
  | cons b as ih =>
    have ha := h a List.mem_cons_self
    have hread := readParameter_parameter ha blanks
    have hrest := ih (fun x hx => h x (List.mem_cons_of_mem a hx)) 1
    have hjoin : Text.copies blanks ' ' ++ Text.join ", " ((a :: b :: as).map parameter) =
        (Text.copies blanks ' ' ++ parameter a) ++ CodePoint.char ',' ::
          (Text.copies 1 ' ' ++ Text.join ", " ((b :: as).map parameter)) := by
      simp only [List.map_cons, Text.join, List.append_assoc]
      rfl
    rw [hjoin, readParameters, Text.splitAt, Text.splitWhere_append (hpart a blanks ha) (by decide),
      List.mapM_cons, hread]
    rw [readParameters, Text.splitAt] at hrest
    rw [hrest]
    rfl

/-- A line of a function. -/
theorem lineKind_function (level : AccessLevel) (typeName : Text) {name : Text}
    (hname : name.IsUnbroken) {a : Argument} {as : List Argument}
    (h : ∀ x ∈ a :: as, x.name.IsUnbroken) :
    lineKind level.modifier typeName (level.modifier ++ " static func " ++ name ++ "(" ++
      Text.join ", " ((a :: as).map parameter) ++ ") -> " ++ typeName ++ " \x7b") =
        some (.member name ((a :: as).map parameterOf)) := by
  have hopen := hname.notMem (c := .char '(') (by decide)
  have hclose : CodePoint.char ')' ∉ Text.join ", " ((a :: as).map parameter) := by
    intro hmem
    rcases Text.mem_join hmem with hseparator | ⟨part, hpart, hmem⟩
    · exact absurd hseparator (by decide)
    · obtain ⟨x, hx, rfl⟩ := List.mem_map.mp hpart
      exact (notMem_parameter (h x hx)).2 hmem
  obtain ⟨inside, hinside⟩ : ∃ inside, inside = Text.join ", " ((a :: as).map parameter) := ⟨_, rfl⟩
  have hread : readParameters inside = some ((a :: as).map parameterOf) := by
    rw [hinside]
    exact readParameters_join h 0
  rw [← hinside] at hclose ⊢
  have hheader : level.modifier ++ Text.ofString " static func " ++ name ++ Text.ofString "(" ++
      inside ++ Text.ofString ") -> " ++ typeName ++ Text.ofString " \x7b" =
        level.modifier ++ (Text.ofString " static func " ++ (name ++
          CodePoint.char '(' :: (inside ++ CodePoint.char ')' ::
            (Text.ofString " -> " ++ typeName ++ Text.ofString " \x7b")))) := by
    simp only [List.append_assoc]
    rfl
  have hneither : ∀ rest : Text,
      (Text.ofString " enum ").isPrefixOf? (Text.ofString " static func " ++ rest) = none ∧
      (Text.ofString " static var ").isPrefixOf? (Text.ofString " static func " ++ rest) = none :=
    fun _ => ⟨rfl, rfl⟩
  rw [hheader, lineKind_modifier, (hneither _).1, (hneither _).2, Text.isPrefixOf?_append]
  dsimp only
  rw [readFunction, readUpTo_append hopen]
  dsimp only [Option.bind_some]
  rw [readUpTo_append hclose]
  dsimp only [Option.bind_some]
  rw [if_pos rfl, hread]
  rfl

/-! ### Calls -/

theorem not_prefix_of_bracket {access typeName x y : Text} (haccess : CodePoint.char '(' ∉ access)
    (htype : CodePoint.char ' ' ∉ typeName) :
    ¬access ++ .char ' ' :: x <+: typeName ++ .char '(' :: y := by
  induction access generalizing typeName with
  | nil =>
    cases typeName with
    | nil => simp
    | cons d typeName =>
      intro h
      have hd := (List.cons_prefix_cons.mp h).1
      simp [← hd] at htype
  | cons c access ih =>
    simp only [List.mem_cons, not_or] at haccess
    cases typeName with
    | nil =>
      intro h
      exact haccess.1 (List.cons_prefix_cons.mp h).1.symm
    | cons d typeName =>
      simp only [List.mem_cons, not_or] at htype
      intro h
      exact ih haccess.2 htype.2 (List.cons_prefix_cons.mp h).2

/-- The characters of a type name. -/
theorem isNamePart_of_isTypeName {typeName : Text} (h : Config.isTypeName typeName = true) :
    ∀ c ∈ typeName, Config.isNamePart c = true := by
  cases typeName with
  | nil => contradiction
  | cons first rest =>
    simp only [Config.isTypeName, Bool.and_eq_true, List.all_eq_true] at h
    intro c hc
    rcases List.mem_cons.mp hc with rfl | hc
    · simp [Config.isNamePart, h.1]
    · exact h.2 c hc

theorem notMem_of_isTypeName {typeName : Text} (h : Config.isTypeName typeName = true)
    {c : CodePoint} (hc : Config.isNamePart c = false) : c ∉ typeName := fun hmem => by
  simp [isNamePart_of_isTypeName h c hmem] at hc

theorem exists_isTypeName {typeName : Text} (h : Config.isTypeName typeName = true) :
    ∃ c rest, typeName = c :: rest ∧ c ≠ .char ' ' ∧ c ≠ .char '/' ∧ c ≠ .char '\x7d' := by
  have hblank := notMem_of_isTypeName h (c := .char ' ') (by decide)
  have hslash := notMem_of_isTypeName h (c := .char '/') (by decide)
  have hbrace := notMem_of_isTypeName h (c := .char '\x7d') (by decide)
  cases typeName with
  | nil => contradiction
  | cons c rest =>
    simp only [List.mem_cons, not_or] at hblank hslash hbrace
    exact ⟨c, rest, rfl, Ne.symm hblank.1, Ne.symm hslash.1, Ne.symm hbrace.1⟩

/-- The arguments of a call behind the first one. -/
theorem exists_join_cons (first : Text) (others : List Text) :
    ∃ behind, Text.join ", " (first :: others) ++ Text.ofString ")" = first ++ behind ∧
      (behind = Text.ofString ")" ∨ Text.ofString "," <+: behind) ∧
        Text.ofString ")" <:+ behind := by
  cases others with
  | nil => exact ⟨Text.ofString ")", rfl, Or.inl rfl, List.suffix_refl _⟩
  | cons second others =>
    refine ⟨Text.ofString ", " ++ Text.join ", " (second :: others) ++ Text.ofString ")",
      ?_, ?_, ?_⟩
    · simp only [Text.join, List.append_assoc]
    · exact Or.inr ⟨_, rfl⟩
    · exact List.suffix_append _ _

theorem mapM_char? (key : Text) : (key.map LiteralPart.char).mapM LiteralPart.char? = some key := by
  induction key with
  | nil => rfl
  | cons c key ih =>
    rw [List.map_cons, List.mapM_cons, ih]
    rfl

/-- A call is read by its type and its literal. -/
theorem lineKind_call (level : AccessLevel) {typeName : Text}
    (h : Config.isTypeName typeName = true) (key : Text) (others : List Text) :
    lineKind level.modifier typeName (typeName ++ "(" ++
      Text.join ", " (stringLiteral key [] :: others) ++ ")") = some (.call key) := by
  obtain ⟨behind, hjoin, hbehind, hend⟩ := exists_join_cons (stringLiteral key []) others
  obtain ⟨c, rest, htype, -, hslash, hbrace⟩ := exists_isTypeName h
  have hblank := notMem_of_isTypeName h (c := .char ' ') (by decide)
  have hcall : typeName ++ Text.ofString "(" ++
      Text.join ", " (stringLiteral key [] :: others) ++ Text.ofString ")" =
        typeName ++ Text.ofString "(" ++ (stringLiteral key [] ++ behind) := by
    rw [List.append_assoc, hjoin]
  -- no modifier with a blank behind it is a type with a bracket behind it
  have hnone : ∀ words rest : Text, words = .char ' ' :: rest →
      (level.modifier ++ words).isPrefixOf?
        (typeName ++ Text.ofString "(" ++ (stringLiteral key [] ++ behind)) = none := by
    rintro words rest rfl
    refine Text.isPrefixOf?_eq_none ?_
    rw [List.append_assoc]
    exact not_prefix_of_bracket level.bracket_notMem hblank
  have hread : readCall typeName (typeName ++ Text.ofString "(" ++
      (stringLiteral key [] ++ behind)) = some (.call key) := by
    rw [readCall, Text.isPrefixOf?_append]
    dsimp only [Option.bind_some]
    rw [readLiteral_stringLiteral]
    dsimp only [Option.bind_some]
    rw [if_pos ⟨hbehind, hend⟩, mapM_char?]
    rfl
  have hkind := lineKind_cons hslash hbrace level.modifier typeName
    (rest ++ Text.ofString "(" ++ (stringLiteral key [] ++ behind))
  rw [← List.cons_append, ← List.cons_append, ← htype] at hkind
  rw [hcall, hkind, hnone (Text.ofString " enum ") _ rfl,
    hnone (Text.ofString " static var ") _ rfl, hnone (Text.ofString " static func ") _ rfl]
  exact hread

end Kinds

end StringCatalog.Swift
