import StringCatalog.Proofs.Swift.Block
import StringCatalog.Proofs.Swift.Totality

/-! Generated source files. Read line by line, the members of a tree are a faithful listing of its
resources, in the order in which they are written and each inside its enumerations. -/

namespace StringCatalog.Swift

/-! ### Declarations -/

theorem isLine_of_isTypeName {typeName : Text} (h : Config.isTypeName typeName = true) :
    typeName.IsLine := by
  intro c hc
  have hpart := isNamePart_of_isTypeName h c hc
  simp only [Config.isNamePart, Config.isNameStart, isAsciiDigit, Bool.or_eq_true, Bool.and_eq_true,
    decide_eq_true_eq, beq_iff_eq, Nat.ble_eq] at hpart
  rcases hpart with (hstart | hdigit) | rfl
  · exact isLineBreak_of_printable (by omega) (by omega)
  · exact isLineBreak_of_printable (by omega) (by omega)
  · decide

/-- What an entry of a tree is read as. -/
def memberOf (enums : List Text) (r : Resource) : Member :=
  ⟨enums, r.identifier, r.arguments.map parameterOf, r.key⟩

/-- The names in a resource can be told from the punctuation around them, and its default value has
a literal that stands on one line. -/
structure Legible (r : Resource) : Prop where
  identifier : r.identifier.IsUnbroken
  names : ∀ a ∈ r.arguments, a.name.IsUnbroken
  slots : ∃ slotted, r.defaultValue.slots [] = .ok slotted ∧ ∀ s ∈ slotted, 1 ≤ s.2

/-- The documentation consists of comments. -/
theorem docLines_comment {r : Resource} {line : Text} (h : line ∈ docLines r) :
    line.IsLine ∧ Text.ofString "///" <+: line := by
  have hcomment : ∀ t : Text, t.IsLine → (Text.trimEnd (Text.ofString "/// " ++ t)).IsLine ∧
      Text.ofString "///" <+: Text.trimEnd (Text.ofString "/// " ++ t) := by
    intro t ht
    have hslashes : (Text.ofString "/// ").IsLine := by decide
    exact ⟨(hslashes.append ht).trimEnd,
      Text.prefix_trimEndBy (p := isBlank) (c := .char '/') (by decide) "//" (.char ' ' :: t)⟩
  obtain ⟨t, ht, rfl⟩ := List.mem_map.mp h
  refine hcomment t ?_
  cases hlines : Text.lines r.defaultValue.text with
  | nil =>
    rw [hlines] at ht
    rw [List.mem_singleton.mp ht]
    exact Text.IsLine.nil
  | cons first rest =>
    have hmem : t ∈ Text.lines r.defaultValue.text := by
      rw [hlines] at ht ⊢
      exact ht
    exact Text.isLine_of_mem_lines hmem

theorem isLine_parameter {a : Argument} (h : a.name.IsUnbroken) : (parameter a).IsLine := by
  have hstart : (Text.ofString "_ ").IsLine := by decide
  have hcolon : (Text.ofString ": ").IsLine := by decide
  have htype : (typeOf a.kind).IsLine := by cases a.kind <;> decide
  exact ((hstart.append h.isLine).append hcolon).append htype

theorem isLine_header {r : Resource} {style : Style} (hr : Legible r)
    (h : Config.isTypeName style.typeName = true) : (header style r).IsLine := by
  have hmodifier := style.accessLevel.isLine_modifier
  have htype := isLine_of_isTypeName h
  have hbrace : (Text.ofString " \x7b").IsLine := by decide
  unfold header
  split
  · have hfunc : (Text.ofString " static func ").IsLine := by decide
    have hopen : (Text.ofString "(").IsLine := by decide
    have harrow : (Text.ofString ") -> ").IsLine := by decide
    have hparameters : (Text.join ", " (r.arguments.map parameter)).IsLine := by
      refine Text.IsLine.join (by decide) fun part hpart => ?_
      obtain ⟨a, ha, rfl⟩ := List.mem_map.mp hpart
      exact isLine_parameter (hr.names a ha)
    exact ((((((hmodifier.append hfunc).append hr.identifier.isLine).append hopen).append
      hparameters).append harrow).append htype).append hbrace
  · have hvar : (Text.ofString " static var ").IsLine := by decide
    have hcolon : (Text.ofString ": ").IsLine := by decide
    exact ((((hmodifier.append hvar).append hr.identifier.isLine).append hcolon).append
      htype).append hbrace

theorem header_start (style : Style) (r : Resource) :
    ∃ c rest, header style r = c :: rest ∧ c ≠ .char ' ' := by
  obtain ⟨c, rest, hmodifier, hc, -, -⟩ := style.accessLevel.exists_modifier
  unfold header
  rw [hmodifier]
  split <;> exact ⟨c, _, rfl, hc⟩

theorem lineKind_header {r : Resource} (style : Style) (hr : Legible r) :
    lineKind style.accessLevel.modifier style.typeName (header style r) =
      some (.member r.identifier (r.arguments.map parameterOf)) := by
  cases harguments : r.arguments with
  | nil =>
    have hnone : r.hasArguments = false := by simp [Resource.hasArguments, harguments]
    rw [header, hnone]
    exact lineKind_variable style.accessLevel style.typeName hr.identifier
  | cons a as =>
    have hmem : a ∈ r.arguments := by simp [harguments]
    rw [header_of_mem hmem, harguments]
    exact lineKind_function style.accessLevel style.typeName hr.identifier (harguments ▸ hr.names)

/-- The arguments of a call begin with the literal of the key, and stand on one line. -/
theorem callArguments_eq_ok {r : Resource} {style : Style} {arguments : List Text}
    (hr : Legible r) (h : callArguments style r = .ok arguments) :
    ∃ others, arguments = stringLiteral r.key [] :: others ∧ ∀ other ∈ others, other.IsLine := by
  obtain ⟨names, hnames⟩ : ∃ names, names = (if r.hasArguments then
      [Text.ofString "arguments: " ++ Text.bracketed (r.arguments.map (·.name))] else []) :=
    ⟨_, rfl⟩
  have hlines : ∀ part ∈ names, part.IsLine := by
    intro part hpart
    rw [hnames] at hpart
    split at hpart
    · have hlabel : (Text.ofString "arguments: ").IsLine := by decide
      have hopen : (Text.ofString "[").IsLine := by decide
      have hclose : (Text.ofString "]").IsLine := by decide
      have hjoin : (Text.join ", " (r.arguments.map (·.name))).IsLine := by
        refine Text.IsLine.join (by decide) fun part hpart => ?_
        obtain ⟨a, ha, rfl⟩ := List.mem_map.mp hpart
        exact (hr.names a ha).isLine
      rw [List.mem_singleton.mp hpart]
      exact hlabel.append ((hopen.append hjoin).append hclose)
    · contradiction
  unfold callArguments at h
  rw [← hnames] at h
  cases hinclude : style.includeDefaultValue with
  | false =>
    simp only [hinclude] at h
    cases h
    exact ⟨names, rfl, hlines⟩
  | true =>
    simp only [hinclude, if_true] at h
    obtain ⟨literal, hliteral, h⟩ := Sequence.bind_eq_ok_iff.mp h
    cases h
    obtain ⟨slotted, hslots, hpos⟩ := hr.slots
    have hdelimiter : defaultDelimiter = signs 3 := rfl
    rw [hdelimiter] at hliteral
    have hlabel : (Text.ofString "defaultValue: ").IsLine := by decide
    have hvalue := hlabel.append (isLine_defaultValueLiteral hslots hpos hliteral)
    refine ⟨_, rfl, fun part hpart => ?_⟩
    rcases List.mem_append.mp hpart with hname | hlast
    · exact hlines part hname
    · rw [List.mem_singleton.mp hlast]
      exact hvalue

theorem constructorCall_eq_ok {r : Resource} {style : Style} {call : Text} (hr : Legible r)
    (h : Config.isTypeName style.typeName = true) (hcall : constructorCall style r = .ok call) :
    call.IsLine ∧ (∃ c rest, call = c :: rest ∧ c ≠ .char ' ') ∧
      lineKind style.accessLevel.modifier style.typeName call = some (.call r.key) := by
  obtain ⟨arguments, harguments, hcall⟩ := Sequence.bind_eq_ok_iff.mp hcall
  cases hcall
  obtain ⟨others, rfl, hothers⟩ := callArguments_eq_ok hr harguments
  obtain ⟨c, rest, htype, hc, -, -⟩ := exists_isTypeName h
  have hopen : (Text.ofString "(").IsLine := by decide
  have hclose : (Text.ofString ")").IsLine := by decide
  have hjoin : (Text.join ", " (stringLiteral r.key [] :: others)).IsLine := by
    refine Text.IsLine.join (by decide) fun part hpart => ?_
    rcases List.mem_cons.mp hpart with rfl | hother
    · exact isLine_stringLiteral r.key
    · exact hothers part hother
  refine ⟨(((isLine_of_isTypeName h).append hopen).append hjoin).append hclose, ?_,
    lineKind_call style.accessLevel h r.key others⟩
  rw [htype]
  exact ⟨c, _, rfl, hc⟩

/-- The header of a member opens it, the call in it is that of its key, and it is listed when it is
closed. -/
theorem shows_member {r : Resource} {style : Style} {blocks : List Block} {call : Text}
    (width : Nat) (hr : Legible r) (htype : Config.isTypeName style.typeName = true)
    (hopen : Listing.mayOpen ⟨blocks, []⟩ = true) (hcall : constructorCall style r = .ok call) :
    Listing.Shows style.accessLevel.modifier style.typeName width blocks
      (header style r :: ([call].map (indented (Text.copies width ' ')) ++ [closingLine]))
      [memberOf (Listing.enumsOf blocks) r] := by
  obtain ⟨hline, hstart, hkind⟩ := constructorCall_eq_ok hr htype hcall
  obtain ⟨before, hbefore⟩ : ∃ before, before =
    Block.member r.identifier (r.arguments.map parameterOf) none := ⟨_, rfl⟩
  obtain ⟨behind, hbehind⟩ : ∃ behind, behind =
    Block.member r.identifier (r.arguments.map parameterOf) (some r.key) := ⟨_, rfl⟩
  have hopened : ∀ members, Listing.step ⟨blocks, members⟩
      (.member r.identifier (r.arguments.map parameterOf)) = some ⟨before :: blocks, members⟩ := by
    intro members
    rw [hbefore, Listing.step]
    exact if_pos hopen
  have hlines : ∀ line ∈ [call], line.IsLine := fun line hmem => by
    rw [List.mem_singleton.mp hmem]
    exact hline
  have hread : ∀ members, Listing.readLines style.accessLevel.modifier style.typeName width
      ⟨before :: blocks, members⟩ ([call].map (indentedBy width (blocks.length + 2))) =
        some ⟨behind :: blocks, members ++ []⟩ := by
    intro members
    have hread := Listing.readLine_indentedBy width ⟨before :: blocks, members⟩ hstart hkind
    have hdepth : Listing.depth ⟨before :: blocks, members⟩ (.call r.key) = blocks.length + 2 := rfl
    rw [hdepth] at hread
    rw [List.map_singleton, Listing.readLines_cons, hread, List.append_nil, hbefore, hbehind]
    rfl
  have hclosed : ∀ members, Listing.step ⟨behind :: blocks, members⟩ .closing =
      some ⟨blocks, members ++ [memberOf (Listing.enumsOf blocks) r]⟩ := by
    intro members
    rw [hbehind]
    rfl
  exact Listing.Shows.block before behind (isLine_header hr htype) (header_start style r)
    (lineKind_header style hr) (fun _ => rfl) hopened hlines hread hclosed

theorem shows_declaration {r : Resource} {style : Style} {width : Nat} {blocks : List Block}
    {ls : List Text} (hr : Legible r) (htype : Config.isTypeName style.typeName = true)
    (hwidth : style.indent = Text.copies width ' ') (hopen : Listing.mayOpen ⟨blocks, []⟩ = true)
    (h : declaration style r = .ok ls) :
    Listing.Shows style.accessLevel.modifier style.typeName width blocks ls
      [memberOf (Listing.enumsOf blocks) r] := by
  obtain ⟨call, hcall, h⟩ := Sequence.bind_eq_ok_iff.mp h
  cases h
  have hcomments : Listing.Shows style.accessLevel.modifier style.typeName width blocks (docLines r)
      [] := .comments fun line hline => docLines_comment hline
  have hcallLine : style.indent ++ call = indented (Text.copies width ' ') call := by
    obtain ⟨-, ⟨c, rest, rfl, -⟩, -⟩ := constructorCall_eq_ok hr htype hcall
    rw [hwidth, indented, if_neg (List.cons_ne_nil c rest)]
  rw [hcallLine]
  exact hcomments.append (shows_member width hr htype hopen hcall)

/-! ### Trees -/

/-- The blocks around the members of the namespace at a path. -/
def blocksOf (path : List Text) : List Block :=
  (path.map fun name => Block.enumeration (typeIdentifier name)).reverse

theorem blocksOf_append (path : List Text) (name : Text) :
    blocksOf (path ++ [name]) = .enumeration (typeIdentifier name) :: blocksOf path := by
  simp [blocksOf]

theorem enumsOf_blocksOf (path : List Text) :
    Listing.enumsOf (blocksOf path) = path.map typeIdentifier := by
  simp [Listing.enumsOf, blocksOf, List.filterMap_map]

theorem mayOpen_blocksOf (path : List Text) : Listing.mayOpen ⟨blocksOf path, []⟩ = true := by
  rcases List.eq_nil_or_concat path with rfl | ⟨outer, name, rfl⟩
  · rfl
  · rw [List.concat_eq_append, blocksOf_append]
    rfl

/-- The member that an entry of a tree is read as: its enumerations are named for the namespaces on
its path. -/
def entryMember (entry : List Text × Resource) : Member :=
  memberOf (entry.1.map typeIdentifier) entry.2

section Trees

variable {style : Style} {width : Nat}

/-- The declarations of the resources of one namespace show these, in their order. -/
theorem shows_declarations (htype : Config.isTypeName style.typeName = true)
    (hwidth : style.indent = Text.copies width ' ') (path : List Text) {rs : List Resource}
    (hlegible : ∀ r ∈ rs, Legible r) {members : List (List Text)}
    (h : rs.mapM (declaration style) = .ok members) :
    List.Forall₂ (Listing.Shows style.accessLevel.modifier style.typeName width (blocksOf path))
      members (rs.map fun r => [entryMember (path, r)]) := by
  induction Sequence.mapM_eq_ok_iff.mp h with
  | nil => exact .nil
  | @cons r lines rs members hlines hrest ih =>
    have hfirst := shows_declaration (hlegible r List.mem_cons_self) htype hwidth
      (mayOpen_blocksOf path) hlines
    rw [enumsOf_blocksOf] at hfirst
    have hlater := ih (fun r' hr' => hlegible r' (List.mem_cons_of_mem r hr'))
      (Sequence.mapM_eq_ok_iff.mpr hrest)
    exact .cons hfirst hlater

mutual

/-- The lines of a namespace show its entries. -/
theorem shows_memberLines (htype : Config.isTypeName style.typeName = true)
    (hwidth : style.indent = Text.copies width ' ') (tree : NamespaceTree) (path : List Text)
    (hlegible : ∀ entry ∈ tree.entries path, Legible entry.2) {ls : List Text}
    (h : memberLines style tree = .ok ls) :
    Listing.Shows style.accessLevel.modifier style.typeName width (blocksOf path) ls
      ((tree.entries path).map entryMember) := by
  match tree with
  | .node name cs rs =>
    rw [NamespaceTree.entries] at hlegible ⊢
    rw [memberLines] at h
    obtain ⟨enums, henums, h⟩ := Sequence.bind_eq_ok_iff.mp h
    obtain ⟨members, hmembers, h⟩ := Sequence.bind_eq_ok_iff.mp h
    cases h
    obtain ⟨founds, hblocks, hfounds⟩ := shows_enumBlocks htype hwidth cs path
      (fun entry hentry => hlegible entry (List.mem_append_left _ hentry)) henums
    have hdeclarations := shows_declarations htype hwidth path
      (fun r hr => hlegible (path, r) (List.mem_append_right _ (List.mem_map_of_mem hr))) hmembers
    have hmap : (rs.map fun r => [entryMember (path, r)]).flatten =
        (rs.map (path, ·)).map entryMember := by
      rw [List.map_map, ← List.flatMap_def, List.map_eq_flatMap]
      rfl
    have hfound : (founds ++ rs.map fun r => [entryMember (path, r)]).flatten =
        (NamespaceTree.childEntries path cs ++ rs.map (path, ·)).map entryMember := by
      rw [List.flatten_append, hfounds, hmap, List.map_append]
    rw [← hfound]
    exact Listing.Shows.separated (List.rel_append hblocks hdeclarations)
termination_by structural tree

/-- The blocks of several namespaces show the entries of each. -/
theorem shows_enumBlocks (htype : Config.isTypeName style.typeName = true)
    (hwidth : style.indent = Text.copies width ' ') (cs : List NamespaceTree) (path : List Text)
    (hlegible : ∀ entry ∈ NamespaceTree.childEntries path cs, Legible entry.2)
    {blocks : List (List Text)} (h : enumBlocks style cs = .ok blocks) :
    ∃ founds,
      List.Forall₂ (Listing.Shows style.accessLevel.modifier style.typeName width (blocksOf path))
        blocks founds ∧
      founds.flatten = (NamespaceTree.childEntries path cs).map entryMember := by
  match cs with
  | [] =>
    cases h
    exact ⟨[], .nil, rfl⟩
  | c :: rest =>
    rw [NamespaceTree.childEntries] at hlegible ⊢
    rw [enumBlocks] at h
    obtain ⟨body, hbody, h⟩ := Sequence.bind_eq_ok_iff.mp h
    obtain ⟨later, hlater, h⟩ := Sequence.bind_eq_ok_iff.mp h
    cases h
    obtain ⟨founds, hblocks, hfounds⟩ := shows_enumBlocks htype hwidth rest path
      (fun entry hentry => hlegible entry (List.mem_append_right _ hentry)) hlater
    have hinside := shows_memberLines htype hwidth c (path ++ [c.name])
      (fun entry hentry => hlegible entry (List.mem_append_left _ hentry)) hbody
    rw [blocksOf_append] at hinside
    refine ⟨_ :: founds,
      .cons (.enumeration rfl hwidth (mayOpen_blocksOf path) hinside) hblocks, ?_⟩
    rw [List.flatten_cons, hfounds, List.map_append]
termination_by structural cs

end

end Trees

/-! ### Extracted resources -/

theorem isUnbroken_nameAt (n : Nat) : (Argument.nameAt n).IsUnbroken := by
  have harg : (Text.ofString "arg").IsUnbroken := by decide
  have hdigits : (Text.ofNat n).IsUnbroken := by
    intro c hc
    have hdigit := Text.isAsciiDigit_of_mem_ofNat hc
    simp only [isAsciiDigit, Bool.and_eq_true, Nat.ble_eq] at hdigit
    have hrange : isNameRange 0x30 0x39 = true := by decide
    exact isSeparatorNumber_of_isNameRange hrange (by omega) (by omega)
  exact harg.append hdigits

/-- The arguments of an extracted resource are named for their positions, which count up from
one. -/
theorem arguments_of_toResource {e : CatalogEntry} {r : Resource} (h : e.toResource = .ok r) :
    ∀ i (hi : i < r.arguments.length), r.arguments[i].name = Argument.nameAt (i + 1) ∧
      r.arguments[i].position = i + 1 := by
  obtain ⟨variants, -, -, -, hreconciled⟩ := e.exists_variants_of_toResource h
  intro i hi
  cases hreconciled with
  | arguments _ _ _ each => exact ⟨(each i hi).1, (each i hi).2.1⟩

theorem legible_of_toResource {e : CatalogEntry} {r : Resource} (h : e.toResource = .ok r) :
    Legible r := by
  refine ⟨?_, ?_, ?_⟩
  · rw [(keyed_of_toResource h).identifier]
    exact isUnbroken_variableIdentifier _
  · intro a ha
    obtain ⟨i, hi, rfl⟩ := List.getElem_of_mem ha
    rw [(arguments_of_toResource h i hi).1]
    exact isUnbroken_nameAt (i + 1)
  · obtain ⟨slotted, hslots, heach⟩ := e.exists_slots_defaultValue h []
    exact ⟨slotted, hslots, fun s hs => (heach s hs).1⟩

/-! ### Files -/

/-- The lines before the members. -/
def openingLines (style : Style) (table : Text) : List Text :=
  ["// swiftlint:disable all", [],
    "// Generated using xcstrings_gen from " ++ table ++ ".xcstrings", [], "import Foundation", [],
    "extension " ++ style.typeName ++ " \x7b"]

/-- The lines behind the members. -/
def closingLines : List Text := [closingLine, [], "// swiftlint:enable all"]

theorem fileLines_eq (style : Style) (table : Text) (body : List Text) :
    fileLines style table body =
      (openingLines style table ++ body.map (indented style.indent) ++ closingLines) ++ [[]] := by
  simp only [fileLines, openingLines, closingLines, List.append_assoc, List.cons_append,
    List.nil_append]

theorem join_fileLines (style : Style) (table : Text) (body : List Text) :
    Text.join "\n" (fileLines style table body) = Text.unlines (openingLines style table) ++
      Text.unlines (body.map (indented style.indent)) ++ Text.unlines closingLines := by
  rw [fileLines_eq, Text.join_lineFeed, Text.unlines_append, Text.unlines_append]

/-- Lines that show members are read as these when they stand in a file. -/
theorem read_of_shows {access typeName : Text} {width : Nat} {ls : List Text} {found : List Member}
    (h : Listing.Shows access typeName width [] ls found) :
    Listing.read access typeName width
      (Text.unlines (ls.map (indented (Text.copies width ' ')))) = some found := by
  have hlines : ∀ line ∈ ls.map (indented (Text.copies width ' ')), line.IsLine := by
    intro line hline
    obtain ⟨l, hl, rfl⟩ := List.mem_map.mp hline
    exact isLine_indented width (h.isLine l hl)
  have hdepth : ls.map (indented (Text.copies width ' ')) = ls.map (indentedBy width 1) := by
    refine List.map_congr_left fun l _ => ?_
    simp [indentedBy, indented]
  have hread := h.read []
  rw [Listing.read, Text.lines_unlines hlines, hdepth]
  rw [List.length_nil] at hread
  rw [hread]
  rfl

/-- The source of extracted resources has a carriage return only if the name of the table has. -/
theorem carriageReturn_notMem_source {deepest width : Nat} {rs : List Resource} {style : Style}
    {table text : Text} (hrs : ∀ r ∈ rs, ∃ e : CatalogEntry, e.toResource = .ok r)
    (htype : Config.isTypeName style.typeName = true)
    (hindent : style.indent = Text.copies width ' ') (htable : CodePoint.char '\r' ∉ table)
    (h : source deepest style table rs = .ok text) : CodePoint.char '\r' ∉ text := by
  have hlegible : ∀ entry ∈ (NamespaceTree.ofResources rs).entries [], Legible entry.2 := by
    intro entry hentry
    obtain ⟨e, he⟩ := hrs _ (mem_of_mem_entries hrs hentry)
    exact legible_of_toResource he
  rw [source] at h
  split at h
  · contradiction
  · obtain ⟨-, -, h⟩ := Sequence.bind_eq_ok_iff.mp (Sequence.mapError_eq_ok_iff.mp h)
    obtain ⟨body, hbody, h⟩ := Sequence.bind_eq_ok_iff.mp h
    cases h
    have hshows := shows_memberLines htype hindent _ [] hlegible hbody
    have hname := (isLine_of_isTypeName htype).carriageReturn_notMem
    rw [join_fileLines, List.mem_append, List.mem_append, not_or, not_or]
    refine ⟨⟨Text.notMem_unlines (by decide) ?_, Text.notMem_unlines (by decide) ?_⟩,
      Text.notMem_unlines (by decide) (by decide)⟩
    · have hbefore : CodePoint.char '\r' ∉
          Text.ofString "// Generated using xcstrings_gen from " := by decide
      have hbehind : CodePoint.char '\r' ∉ Text.ofString ".xcstrings" := by decide
      have hextension : CodePoint.char '\r' ∉ Text.ofString "extension " := by decide
      have hbrace : CodePoint.char '\r' ∉ Text.ofString " \x7b" := by decide
      simp only [openingLines, List.forall_mem_cons, List.mem_append, not_or]
      exact ⟨by decide, by decide, ⟨⟨hbefore, htable⟩, hbehind⟩, by decide, by decide, by decide,
        ⟨⟨hextension, hname⟩, hbrace⟩, List.forall_mem_nil _⟩
    · intro line hline
      obtain ⟨l, hl, rfl⟩ := List.mem_map.mp hline
      rw [hindent]
      exact (isLine_indented width (hshows.isLine l hl)).carriageReturn_notMem

/-- The source of extracted resources. Between the lines that open and close the extension stands
a body that is read, line by line and with the indentation of every line checked, as a listing in
which every block is closed again. Its members are the entries of the tree, in their order: each
inside the enumerations that are named for its namespaces, with its name, a parameter for each of
its arguments and the key in its call. The arguments are in the order of their positions, and the
entries are the resources, each in the namespace of its key. -/
theorem read_source {deepest : Nat} {rs : List Resource} {style : Style} {width : Nat}
    {table text : Text} (hrs : ∀ r ∈ rs, ∃ e : CatalogEntry, e.toResource = .ok r)
    (htype : Config.isTypeName style.typeName = true)
    (hindent : style.indent = Text.copies width ' ')
    (h : source deepest style table rs = .ok text) :
    (∃ body, text = Text.unlines (openingLines style table) ++ body ++ Text.unlines closingLines ∧
      Listing.read style.accessLevel.modifier style.typeName width body =
        some (((NamespaceTree.ofResources rs).entries []).map fun (path, r) =>
          ⟨path.map typeIdentifier, r.identifier, r.arguments.map fun a => (a.name, typeOf a.kind),
            r.key⟩)) ∧
      (∀ r ∈ rs, ∀ i (hi : i < r.arguments.length), r.arguments[i].position = i + 1) ∧
      ((NamespaceTree.ofResources rs).entries []).Perm
        (rs.map fun r => (r.components.dropLast, r)) := by
  have hlegible : ∀ entry ∈ (NamespaceTree.ofResources rs).entries [], Legible entry.2 := by
    intro entry hentry
    obtain ⟨e, he⟩ := hrs _ (mem_of_mem_entries hrs hentry)
    exact legible_of_toResource he
  refine ⟨?_, fun r hr i hi => ?_, perm_entries_of_toResource hrs⟩
  · rw [source] at h
    split at h
    · contradiction
    · obtain ⟨-, -, h⟩ := Sequence.bind_eq_ok_iff.mp (Sequence.mapError_eq_ok_iff.mp h)
      obtain ⟨body, hbody, h⟩ := Sequence.bind_eq_ok_iff.mp h
      cases h
      have hshows := shows_memberLines htype hindent _ [] hlegible hbody
      refine ⟨_, join_fileLines style table body, ?_⟩
      rw [hindent]
      exact read_of_shows hshows
  · obtain ⟨e, he⟩ := hrs r hr
    exact (arguments_of_toResource he i hi).2

theorem read_source_items : ∃ r text body,
    CatalogEntry.toResource ⟨"menu.items", some "%#@n@ left", [], [⟨"n", "lld", none,
      [("plural.one", "%arg item"), ("plural.other", "%arg items")]⟩], none, .null⟩ = .ok r ∧
    source 8 ⟨.public, "L10n.Key", true, "  "⟩ "Localizable" [r] = .ok text ∧
    Listing.read "public" "L10n.Key" 2 body =
      some [⟨["menu"], "items", [("arg1", "Int")], "menu.items"⟩] ∧
    text = Text.unlines (openingLines ⟨.public, "L10n.Key", true, "  "⟩ "Localizable") ++ body ++
      Text.unlines closingLines := by
  have hresource : CatalogEntry.toResource ⟨"menu.items", some "%#@n@ left", [], [⟨"n", "lld", none,
      [("plural.one", "%arg item"), ("plural.other", "%arg items")]⟩], none, .null⟩ =
      .ok ⟨"menu.items", "items", ["menu", "items"],
        [.placeholder ⟨.int, "%lld", none⟩, .literal " items left"],
        [⟨"arg1", .int, 1⟩], none⟩ := by
    decide +kernel
  obtain ⟨r, hr⟩ : ∃ r : Resource, r = ⟨"menu.items", "items", ["menu", "items"],
    [.placeholder ⟨.int, "%lld", none⟩, .literal " items left"],
    [⟨"arg1", .int, 1⟩], none⟩ := ⟨_, rfl⟩
  rw [← hr] at hresource
  obtain ⟨text, htext⟩ : ∃ text,
      source 8 ⟨.public, "L10n.Key", true, "  "⟩ "Localizable" [r] = .ok text := by
    have hok : (source 8 ⟨.public, "L10n.Key", true, "  "⟩ "Localizable" [r]).isOk = true := by
      subst hr
      decide +kernel
    cases hsource : source 8 ⟨.public, "L10n.Key", true, "  "⟩ "Localizable" [r] with
    | error e => simp [hsource, Except.isOk, Except.toBool] at hok
    | ok text => exact ⟨text, rfl⟩
  have hindent : Text.ofString "  " = Text.copies 2 ' ' := rfl
  obtain ⟨⟨body, hbody, hread⟩, -, -⟩ := read_source (fun r' hr' =>
    ⟨_, List.mem_singleton.mp hr' ▸ hresource⟩) (by decide) hindent htext
  refine ⟨r, text, body, hresource, htext, hread.trans ?_, hbody⟩
  subst hr
  decide +kernel

end StringCatalog.Swift
