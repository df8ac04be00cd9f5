import StringCatalog.Catalog.Reader
import StringCatalog.Proofs.Catalog.Strictness
import StringCatalog.Proofs.Config
import StringCatalog.Proofs.Swift.Source

/-! The lines of a source file. No text of a catalog reaches out of the line that it is written in:
whatever stands in its keys and values, the lines of the members are found again, each as one line,
when the file is split at everything that breaks a line in Swift. -/

namespace StringCatalog

namespace Swift

theorem isLiteralBreak_iff {c : CodePoint} : isLiteralBreak c = true ↔
    c.toNat ∈ [0x0A, 0x0B, 0x0C, 0x0D, 0x85, 0x2028, 0x2029] := by
  simp only [isLiteralBreak, Bool.or_eq_true, Bool.and_eq_true, decide_eq_true_eq, beq_iff_eq,
    List.mem_cons, List.not_mem_nil, or_false]
  omega

/-- What breaks a line in Swift ends a line of a text. -/
theorem isLineBreak_of_isLiteralBreak {c : CodePoint} (h : isLiteralBreak c = true) :
    isLineBreak c = true := by
  simp only [isLiteralBreak, Bool.or_eq_true, Bool.and_eq_true, decide_eq_true_eq,
    beq_iff_eq] at h
  simp only [isLineBreak, Bool.or_eq_true, Bool.and_eq_true, decide_eq_true_eq, beq_iff_eq]
  omega

theorem isLiteralBreak_of_isLine {line : Text} (h : line.IsLine) :
    ∀ c ∈ line, isLiteralBreak c = false := by
  intro c hc
  rw [Bool.eq_false_iff]
  intro hbreak
  have := isLineBreak_of_isLiteralBreak hbreak
  rw [h c hc] at this
  contradiction

/-- Extracted resources have members, and each of their lines is one line. -/
theorem exists_memberLines_isLine {rs : List Resource} {style : Style} {width : Nat}
    (hrs : ∀ r ∈ rs, ∃ e : CatalogEntry, e.toResource = .ok r)
    (htype : Config.isTypeName style.typeName = true)
    (hindent : style.indent = Text.copies width ' ') :
    ∃ ls, memberLines style (.ofResources rs) = .ok ls ∧ ∀ line ∈ ls, line.IsLine := by
  have hentry : ∀ entry ∈ (NamespaceTree.ofResources rs).entries [],
      ∃ e : CatalogEntry, e.toResource = .ok entry.2 :=
    fun entry h => hrs _ (mem_of_mem_entries hrs h)
  have hdeclared : ∀ entry ∈ (NamespaceTree.ofResources rs).entries [],
      ∃ lines, declaration style entry.2 = .ok lines := by
    intro entry h
    obtain ⟨e, he⟩ := hentry entry h
    exact exists_declaration_of_toResource he style
  obtain ⟨ls, hls⟩ := exists_memberLines (.ofResources rs) [] hdeclared
  have hlegible : ∀ entry ∈ (NamespaceTree.ofResources rs).entries [], Legible entry.2 := by
    intro entry h
    obtain ⟨e, he⟩ := hentry entry h
    exact legible_of_toResource he
  exact ⟨ls, hls, (shows_memberLines htype hindent _ [] hlegible hls).isLine⟩

/-- Split at everything that breaks a line in Swift, a file has the lines of its members as they
were written. Only the line that names the table may be broken. -/
theorem splitWhere_fileLines {style : Style} {width : Nat} {ls : List Text}
    (hindent : style.indent = Text.copies width ' ') (h : ∀ line ∈ ls, line.IsLine) (table : Text) :
    Text.splitWhere isLiteralBreak (Text.join "\n" (fileLines style table ls)) =
      (openingLines style table).flatMap (Text.splitWhere isLiteralBreak) ++
        ls.map (indented style.indent) ++ (closingLines ++ [[]]) := by
  have hfeed : isLiteralBreak (.char '\n') = true := by decide
  have hbody : ∀ part ∈ ls.map (indented style.indent) ++ (closingLines ++ [[]]),
      ∀ c ∈ part, isLiteralBreak c = false := by
    intro part hpart
    refine isLiteralBreak_of_isLine ?_
    rcases List.mem_append.mp hpart with hline | hlast
    · obtain ⟨line, hmem, rfl⟩ := List.mem_map.mp hline
      rw [hindent]
      exact isLine_indented width (h line hmem)
    · have hclosing : ∀ part ∈ closingLines ++ [[]], Text.IsLine part := by decide
      exact hclosing part hlast
  have hlines : fileLines style table ls = openingLines style table ++
      (ls.map (indented style.indent) ++ (closingLines ++ [[]])) := by
    rw [fileLines_eq]
    simp only [List.append_assoc]
  have hjoin : Text.join "\n" (fileLines style table ls) =
      Text.join [.char '\n'] (fileLines style table ls) := rfl
  rw [hjoin, Text.splitWhere_join hfeed (by simp [fileLines]), hlines, List.flatMap_append,
    Text.flatMap_splitWhere hbody, List.append_assoc]

/-- Resources extracted from any catalog, in any style with a type name that a configuration
accepts: their members have lines, and none of these holds a line feed, a vertical tab, a form feed,
a carriage return, a next line, or a separator of lines or paragraphs. In the file, each of them is
one line. -/
theorem memberLines_unbroken {catalog : Catalog} {strict skipStale : Bool} {x : Extraction}
    {rs : List Resource} {homeOf : Text → Option Path} {root : Path} {members : Config.Members}
    {config : Config} {style : Style} {width : Nat}
    (hextract : catalog.extract strict skipStale = .ok x) (hrs : rs ⊆ x.resources)
    (hconfig : Config.ofMembers homeOf root members = .ok config)
    (htype : style.typeName = config.typeName) (hindent : style.indent = Text.copies width ' ') :
    ∃ ls, memberLines style (.ofResources rs) = .ok ls ∧
      (∀ line ∈ ls, ∀ c ∈ line, c.toNat ∉ [0x0A, 0x0B, 0x0C, 0x0D, 0x85, 0x2028, 0x2029]) ∧
      ∀ table, Text.splitWhere isLiteralBreak (Text.join "\n" (fileLines style table ls)) =
        (openingLines style table).flatMap (Text.splitWhere isLiteralBreak) ++
          ls.map (indented style.indent) ++ (closingLines ++ [[]]) := by
  have hresource : ∀ r ∈ rs, ∃ e : CatalogEntry, e.toResource = .ok r := fun r hr =>
    Catalog.exists_entry_of_mem_resources hextract (hrs hr)
  have hname : Config.isTypeName style.typeName = true :=
    htype ▸ Config.isTypeName_ofMembers hconfig
  obtain ⟨ls, hls, hlines⟩ := exists_memberLines_isLine hresource hname hindent
  refine ⟨ls, hls, fun line hline c hc => ?_, splitWhere_fileLines hindent hlines⟩
  rw [← isLiteralBreak_iff, Bool.not_eq_true]
  exact isLiteralBreak_of_isLine (hlines line hline) c hc

/-- A catalog with all characters that break a line in a key and its text. -/
def breaking : Catalog :=
  ⟨"en", [⟨"menu.open\n\u2028all", some "%@:\r\none\x0btwo\x0cthree\u0085\u2028\u2029", [], [],
    none, .null⟩], "1.0", none⟩

theorem memberLines_unbroken_breaking : ∃ r config ls,
    breaking.extract true false = .ok ⟨[r], []⟩ ∧
    Config.ofMembers (fun _ => none) ⟨"/", ["p"]⟩
      [(.text "input", .text "a"), (.text "output", .text "b"),
        (.text "type_name", .text " L10n.Key ")] = .ok config ∧
    memberLines ⟨.public, config.typeName, true, "  "⟩ (.ofResources [r]) = .ok ls ∧
    ls = ["public enum menu \x7b", "  /// %@:", "  /// one", "  /// two", "  /// three", "  ///",
      "  ///", "  public static func openAll(_ arg1: String) -> L10n.Key \x7b",
      "    L10n.Key(\"menu.open\\n\\u\x7b2028\x7dall\", arguments: [arg1], " ++
        "defaultValue: ###\"\\###(arg1):\\###r\\###none\\###u\x7bb\x7dtwo\\###u\x7bc\x7dthree" ++
          "\\###u\x7b85\x7d\\###u\x7b2028\x7d\\###u\x7b2029\x7d\"###)",
      "  \x7d", "\x7d"] ∧
    (∀ line ∈ ls, ∀ c ∈ line, c.toNat ∉ [0x0A, 0x0B, 0x0C, 0x0D, 0x85, 0x2028, 0x2029]) ∧
    Text.splitWhere isLiteralBreak (Text.join "\n"
      (fileLines ⟨.public, config.typeName, true, "  "⟩ "Main" ls)) =
        openingLines ⟨.public, config.typeName, true, "  "⟩ "Main" ++ ls.map (indented "  ") ++
          (closingLines ++ [[]]) := by
  obtain ⟨r, hr⟩ : ∃ r : Resource, r = ⟨"menu.open\n\u2028all", "openAll",
    ["menu", "open\n\u2028all"], [.placeholder ⟨.object, "%@", none⟩,
      .literal ":\r\none\x0btwo\x0cthree\u0085\u2028\u2029"],
    [⟨"arg1", .object, 1⟩], none⟩ := ⟨_, rfl⟩
  have hextract : breaking.extract true false = .ok ⟨[r], []⟩ := by
    subst hr
    decide +kernel
  obtain ⟨config, hconfig, hname⟩ : ∃ config, Config.ofMembers (fun _ => none) ⟨"/", ["p"]⟩
      [(.text "input", .text "a"), (.text "output", .text "b"),
        (.text "type_name", .text " L10n.Key ")] = .ok config ∧ config.typeName = "L10n.Key" :=
    ⟨_, rfl, rfl⟩
  have htype : (Style.mk .public config.typeName true "  ").typeName = config.typeName := rfl
  have hindent : (Style.mk .public config.typeName true "  ").indent = Text.copies 2 ' ' := rfl
  obtain ⟨ls, hls, hfree, hfile⟩ :=
    memberLines_unbroken hextract (List.Subset.refl [r]) hconfig htype hindent
  refine ⟨r, config, ls, hextract, hconfig, hls, ?_, hfree, ?_⟩
  · rw [hname] at hls
    subst hr
    refine Except.ok.inj (hls.symm.trans ?_)
    decide +kernel
  · rw [hfile, hname]
    rfl

end Swift

end StringCatalog
