import StringCatalog.Proofs.Catalog.Extraction
import StringCatalog.Proofs.Swift.DefaultValue
import StringCatalog.Swift.Declaration

/-! Declarations of extracted resources: there always is one, and the default value in it refers to
the parameters that it declares. -/

namespace StringCatalog.Swift

variable {r : Resource}

/-- The parameter of an argument. -/
def parameter (a : Argument) : Text := "_ " ++ a.name ++ ": " ++ typeOf a.kind

theorem header_of_mem {a : Argument} (h : a ∈ r.arguments) (style : Style) :
    header style r = style.accessLevel.modifier ++ " static func " ++ r.identifier ++ "(" ++
      Text.join ", " (r.arguments.map parameter) ++ ") -> " ++ style.typeName ++ " \x7b" := by
  have harguments : r.hasArguments = true := by
    cases hempty : r.arguments with
    | nil => simp [hempty] at h
    | cons first rest => simp [Resource.hasArguments, hempty]
  rw [header, if_pos harguments]
  rfl

/-- A resource has a declaration if its default value has a literal. -/
theorem exists_declaration {literal : Text}
    (h : defaultValueLiteral r.defaultValue defaultDelimiter = .ok literal) (style : Style) :
    ∃ lines, declaration style r = .ok lines ∧ header style r ∈ lines := by
  cases hinclude : style.includeDefaultValue with
  | false =>
    simp [declaration, constructorCall, callArguments, hinclude, bind, Except.bind]
  | true =>
    simp [declaration, constructorCall, callArguments, hinclude, h, bind, Except.bind]

/-- The default value of an extracted resource. Its slots do not collide, and the argument with the
name of a slot is the one of the placeholder, with its kind. So it has a literal with any delimiter,
and the member has a declaration in any style. The names that the literal refers to are those of the
slots, and the header declares each as a parameter of the type of its placeholder's kind. -/
theorem declaration_of_toResource {e : CatalogEntry} (h : e.toResource = .ok r) :
    ∃ slotted, (∀ key, r.defaultValue.slots key = .ok slotted) ∧
      slotted.map (·.1) = r.defaultValue.placeholders ∧
      (∀ s ∈ slotted, ∀ a, a ∈ r.arguments ∧ a.name = Argument.nameAt s.2 ↔
        a = ⟨Argument.nameAt s.2, s.1.kind, s.2⟩) ∧
      (∀ minimum, ∃ literal, defaultValueLiteral r.defaultValue minimum = .ok literal) ∧
      (∀ n, ∃ literal parts, defaultValueLiteral r.defaultValue (signs n) = .ok literal ∧
        readLiteral literal = some (parts, []) ∧
          parts.filterMap LiteralPart.name? = slotted.map fun s => Argument.nameAt s.2) ∧
      ∀ style, ∃ lines, declaration style r = .ok lines ∧ header style r ∈ lines ∧
        ∀ s ∈ slotted, "_ " ++ Argument.nameAt s.2 ++ ": " ++ typeOf s.1.kind ∈
          r.arguments.map parameter ∧
          header style r = style.accessLevel.modifier ++ " static func " ++ r.identifier ++ "(" ++
            Text.join ", " (r.arguments.map parameter) ++ ") -> " ++ style.typeName ++ " \x7b" := by
  obtain ⟨slotted, hslots, harguments⟩ := e.exists_slots_defaultValue h []
  have hplaceholders := Template.map_fst_slots hslots
  refine ⟨slotted, Template.slots_congr hslots, hplaceholders, fun s hs => (harguments s hs).2,
    exists_defaultValueLiteral hslots, fun n => ?_, fun style => ?_⟩
  · obtain ⟨literal, hliteral, hread⟩ :=
      readLiteral_partsOf hslots (fun s hs => (harguments s hs).1) n
    exact ⟨literal, _, hliteral, hread, filterMap_name?_partsOf hplaceholders⟩
  · obtain ⟨literal, hliteral⟩ := exists_defaultValueLiteral hslots defaultDelimiter
    obtain ⟨lines, hlines, hheader⟩ := exists_declaration hliteral style
    refine ⟨lines, hlines, hheader, fun s hs => ?_⟩
    have hmem := (((harguments s hs).2 _).mpr rfl).1
    exact ⟨List.mem_map_of_mem hmem, header_of_mem hmem style⟩

theorem declaration_of_toResource_items : ∃ r slotted literal parts,
    CatalogEntry.toResource ⟨"items", some "%#@n@ left", [], [⟨"n", "lld", none,
      [("plural.one", "%arg item"), ("plural.other", "%arg items")]⟩], none, .null⟩ = .ok r ∧
    r.defaultValue.slots [] = .ok slotted ∧ slotted.map (·.2) = [1] ∧
    r.arguments.map parameter = ["_ arg1: Int"] ∧
    defaultValueLiteral r.defaultValue (signs 1) = .ok literal ∧
    readLiteral literal = some (parts, []) ∧
    parts.filterMap LiteralPart.name? = ["arg1"] := by
  have hresource : CatalogEntry.toResource ⟨"items", some "%#@n@ left", [], [⟨"n", "lld", none,
      [("plural.one", "%arg item"), ("plural.other", "%arg items")]⟩], none, .null⟩ =
      .ok ⟨"items", "items", ["items"], [.placeholder ⟨.int, "%lld", none⟩, .literal " items left"],
        [⟨"arg1", .int, 1⟩], none⟩ := by
    decide +kernel
  obtain ⟨slotted, hslots, -, -, -, hliterals, -⟩ := declaration_of_toResource hresource
  obtain ⟨literal, parts, hliteral, hread, hnames⟩ := hliterals 1
  have hslotted : slotted = [(⟨.int, "%lld", none⟩, 1)] :=
    (Except.ok.inj (hslots [])).symm.trans rfl
  subst hslotted
  exact ⟨_, _, literal, parts, hresource, hslots [], rfl, rfl, hliteral, hread, hnames⟩

end StringCatalog.Swift
