import StringCatalog.Proofs.Namespace.Entries
import StringCatalog.Proofs.Swift.Declaration
import StringCatalog.Swift.Source

/-! When resources have a source file. Extracted resources always have declarations, so only keys
with too many components and colliding names stand in the way. -/

namespace StringCatalog.Swift

/-! ### Extracted resources -/

section Extracted

variable {e : CatalogEntry} {r : Resource} {rs : List Resource}

theorem keyed_of_toResource (h : e.toResource = .ok r) : r.Keyed := by
  obtain ⟨maps, -, h⟩ := Sequence.bind_eq_ok_iff.mp h
  obtain ⟨variants, -, h⟩ := Sequence.bind_eq_ok_iff.mp h
  obtain ⟨arguments, -, h⟩ := Sequence.bind_eq_ok_iff.mp h
  obtain ⟨defaultValue, -, h⟩ := Sequence.bind_eq_ok_iff.mp h
  cases h
  exact ⟨rfl, rfl⟩

theorem exists_declaration_of_toResource (h : e.toResource = .ok r) (style : Style) :
    ∃ lines, declaration style r = .ok lines := by
  obtain ⟨slotted, hslots, -⟩ := e.exists_slots_defaultValue h []
  obtain ⟨literal, hliteral⟩ := exists_defaultValueLiteral hslots defaultDelimiter
  obtain ⟨lines, hlines, -⟩ := exists_declaration hliteral style
  exact ⟨lines, hlines⟩

/-- The entries of the tree of extracted resources are these. -/
theorem perm_entries_of_toResource (hrs : ∀ r ∈ rs, ∃ e : CatalogEntry, e.toResource = .ok r) :
    ((NamespaceTree.ofResources rs).entries []).Perm
      (rs.map fun r => (r.components.dropLast, r)) := by
  refine NamespaceTree.perm_entries fun r hr => ?_
  obtain ⟨e, he⟩ := hrs r hr
  rw [(keyed_of_toResource he).components]
  exact Text.splitWhere_ne_nil _ r.key

theorem mem_of_mem_entries (hrs : ∀ r ∈ rs, ∃ e : CatalogEntry, e.toResource = .ok r)
    {entry : List Text × Resource} (h : entry ∈ (NamespaceTree.ofResources rs).entries []) :
    entry.2 ∈ rs := by
  obtain ⟨r, hr, rfl⟩ := List.mem_map.mp ((perm_entries_of_toResource hrs).mem_iff.mp h)
  exact hr

end Extracted

/-! ### Trees and files -/

variable {style : Style}

mutual

/-- A namespace whose entries have declarations has lines. -/
theorem exists_memberLines (tree : NamespaceTree) (path : List Text)
    (h : ∀ entry ∈ tree.entries path, ∃ lines, declaration style entry.2 = .ok lines) :
    ∃ ls, memberLines style tree = .ok ls := by
  match tree with
  | .node name cs rs =>
    rw [NamespaceTree.entries] at h
    obtain ⟨enums, henums⟩ := exists_enumBlocks cs path fun entry hentry =>
      h entry (List.mem_append_left _ hentry)
    obtain ⟨members, hmembers⟩ := Sequence.exists_mapM_eq_ok fun r hr =>
      h (path, r) (List.mem_append_right _ (List.mem_map_of_mem hr))
    rw [memberLines]
    exact ⟨_, Sequence.bind_eq_ok_iff.mpr ⟨enums, henums, Sequence.bind_eq_ok_iff.mpr
      ⟨members, hmembers, rfl⟩⟩⟩
termination_by structural tree

theorem exists_enumBlocks (cs : List NamespaceTree) (path : List Text)
    (h : ∀ entry ∈ NamespaceTree.childEntries path cs,
      ∃ lines, declaration style entry.2 = .ok lines) :
    ∃ blocks, enumBlocks style cs = .ok blocks := by
  match cs with
  | [] => exact ⟨[], rfl⟩
  | c :: rest =>
    rw [NamespaceTree.childEntries] at h
    obtain ⟨body, hbody⟩ := exists_memberLines c (path ++ [c.name]) fun entry hentry =>
      h entry (List.mem_append_left _ hentry)
    obtain ⟨later, hlater⟩ := exists_enumBlocks rest path fun entry hentry =>
      h entry (List.mem_append_right _ hentry)
    rw [enumBlocks]
    exact ⟨_, Sequence.bind_eq_ok_iff.mpr ⟨body, hbody, Sequence.bind_eq_ok_iff.mpr
      ⟨later, hlater, rfl⟩⟩⟩
termination_by structural cs

end

variable {deepest : Nat} {rs : List Resource} {table text : Text}

/-- What a source file tells of the resources. -/
theorem check_of_source (h : source deepest style table rs = .ok text) :
    NamespaceTree.isTooDeep deepest rs [] = false ∧
      (NamespaceTree.ofResources rs).check = .ok () := by
  unfold source at h
  split at h
  · contradiction
  · rename_i hdeep
    obtain ⟨⟨⟩, hcheck, -⟩ := Sequence.bind_eq_ok_iff.mp (Sequence.mapError_eq_ok_iff.mp h)
    exact ⟨by simpa using hdeep, hcheck⟩

/-- Extracted resources have a source file in any style, unless keys have too many components or
names collide. -/
theorem exists_source (hrs : ∀ r ∈ rs, ∃ e : CatalogEntry, e.toResource = .ok r)
    (hdeep : NamespaceTree.isTooDeep deepest rs [] = false)
    (hcheck : (NamespaceTree.ofResources rs).check = .ok ()) (style : Style) (table : Text) :
    ∃ text, source deepest style table rs = .ok text := by
  have hdeclaration : ∀ entry ∈ (NamespaceTree.ofResources rs).entries [],
      ∃ lines, declaration style entry.2 = .ok lines := by
    intro entry hentry
    obtain ⟨e, he⟩ := hrs _ (mem_of_mem_entries hrs hentry)
    exact exists_declaration_of_toResource he style
  obtain ⟨body, hbody⟩ := exists_memberLines _ [] hdeclaration
  have hnot : ¬NamespaceTree.isTooDeep deepest rs [] = true := by simp [hdeep]
  rw [source, if_neg hnot]
  exact ⟨_, Sequence.mapError_eq_ok_iff.mpr (Sequence.bind_eq_ok_iff.mpr ⟨(), hcheck,
    Sequence.bind_eq_ok_iff.mpr ⟨body, hbody, rfl⟩⟩)⟩

end StringCatalog.Swift
