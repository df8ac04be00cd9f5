import StringCatalog.Proofs.Namespace.AccessPath

/-! The entries of a tree. Every resource is among them exactly once, and stands in the namespace
that the components of its key name. -/

namespace StringCatalog

namespace NamespaceTree

/-- The entry that an item of the namespace at a path comes to. -/
def entryOf (path : List Text) (item : Item) : List Text × Resource :=
  (path ++ item.1.dropLast, item.2)

theorem childEntries_eq (path : List Text) (cs : List NamespaceTree) :
    childEntries path cs = cs.flatMap fun c => c.entries (path ++ [c.name]) := by
  induction cs with
  | nil => rfl
  | cons c cs ih => rw [childEntries, ih, List.flatMap_cons]

/-- The resources below a name, as entries. -/
theorem map_under? (path : List Text) (m : Text) (items : List Item) :
    (items.filterMap (under? m)).map (entryOf (path ++ [m])) =
      (items.filter fun item => group? item == some m).map (entryOf path) := by
  induction items with
  | nil => rfl
  | cons item items ih =>
    match item with
    | ([], r) => exact ih
    | ([_], r) => exact ih
    | (k :: next :: rest, r) =>
      by_cases hk : k = m
      · subst hk
        simp [under?, group?, entryOf, ih]
      · simp [under?, group?, hk, ih]

/-- The resources of the namespace itself, as entries. -/
theorem map_leaf? (path : List Text) {items : List Item} (hne : ∀ item ∈ items, item.1 ≠ []) :
    (items.filterMap leaf?).map (path, ·) =
      (items.filter fun item => group? item == none).map (entryOf path) := by
  induction items with
  | nil => rfl
  | cons item items ih =>
    have hrest := ih fun other hother => hne other (List.mem_cons_of_mem item hother)
    match item with
    | ([], r) => exact absurd rfl (hne _ List.mem_cons_self)
    | ([_], r) => simp [leaf?, group?, entryOf, hrest]
    | (k :: next :: rest, r) =>
      rw [List.filterMap_cons_none rfl, List.filter_cons_of_neg (by simp [group?])]
      exact hrest

/-- The entries of a grown tree are its items. -/
theorem perm_entries_grow {depth : Nat} {items : List Item}
    (hdepth : ∀ item ∈ items, item.1.length ≤ depth) (hne : ∀ item ∈ items, item.1 ≠ [])
    (n : Text) (path : List Text) :
    ((grow depth n items).entries path).Perm (items.map (entryOf path)) := by
  induction depth generalizing items n path with
  | zero =>
    obtain rfl := eq_nil_of_length_le hdepth hne
    simp [grow, entries, childEntries, sortByKey]
  | succ depth ih =>
    have hgroups : ∀ m, ((grow depth m (items.filterMap (under? m))).entries (path ++ [m])).Perm
        ((items.filter fun item => group? item == some m).map (entryOf path)) := by
      intro m
      rw [← map_under?]
      exact ih (length_le_of_mem_under? hdepth) (ne_nil_of_mem_under? m) m (path ++ [m])
    have hleaves : ((sortByKey (items.filterMap leaf?)).map (path, ·)).Perm
        ((items.filter fun item => group? item == none).map (entryOf path)) := by
      rw [← map_leaf? path hne]
      exact (List.mergeSort_perm _ _).map _
    have hmem : ∀ item ∈ items, ∀ m ∈ group? item,
        m ∈ Text.sortedDistinct (items.filterMap group?) := by
      intro item hitem m hm
      rw [Text.mem_sortedDistinct]
      exact List.mem_filterMap.mpr ⟨item, hitem, hm⟩
    have hpartition :=
      (Sequence.perm_flatMap_filter (Text.nodup_sortedDistinct _) hmem).map (entryOf path)
    rw [List.map_append, List.map_flatMap] at hpartition
    rw [grow, entries, childEntries_eq, List.flatMap_map]
    simp only [name_grow]
    exact ((List.Perm.flatMap_left _ fun m _ => hgroups m).append hleaves).trans hpartition

/-- The entries of the tree of resources are these, each in the namespace of its key. -/
theorem perm_entries {rs : List Resource} (h : ∀ r ∈ rs, r.components ≠ []) :
    ((ofResources rs).entries []).Perm (rs.map fun r => (r.components.dropLast, r)) := by
  obtain ⟨depth, heq, hdepth⟩ := ofResources_eq rs
  have hne : ∀ item ∈ itemsOf rs, item.1 ≠ [] := by
    intro item hitem
    obtain ⟨r, hr, rfl⟩ := List.mem_map.mp hitem
    exact h r hr
  have hperm := perm_entries_grow hdepth hne [] []
  rw [itemsOf, List.map_map] at hperm
  rw [heq]
  exact hperm

end NamespaceTree

end StringCatalog
