import StringCatalog.Proofs.Namespace.Entries
import StringCatalog.Proofs.Text.Order

/-! Where resources stand in their tree. The components of a key but the last lead to the one
namespace that holds its resource, the namespaces in a namespace stand in ascending order of their
names, and its resources in ascending order of their keys in lower case. No namespace is empty but
perhaps the root. -/

namespace StringCatalog.NamespaceTree

/-- A namespace in a tree, with the names that lead to it. -/
inductive Reaches : NamespaceTree → List Text → NamespaceTree → Prop
  | here (tree : NamespaceTree) : Reaches tree [] tree
  | inside {tree c node : NamespaceTree} {path : List Text} (hc : c ∈ tree.children)
      (h : Reaches c path node) : Reaches tree (c.name :: path) node

/-- The namespace that names lead to, each looked up in the namespace of the one before. -/
def descend? : NamespaceTree → List Text → Option NamespaceTree
  | tree, [] => some tree
  | tree, m :: path => (tree.child? m).bind fun c => c.descend? path

/-- The namespaces of every namespace have different names, so looking names up finds what they lead
to. -/
theorem descend?_of_reaches {tree node : NamespaceTree} {path : List Text}
    (hnames : ∀ path node, Reaches tree path node → (node.children.map name).Nodup)
    (h : Reaches tree path node) : tree.descend? path = some node := by
  induction h with
  | here => rfl
  | @inside tree c node path hc _ ih =>
    have hchild : tree.child? c.name = some c := by
      unfold child?
      refine List.find?_eq_some_iff_append.mpr ⟨beq_self_eq_true _, ?_⟩
      obtain ⟨before, after, hsplit⟩ := List.append_of_mem hc
      refine ⟨before, after, hsplit, fun other hother => ?_⟩
      have hnodup := hnames [] tree (.here tree)
      rw [hsplit, List.map_append, List.map_cons, List.nodup_append] at hnodup
      have hne := hnodup.2.2 other.name (List.mem_map_of_mem hother) c.name List.mem_cons_self
      simpa using hne
    rw [descend?, hchild]
    exact ih fun path node h => hnames (c.name :: path) node (.inside hc h)

/-! ### Namespaces of a grown tree -/

variable {items : List Item} {depth : Nat} {n : Text} {path : List Text} {node : NamespaceTree}

theorem strings_grow (depth : Nat) (n : Text) (items : List Item) :
    (grow depth n items).strings = sortByKey (items.filterMap leaf?) := by
  cases depth <;> rfl

theorem children_grow (hdepth : ∀ item ∈ items, item.1.length ≤ depth) (n : Text) :
    (grow depth n items).children = (Text.sortedDistinct (items.filterMap group?)).map fun m =>
      grow (depth - 1) m (items.filterMap (under? m)) := by
  cases depth with
  | zero =>
    simp [filterMap_group?_eq_nil hdepth, Text.sortedDistinct, grow, children]
  | succ depth => rfl

theorem length_le_pred_of_mem_under? {m : Text} (hdepth : ∀ item ∈ items, item.1.length ≤ depth) :
    ∀ inner ∈ items.filterMap (under? m), inner.1.length ≤ depth - 1 :=
  length_le_of_mem_under? fun item hitem => (hdepth item hitem).trans (by omega)

/-- An item that is grouped by a name is seen from the namespace of that name. -/
theorem exists_under?_of_group? {item : Item} {m : Text} (h : group? item = some m) :
    ∃ inner, under? m item = some inner := by
  match item, h with
  | (k :: next :: rest, r), h =>
    cases h
    exact ⟨(next :: rest, r), if_pos rfl⟩

/-- A namespace of a grown tree is grown from the items at its path, and there are such. -/
theorem eq_grow_of_reaches (hdepth : ∀ item ∈ items, item.1.length ≤ depth)
    (h : Reaches (grow depth n items) path node) :
    node = grow (depth - path.length) (path.getLastD n) (itemsAt path items) ∧
      (∀ item ∈ itemsAt path items, item.1.length ≤ depth - path.length) ∧
        (path ≠ [] → itemsAt path items ≠ []) := by
  generalize htree : grow depth n items = tree at h
  induction h generalizing depth n items with
  | here => exact ⟨htree.symm, hdepth, fun h => absurd rfl h⟩
  | @inside tree c node path hc _ ih =>
    rw [← htree, children_grow hdepth] at hc
    obtain ⟨m, hm, rfl⟩ := List.mem_map.mp hc
    rw [Text.mem_sortedDistinct] at hm
    obtain ⟨hnode, hlength, hsome⟩ := ih (length_le_pred_of_mem_under? hdepth) rfl
    have hpred : depth - 1 - path.length = depth - (path.length + 1) := by omega
    rw [hpred] at hnode hlength
    rw [name_grow]
    refine ⟨hnode.trans ?_, hlength, fun _ => ?_⟩
    · rw [List.length_cons, List.getLastD_cons]
      rfl
    · by_cases hpath : path = []
      · subst hpath
        obtain ⟨item, hitem, hgroup⟩ := List.mem_filterMap.mp hm
        obtain ⟨inner, hunder⟩ := exists_under?_of_group? hgroup
        exact List.ne_nil_of_mem (List.mem_filterMap.mpr ⟨item, hitem, hunder⟩)
      · exact hsome hpath

/-- There is a namespace at every path that leads towards an item. -/
theorem exists_reaches (hdepth : ∀ item ∈ items, item.1.length ≤ depth) (n : Text) {item : Item}
    (hitem : item ∈ items) (hpath : path <+: item.1.dropLast) :
    ∃ node, Reaches (grow depth n items) path node := by
  induction path generalizing depth n items item with
  | nil => exact ⟨_, .here _⟩
  | cons m path ih =>
    match item, hpath with
    | (k :: next :: rest, r), hpath =>
      obtain ⟨rfl, hrest⟩ := List.cons_prefix_cons.mp hpath
      have hunder : under? m (m :: next :: rest, r) = some (next :: rest, r) := if_pos rfl
      obtain ⟨node, hnode⟩ := ih (length_le_pred_of_mem_under? hdepth) m
        (List.mem_filterMap.mpr ⟨_, hitem, hunder⟩) hrest
      have hchild : grow (depth - 1) m (items.filterMap (under? m)) ∈
          (grow depth n items).children := by
        rw [children_grow hdepth]
        refine List.mem_map_of_mem ?_
        rw [Text.mem_sortedDistinct]
        exact mem_group?_of_under? hitem hunder
      have hinside := Reaches.inside hchild hnode
      rw [name_grow] at hinside
      exact ⟨node, hinside⟩

/-! ### The resources of one namespace -/

/-- The resource of an item, if it belongs to the namespace at a path itself. -/
def leafAt? : List Text → Item → Option Resource
  | [], item => leaf? item
  | m :: path, item => (under? m item).bind (leafAt? path)

theorem filterMap_leaf?_itemsAt (path : List Text) (items : List Item) :
    (itemsAt path items).filterMap leaf? = items.filterMap (leafAt? path) := by
  induction path generalizing items with
  | nil => rfl
  | cons m path ih =>
    rw [itemsAt, ih, List.filterMap_filterMap]
    rfl

/-- An item belongs to the namespace that its components but the last lead to. -/
theorem leafAt?_eq {item : Item} (hne : item.1 ≠ []) (path : List Text) :
    leafAt? path item = if item.1.dropLast = path then some item.2 else none := by
  induction path generalizing item with
  | nil =>
    match item with
    | ([], r) => contradiction
    | ([_], r) => rfl
    | (k :: next :: rest, r) => rfl
  | cons m path ih =>
    rw [leafAt?]
    match item with
    | ([], r) => contradiction
    | ([_], r) => rfl
    | (k :: next :: rest, r) =>
      by_cases hk : k = m
      · have hinner : leafAt? path (next :: rest, r) =
            if (next :: rest).dropLast = path then some r else none :=
          ih (List.cons_ne_nil next rest)
        simpa [under?, hk] using hinner
      · simp [under?, hk]

/-- The resources whose keys have a path in front of the last component. -/
def placedAt (path : List Text) (rs : List Resource) : List Resource :=
  rs.filter fun r => r.components.dropLast == path

theorem leaves_itemsAt {rs : List Resource} (hne : ∀ r ∈ rs, r.components ≠ []) (path : List Text) :
    (itemsAt path (itemsOf rs)).filterMap leaf? = placedAt path rs := by
  rw [filterMap_leaf?_itemsAt, itemsOf, List.filterMap_map, placedAt, ← List.filterMap_eq_filter]
  refine List.filterMap_congr fun r hr => ?_
  rw [Function.comp_apply, leafAt?_eq (hne r hr)]
  simp [Option.guard]

theorem sortByKey_trans (r s t : Resource) : Text.le r.key.lower s.key.lower = true →
    Text.le s.key.lower t.key.lower = true → Text.le r.key.lower t.key.lower = true :=
  Text.le_trans _ _ _

/-- Sorting by key in lower case leaves keys that are equal then in their order. -/
theorem filter_sortByKey (k : Text) (rs : List Resource) :
    (sortByKey rs).filter (·.key.lower == k) = rs.filter (·.key.lower == k) := by
  refine Sequence.filter_mergeSort sortByKey_trans (fun r s => Text.le_total _ _)
    (fun r s hr hs => ?_) rs
  rw [eq_of_beq hr, eq_of_beq hs, Text.le_iff]

theorem pairwise_sortByKey (rs : List Resource) :
    (sortByKey rs).Pairwise fun r s => r.key.lower.codes ≤ s.key.lower.codes := by
  have hle := List.pairwise_mergeSort sortByKey_trans (fun r s => Text.le_total _ _) rs
  exact hle.imp Text.le_iff.mp

/-! ### Trees of resources -/

/-- The tree holds the resources, each once and where it belongs, and everything in it is in order.
-/
structure IsTreeOf (rs : List Resource) (tree : NamespaceTree) : Prop where
  /-- Written out, the tree gives the resources, each with the path of its namespace. -/
  entries : (tree.entries []).Perm (rs.map fun r => (r.components.dropLast, r))
  /-- Inner namespaces stand in strictly ascending order of their names. -/
  names : ∀ path node, Reaches tree path node →
    (node.children.map name).Pairwise fun m k => m.codes < k.codes
  /-- Every namespace is found by the names that lead to it. -/
  found : ∀ path node, Reaches tree path node → tree.descend? path = some node
  /-- Resources stand in ascending order of their keys in lower case. -/
  keys : ∀ path node, Reaches tree path node →
    node.strings.Pairwise fun r s => r.key.lower.codes ≤ s.key.lower.codes
  /-- A namespace holds the resources whose keys have its path in front of the last component. Of
  keys that are equal in lower case, the order is that of the list. -/
  ties : ∀ path node, Reaches tree path node → ∀ k,
    node.strings.filter (·.key.lower == k) = (placedAt path rs).filter (·.key.lower == k)
  /-- The components of a key but the last lead to the only namespace that holds its resource. -/
  placed : ∀ r ∈ rs, ∃ node, tree.descend? r.components.dropLast = some node ∧ r ∈ node.strings ∧
    ∀ path other, Reaches tree path other → r ∈ other.strings →
      path = r.components.dropLast ∧ other = node
  /-- Below every namespace but the root there is a resource. -/
  inhabited : ∀ path node, Reaches tree path node → path ≠ [] → node.entries path ≠ []

section

variable {rs : List Resource}

theorem ne_nil_of_mem_itemsAt (hne : ∀ item ∈ items, item.1 ≠ []) (path : List Text) :
    ∀ item ∈ itemsAt path items, item.1 ≠ [] := by
  induction path generalizing items with
  | nil => exact hne
  | cons m path ih => exact ih (ne_nil_of_mem_under? m)

theorem components_ne_nil (hne : ∀ r ∈ rs, r.components ≠ []) :
    ∀ item ∈ itemsOf rs, item.1 ≠ [] := by
  intro item hitem
  obtain ⟨r, hr, rfl⟩ := List.mem_map.mp hitem
  exact hne r hr

/-- A namespace in the tree of resources is grown from what is at its path. -/
theorem exists_grow_of_reaches (h : Reaches (ofResources rs) path node) :
    ∃ depth n, node = grow depth n (itemsAt path (itemsOf rs)) ∧
      (∀ item ∈ itemsAt path (itemsOf rs), item.1.length ≤ depth) ∧
        (path ≠ [] → itemsAt path (itemsOf rs) ≠ []) := by
  obtain ⟨depth, heq, hdepth⟩ := ofResources_eq rs
  exact ⟨_, _, eq_grow_of_reaches hdepth (heq ▸ h)⟩

theorem pairwise_names (h : Reaches (ofResources rs) path node) :
    (node.children.map name).Pairwise fun m k => m.codes < k.codes := by
  obtain ⟨depth, n, rfl, hdepth, -⟩ := exists_grow_of_reaches h
  have hnames : ∀ ms : List Text, (ms.map fun m =>
      grow (depth - 1) m ((itemsAt path (itemsOf rs)).filterMap (under? m))).map name = ms := by
    intro ms
    simp [Function.comp_def, name_grow]
  rw [children_grow hdepth, hnames]
  exact Text.pairwise_sortedDistinct _

theorem strings_of_reaches (hne : ∀ r ∈ rs, r.components ≠ [])
    (h : Reaches (ofResources rs) path node) : node.strings = sortByKey (placedAt path rs) := by
  obtain ⟨depth, n, rfl, -⟩ := exists_grow_of_reaches h
  rw [strings_grow, leaves_itemsAt hne]

theorem mem_strings_iff (hne : ∀ r ∈ rs, r.components ≠ [])
    (h : Reaches (ofResources rs) path node) {r : Resource} :
    r ∈ node.strings ↔ r ∈ rs ∧ r.components.dropLast = path := by
  rw [strings_of_reaches hne h, sortByKey, List.mem_mergeSort, placedAt, List.mem_filter, beq_iff_eq]

theorem entries_ne_nil_of_reaches (hne : ∀ r ∈ rs, r.components ≠ [])
    (h : Reaches (ofResources rs) path node) (hpath : path ≠ []) : node.entries path ≠ [] := by
  obtain ⟨depth, n, rfl, hdepth, hsome⟩ := exists_grow_of_reaches h
  have hperm := perm_entries_grow hdepth
    (ne_nil_of_mem_itemsAt (components_ne_nil hne) path) n path
  intro hnil
  rw [hnil] at hperm
  exact hsome hpath (List.map_eq_nil_iff.mp hperm.nil_eq.symm)

end

/-- The tree of resources is as it should be, however many components their keys have and whatever
these are, the empty text included. -/
theorem isTreeOf_ofResources {rs : List Resource} (hne : ∀ r ∈ rs, r.components ≠ []) :
    IsTreeOf rs (ofResources rs) := by
  have hfound : ∀ path node, Reaches (ofResources rs) path node →
      (ofResources rs).descend? path = some node := fun path node h =>
    descend?_of_reaches (fun path node h => (pairwise_names h).imp fun hlt heq => by
      subst heq
      exact lt_irrefl _ hlt) h
  refine ⟨perm_entries hne, fun path node => pairwise_names, hfound, fun path node h => ?_,
    fun path node h k => ?_, fun r hr => ?_, fun path node => entries_ne_nil_of_reaches hne⟩
  · rw [strings_of_reaches hne h]
    exact pairwise_sortByKey _
  · rw [strings_of_reaches hne h]
    exact filter_sortByKey k _
  · obtain ⟨depth, heq, hdepth⟩ := ofResources_eq rs
    obtain ⟨node, hnode⟩ := exists_reaches hdepth [] (List.mem_map_of_mem hr) List.prefix_rfl
    rw [← heq] at hnode
    refine ⟨node, hfound _ _ hnode, (mem_strings_iff hne hnode).mpr ⟨hr, rfl⟩,
      fun path other hother hmem => ?_⟩
    obtain ⟨-, rfl⟩ := (mem_strings_iff hne hother).mp hmem
    exact ⟨rfl, Option.some.inj ((hfound _ _ hother).symm.trans (hfound _ _ hnode))⟩

theorem isTreeOf_ofResources_settings :
    let rs := ["settings.title", "settings", "Settings", "settings.title.main", "settings..b",
      "settings.Title", ".a"].map fun key : String => Resource.ofKey key
    (∀ r ∈ rs, r.components ≠ []) ∧ IsTreeOf rs (ofResources rs) := by
  intro rs
  have hne : ∀ r ∈ rs, r.components ≠ [] := by decide +kernel
  exact ⟨hne, isTreeOf_ofResources hne⟩

end StringCatalog.NamespaceTree
