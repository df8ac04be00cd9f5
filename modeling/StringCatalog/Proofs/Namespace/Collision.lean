import StringCatalog.Namespace.Collision
import StringCatalog.Proofs.Text.Distinct

/-! When a tree of namespaces has no collisions. The resources of a namespace, as they are seen from
it, decide whether the names of its members are its own, so a tree without collisions has none
either when resources are taken out of it. -/

namespace StringCatalog.NamespaceTree

variable {items others : List Item}

/-- The name of a resource among the members of its namespace. -/
def memberName (r : Resource) : Text := Swift.bare r.identifier

/-- The name of a namespace among the members of the one around it. -/
def groupName (m : Text) : Text := Swift.bare (Swift.typeIdentifier m)

/-- The members of the namespace with these items have different names. -/
structure Separate (items : List Item) : Prop where
  groups : ∀ m ∈ items.filterMap group?, ∀ k ∈ items.filterMap group?,
    groupName m = groupName k → m = k
  leaves : ((items.filterMap leaf?).map memberName).Nodup
  mixed : ∀ m ∈ items.filterMap group?, ∀ r ∈ items.filterMap leaf?, groupName m ≠ memberName r

instance (items : List Item) : Decidable (Separate items) :=
  decidable_of_iff ((∀ m ∈ items.filterMap group?, ∀ k ∈ items.filterMap group?,
      groupName m = groupName k → m = k) ∧ ((items.filterMap leaf?).map memberName).Nodup ∧
        ∀ m ∈ items.filterMap group?, ∀ r ∈ items.filterMap leaf?, groupName m ≠ memberName r)
    ⟨fun ⟨groups, leaves, mixed⟩ => ⟨groups, leaves, mixed⟩, fun h => ⟨h.groups, h.leaves, h.mixed⟩⟩

theorem Separate.sublist (h : Separate items) (hsub : others.Sublist items) : Separate others := by
  have hgroups := (hsub.filterMap group?).subset
  have hleaves := hsub.filterMap leaf?
  refine ⟨fun m hm k hk => ?_, ?_, fun m hm r hr => ?_⟩
  · exact h.groups m (hgroups hm) k (hgroups hk)
  · exact (hleaves.map memberName).nodup h.leaves
  · exact h.mixed m (hgroups hm) r (hleaves.subset hr)

/-- The items of the namespace at a path, as they are seen from it. -/
def itemsAt : List Text → List Item → List Item
  | [], items => items
  | m :: path, items => itemsAt path (items.filterMap (under? m))

theorem itemsAt_sublist (hsub : others.Sublist items) (path : List Text) :
    (itemsAt path others).Sublist (itemsAt path items) := by
  induction path generalizing items others with
  | nil => exact hsub
  | cons m path ih => exact ih (hsub.filterMap (under? m))

/-! ### The members of one namespace -/

theorem collisionsAmong_eq_nil_iff {path : List Text} {members : List (Text × Text)} :
    collisionsAmong path members = [] ↔ (members.map (·.1)).Nodup :=
  Text.repeated_eq_nil_iff fun n sources => GenerationError.namespaceCollision (path ++ [n]) sources

/-- The names of a grown namespace's members: each group of items counts once. -/
theorem nodup_memberNames_iff {f : Text → NamespaceTree} (hf : ∀ m, (f m).name = m) :
    ((memberNames ((Text.sortedDistinct (items.filterMap group?)).map f)
      (sortByKey (items.filterMap leaf?))).map (·.1)).Nodup ↔ Separate items := by
  have hgroups : (((Text.sortedDistinct (items.filterMap group?)).map f).map
      fun c => (Swift.bare (Swift.typeIdentifier c.name), c.name)).map (·.1) =
        (Text.sortedDistinct (items.filterMap group?)).map groupName := by
    simp only [List.map_map]
    refine List.map_congr_left fun m _ => ?_
    simp only [Function.comp_apply, hf, groupName]
  have hleaves : ((sortByKey (items.filterMap leaf?)).map
      fun r => (Swift.bare r.identifier, r.key)).map (·.1) =
        (sortByKey (items.filterMap leaf?)).map memberName := by
    simp only [List.map_map]
    rfl
  have hperm : (sortByKey (items.filterMap leaf?)).Perm (items.filterMap leaf?) :=
    List.mergeSort_perm _ _
  rw [memberNames, List.map_append, hgroups, hleaves, List.nodup_append,
    (hperm.map memberName).nodup_iff, List.nodup_map_iff_inj_on (Text.nodup_sortedDistinct _)]
  simp only [Text.mem_sortedDistinct, List.mem_map, hperm.mem_iff]
  constructor
  · rintro ⟨hinj, hnodup, hdisjoint⟩
    exact ⟨hinj, hnodup, fun m hm r hr => hdisjoint _ ⟨m, hm, rfl⟩ _ ⟨r, hr, rfl⟩⟩
  · intro h
    refine ⟨h.groups, h.leaves, ?_⟩
    rintro _ ⟨m, hm, rfl⟩ _ ⟨r, hr, rfl⟩
    exact h.mixed m hm r hr

/-! ### Whole trees -/

theorem name_grow (depth : Nat) (n : Text) (items : List Item) : (grow depth n items).name = n := by
  cases depth <;> rfl

theorem childCollisions_eq_nil_iff {path : List Text} {cs : List NamespaceTree} :
    childCollisions path cs = [] ↔ ∀ c ∈ cs, c.collisions (path ++ [c.name]) = [] := by
  induction cs with
  | nil => simp [childCollisions]
  | cons c cs ih => simp [childCollisions, ih]

theorem length_of_under? {m : Text} {item inner : Item} (h : under? m item = some inner) :
    item.1.length = inner.1.length + 1 := by
  match item, h with
  | (k :: next :: rest, r), h =>
    simp only [under?] at h
    split at h
    · cases h
      rfl
    · contradiction

/-- Items below a name that no item is grouped by do not exist. -/
theorem filterMap_under?_eq_nil {m : Text} (h : m ∉ items.filterMap group?) :
    items.filterMap (under? m) = [] := by
  rw [List.filterMap_eq_nil_iff]
  intro item hitem
  match item with
  | ([], r) => rfl
  | ([_], r) => rfl
  | (k :: next :: rest, r) =>
    have hk : k ≠ m := by
      rintro rfl
      exact h (List.mem_filterMap.mpr ⟨_, hitem, rfl⟩)
    exact if_neg hk

theorem mem_group?_of_under? {m : Text} {item inner : Item} (hitem : item ∈ items)
    (h : under? m item = some inner) : m ∈ items.filterMap group? := by
  by_contra hm
  have hinner : inner ∈ items.filterMap (under? m) := List.mem_filterMap.mpr ⟨item, hitem, h⟩
  rw [filterMap_under?_eq_nil hm] at hinner
  contradiction

theorem itemsAt_nil (path : List Text) : itemsAt path [] = [] := by
  induction path with
  | nil => rfl
  | cons m path ih => exact ih

theorem separate_nil : Separate [] := by decide

/-- In the namespace with these items, and in those inside it down to a depth, the members have
different names. -/
def SeparateWithin : Nat → List Item → Prop
  | 0, items => Separate items
  | depth + 1, items => Separate items ∧
    ∀ m ∈ items.filterMap group?, SeparateWithin depth (items.filterMap (under? m))

instance decidableSeparateWithin : ∀ depth items, Decidable (SeparateWithin depth items)
  | 0, items => inferInstanceAs (Decidable (Separate items))
  | depth + 1, items =>
    have := decidableSeparateWithin depth
    inferInstanceAs (Decidable (Separate items ∧
      ∀ m ∈ items.filterMap group?, SeparateWithin depth (items.filterMap (under? m))))

theorem length_le_of_mem_under? {m : Text} {depth : Nat}
    (hdepth : ∀ item ∈ items, item.1.length ≤ depth + 1) :
    ∀ inner ∈ items.filterMap (under? m), inner.1.length ≤ depth := by
  intro inner hinner
  obtain ⟨item, hitem, hunder⟩ := List.mem_filterMap.mp hinner
  have := hdepth item hitem
  have := length_of_under? hunder
  omega

theorem filterMap_group?_eq_nil (h : ∀ item ∈ items, item.1.length ≤ 0) :
    items.filterMap group? = [] := by
  rw [List.filterMap_eq_nil_iff]
  intro item hitem
  have := h item hitem
  match item with
  | ([], r) => rfl

theorem separateWithin_iff {depth : Nat} (hdepth : ∀ item ∈ items, item.1.length ≤ depth) :
    SeparateWithin depth items ↔ ∀ p, Separate (itemsAt p items) := by
  -- below a name that is none of a group there are no items
  have hnone : ∀ m p, m ∉ items.filterMap group? → Separate (itemsAt (m :: p) items) := by
    intro m p hm
    rw [itemsAt, filterMap_under?_eq_nil hm, itemsAt_nil]
    exact separate_nil
  induction depth generalizing items with
  | zero =>
    constructor
    · intro h p
      cases p with
      | nil => exact h
      | cons m p => exact hnone m p (by simp [filterMap_group?_eq_nil hdepth])
    · exact fun h => h []
  | succ depth ih =>
    have hinner : ∀ m, SeparateWithin depth (items.filterMap (under? m)) ↔
        ∀ p, Separate (itemsAt (m :: p) items) := by
      intro m
      refine ih (length_le_of_mem_under? hdepth) fun k p hk => ?_
      rw [itemsAt, filterMap_under?_eq_nil hk, itemsAt_nil]
      exact separate_nil
    simp only [SeparateWithin, hinner]
    constructor
    · rintro ⟨hhere, hinside⟩ p
      cases p with
      | nil => exact hhere
      | cons m p =>
        by_cases hm : m ∈ items.filterMap group?
        · exact hinside m hm p
        · exact hnone m p hm
    · exact fun h => ⟨h [], fun m _ p => h (m :: p)⟩

/-- A grown tree has no collisions exactly if in all its namespaces the names are different. -/
theorem collisions_grow_eq_nil_iff {depth : Nat} (hdepth : ∀ item ∈ items, item.1.length ≤ depth)
    (n : Text) (path : List Text) :
    (grow depth n items).collisions path = [] ↔ SeparateWithin depth items := by
  induction depth generalizing items n path with
  | zero =>
    rw [grow, collisions, childCollisions, List.append_nil, collisionsAmong_eq_nil_iff,
      SeparateWithin, ← nodup_memberNames_iff (f := fun m => node m [] []) fun m => rfl,
      filterMap_group?_eq_nil hdepth]
    simp [Text.sortedDistinct]
  | succ depth ih =>
    rw [grow, collisions, List.append_eq_nil_iff, collisionsAmong_eq_nil_iff,
      nodup_memberNames_iff fun m => name_grow _ _ _, childCollisions_eq_nil_iff, SeparateWithin]
    refine and_congr_right fun _ => ?_
    simp only [List.forall_mem_map, Text.mem_sortedDistinct]
    exact forall₂_congr fun m _ => ih (length_le_of_mem_under? hdepth) _ _

theorem check_eq_ok_iff {tree : NamespaceTree} : tree.check = .ok () ↔ tree.collisions [] = [] := by
  unfold check
  cases tree.collisions [] <;> simp

theorem le_foldl_max {ns : List Nat} {bound n : Nat} (h : n ≤ bound ∨ n ∈ ns) :
    n ≤ ns.foldl max bound := by
  induction ns generalizing bound with
  | nil => simpa using h
  | cons k ns ih =>
    rw [List.foldl_cons]
    rcases h with hbound | hmem
    · exact ih (Or.inl (by omega))
    · rcases List.mem_cons.mp hmem with rfl | hmem
      · exact ih (Or.inl (by omega))
      · exact ih (Or.inr hmem)

/-- The items of the root. -/
def itemsOf (rs : List Resource) : List Item := rs.map fun r => (r.components, r)

theorem ofResources_eq (rs : List Resource) : ∃ depth,
    ofResources rs = grow depth [] (itemsOf rs) ∧
      ∀ item ∈ itemsOf rs, item.1.length ≤ depth := by
  refine ⟨((itemsOf rs).map (·.1.length)).foldl max 0, rfl, fun item hitem => ?_⟩
  exact le_foldl_max (Or.inr (List.mem_map_of_mem hitem))

/-- The tree of resources passes its check exactly if in all namespaces the names are different. -/
theorem check_ofResources_iff {rs : List Resource} :
    (ofResources rs).check = .ok () ↔ ∀ p, Separate (itemsAt p (itemsOf rs)) := by
  obtain ⟨depth, heq, hdepth⟩ := ofResources_eq rs
  rw [check_eq_ok_iff, heq, collisions_grow_eq_nil_iff hdepth, separateWithin_iff hdepth]

/-- Any depth that no key exceeds will do to find out whether the tree passes its check. -/
theorem check_of_separateWithin {rs : List Resource} (depth : Nat)
    (hdepth : ∀ item ∈ itemsOf rs, item.1.length ≤ depth)
    (h : SeparateWithin depth (itemsOf rs)) : (ofResources rs).check = .ok () :=
  check_ofResources_iff.mpr ((separateWithin_iff hdepth).mp h)

/-- Taking resources out makes no collision. -/
theorem check_sublist {rs kept : List Resource} (hsub : kept.Sublist rs)
    (h : (ofResources rs).check = .ok ()) : (ofResources kept).check = .ok () := by
  rw [check_ofResources_iff] at h ⊢
  intro p
  exact (h p).sublist (itemsAt_sublist (hsub.map _) p)

end StringCatalog.NamespaceTree
