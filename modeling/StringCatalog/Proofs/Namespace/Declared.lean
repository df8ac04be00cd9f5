import StringCatalog.Proofs.Namespace.AccessPath

/-! The names that are declared for a tree: those of its nested enumerations and of its members, each
with the names of the enumerations around it. They are the beginnings of the access paths, so two
trees for one type declare a name twice exactly if access paths begin with the same name. -/

namespace StringCatalog.NamespaceTree

mutual

/-- The names that are declared for a tree, inside the enumerations at a path. -/
def declared (path : List Text) : NamespaceTree → List (List Text × Text)
  | node _ cs rs => (memberNames cs rs).map (fun m => (path, m.1)) ++ declaredInside path cs
termination_by structural tree => tree

/-- The names that are declared inside several namespaces. -/
def declaredInside (path : List Text) : List NamespaceTree → List (List Text × Text)
  | [] => []
  | c :: rest => c.declared (path ++ [groupName c.name]) ++ declaredInside path rest
termination_by structural cs => cs

end

theorem declaredInside_eq (path : List Text) (cs : List NamespaceTree) :
    declaredInside path cs = cs.flatMap fun c => c.declared (path ++ [groupName c.name]) := by
  induction cs with
  | nil => rfl
  | cons c cs ih => rw [declaredInside, ih, List.flatMap_cons]

variable {items : List Item} {depth : Nat} {path : List Text} {d : List Text × Text}

theorem declared_grow (depth : Nat) (n : Text) (items : List Item) (path : List Text) :
    (grow (depth + 1) n items).declared path =
      (memberNames ((Text.sortedDistinct (items.filterMap group?)).map fun m =>
          grow depth m (items.filterMap (under? m))) (sortByKey (items.filterMap leaf?))).map
        (fun m => (path, m.1)) ++
      (Text.sortedDistinct (items.filterMap group?)).flatMap fun m =>
        (grow depth m (items.filterMap (under? m))).declared (path ++ [groupName m]) := by
  rw [grow, declared, declaredInside_eq, List.flatMap_map]
  simp only [name_grow]

/-! ### The beginnings of access paths -/

/-- The members of a grown namespace itself. -/
theorem exists_mem_memberNames_iff {f : Text → NamespaceTree} (hf : ∀ m, (f m).name = m)
    {name : Text} : (∃ source, (name, source) ∈
      memberNames ((Text.sortedDistinct (items.filterMap group?)).map f)
        (sortByKey (items.filterMap leaf?))) ↔
      (∃ m ∈ items.filterMap group?, name = groupName m) ∨
        ∃ r ∈ items.filterMap leaf?, name = memberName r := by
  have hperm : (sortByKey (items.filterMap leaf?)).Perm (items.filterMap leaf?) :=
    List.mergeSort_perm _ _
  simp only [memberNames, List.mem_append, List.map_map, List.mem_map, Text.mem_sortedDistinct,
    hperm.mem_iff, Function.comp_apply, hf, Prod.mk.injEq]
  constructor
  · rintro ⟨source, ⟨m, hm, rfl, -⟩ | ⟨r, hr, rfl, -⟩⟩
    · exact .inl ⟨m, hm, rfl⟩
    · exact .inr ⟨r, hr, rfl⟩
  · rintro (⟨m, hm, rfl⟩ | ⟨r, hr, rfl⟩)
    · exact ⟨m, .inl ⟨m, hm, rfl, rfl⟩⟩
    · exact ⟨r.key, .inr ⟨r, hr, rfl, rfl⟩⟩

theorem itemPath_leaf (m : Text) (r : Resource) : itemPath ([m], r) = [memberName r] := rfl

/-- What is declared by one item, here or in the namespace that it is grouped by. -/
theorem prefix_itemPath_iff {item : Item} (hne : item.1 ≠ []) {q : List Text} {name : Text} :
    q ++ [name] <+: itemPath item ↔
      (q = [] ∧ ((∃ m ∈ group? item, name = groupName m) ∨ ∃ r ∈ leaf? item, name = memberName r)) ∨
      ∃ m inner q', under? m item = some inner ∧ q = groupName m :: q' ∧
        q' ++ [name] <+: itemPath inner := by
  match item with
  | ([], _) => contradiction
  | ([m], r) =>
    rw [itemPath_leaf]
    cases q with
    | nil => simp [group?, leaf?, under?]
    | cons g q => simp [under?]
  | (m :: next :: rest, r) =>
    rw [itemPath_cons]
    cases q with
    | nil => simp [group?, leaf?]
    | cons g q => simp [under?]

/-- A name is declared in a grown tree exactly if the way to it is the beginning of the path of an
item. The induction is on the depth: the items of an inner namespace have the rest of the way. -/
theorem mem_declared_grow (hdepth : ∀ item ∈ items, item.1.length ≤ depth)
    (hne : ∀ item ∈ items, item.1 ≠ []) (n : Text) (path : List Text) :
    d ∈ (grow depth n items).declared path ↔
      ∃ q, d.1 = path ++ q ∧ ∃ item ∈ items, q ++ [d.2] <+: itemPath item := by
  induction depth generalizing items n path with
  | zero =>
    obtain rfl := eq_nil_of_length_le hdepth hne
    simp [grow, declared, declaredInside, memberNames, sortByKey]
  | succ depth ih =>
    obtain ⟨q, name⟩ := d
    have hinner : ∀ m, (q, name) ∈
        (grow depth m (items.filterMap (under? m))).declared (path ++ [groupName m]) ↔
          ∃ q', q = path ++ groupName m :: q' ∧ ∃ item ∈ items, ∃ inner,
            under? m item = some inner ∧ q' ++ [name] <+: itemPath inner := by
      intro m
      rw [ih (length_le_of_mem_under? hdepth) (ne_nil_of_mem_under? m)]
      simp only [List.append_assoc, List.singleton_append, List.mem_filterMap]
      grind
    have hnames := fun m => name_grow depth m (items.filterMap (under? m))
    rw [declared_grow, List.mem_append, List.mem_flatMap]
    constructor
    · rintro (hmember | ⟨m, -, hmember⟩)
      · obtain ⟨⟨_, source⟩, hfound, heq⟩ := List.mem_map.mp hmember
        cases heq
        refine ⟨[], (List.append_nil path).symm, ?_⟩
        obtain ⟨m, hm, hname⟩ | ⟨r, hr, hname⟩ :=
          (exists_mem_memberNames_iff hnames).mp ⟨source, hfound⟩
        · obtain ⟨item, hitem, hgroup⟩ := List.mem_filterMap.mp hm
          exact ⟨item, hitem, (prefix_itemPath_iff (hne item hitem)).mpr
            (.inl ⟨rfl, .inl ⟨m, hgroup, hname⟩⟩)⟩
        · obtain ⟨item, hitem, hleaf⟩ := List.mem_filterMap.mp hr
          exact ⟨item, hitem, (prefix_itemPath_iff (hne item hitem)).mpr
            (.inl ⟨rfl, .inr ⟨r, hleaf, hname⟩⟩)⟩
      · obtain ⟨q', hq, item, hitem, inner, hunder, hprefix⟩ := (hinner m).mp hmember
        exact ⟨_, hq, item, hitem, (prefix_itemPath_iff (hne item hitem)).mpr
          (.inr ⟨m, inner, q', hunder, rfl, hprefix⟩)⟩
    · rintro ⟨q', hq, item, hitem, hprefix⟩
      rcases (prefix_itemPath_iff (hne item hitem)).mp hprefix with
        ⟨rfl, hname⟩ | ⟨m, inner, q', hunder, rfl, hinside⟩
      · obtain ⟨source, hmember⟩ := (exists_mem_memberNames_iff hnames).mpr (by
          rcases hname with ⟨m, hm, hname⟩ | ⟨r, hr, hname⟩
          · exact .inl ⟨m, List.mem_filterMap.mpr ⟨item, hitem, hm⟩, hname⟩
          · exact .inr ⟨r, List.mem_filterMap.mpr ⟨item, hitem, hr⟩, hname⟩)
        refine .inl (List.mem_map.mpr ⟨_, hmember, ?_⟩)
        rw [← hq.trans (List.append_nil path)]
      · refine .inr ⟨m, ?_, (hinner m).mpr ⟨q', hq, item, hitem, inner, hunder, hinside⟩⟩
        rw [Text.mem_sortedDistinct]
        exact mem_group?_of_under? hitem hunder

theorem ne_nil_of_mem_itemsOf {rs : List Resource} (hkeyed : ∀ r ∈ rs, r.Keyed) :
    ∀ item ∈ itemsOf rs, item.1 ≠ [] := by
  intro item hitem
  obtain ⟨r, hr, rfl⟩ := List.mem_map.mp hitem
  show r.components ≠ []
  rw [(hkeyed r hr).components]
  exact Text.splitWhere_ne_nil _ r.key

/-- A name is declared for resources exactly if the way to it is the beginning of an access path. -/
theorem mem_declared_iff {rs : List Resource} (hkeyed : ∀ r ∈ rs, r.Keyed) :
    d ∈ (ofResources rs).declared [] ↔ ∃ r ∈ rs, d.1 ++ [d.2] <+: r.accessPath := by
  obtain ⟨depth, heq, hdepth⟩ := ofResources_eq rs
  rw [heq, mem_declared_grow hdepth (ne_nil_of_mem_itemsOf hkeyed)]
  simp only [List.nil_append, exists_eq_left', itemsOf, List.mem_map, exists_exists_and_eq_and]
  rfl

/-! ### Names that are declared twice -/

/-- In a tree in which the members of each namespace have different names, no name is declared
twice. -/
theorem nodup_declared_grow (hdepth : ∀ item ∈ items, item.1.length ≤ depth)
    (hne : ∀ item ∈ items, item.1 ≠ []) (h : SeparateWithin depth items) (n : Text)
    (path : List Text) : ((grow depth n items).declared path).Nodup := by
  induction depth generalizing items n path with
  | zero =>
    obtain rfl := eq_nil_of_length_le hdepth hne
    simp [grow, declared, declaredInside, memberNames, sortByKey]
  | succ depth ih =>
    obtain ⟨hhere, hinside⟩ := h
    -- inside an enumeration its name is on the path, so nothing there meets the names here
    have hbelow : ∀ m, ∀ d ∈ (grow depth m (items.filterMap (under? m))).declared
        (path ++ [groupName m]), ∃ q, d.1 = path ++ groupName m :: q := by
      intro m d hd
      obtain ⟨q, hq, -⟩ := (mem_declared_grow (length_le_of_mem_under? hdepth)
        (ne_nil_of_mem_under? m) m _).mp hd
      exact ⟨q, by rw [hq, List.append_assoc, List.singleton_append]⟩
    rw [declared_grow, List.nodup_append]
    refine ⟨?_, List.nodup_flatMap.mpr ⟨fun m hm => ?_, ?_⟩, ?_⟩
    · have hnames := (nodup_memberNames_iff fun m =>
        name_grow depth m (items.filterMap (under? m))).mpr hhere
      have hmap := hnames.map (Prod.mk_right_injective path)
      rw [List.map_map] at hmap
      exact hmap
    · rw [Text.mem_sortedDistinct] at hm
      exact ih (length_le_of_mem_under? hdepth) (ne_nil_of_mem_under? m) (hinside m hm) _ _
    · refine (Text.nodup_sortedDistinct _).imp_of_mem fun {m k} hm hk hdifferent d hd hd' => ?_
      rw [Text.mem_sortedDistinct] at hm hk
      obtain ⟨q, hq⟩ := hbelow m d hd
      obtain ⟨q', hq'⟩ := hbelow k d hd'
      rw [hq] at hq'
      exact hdifferent (hhere.groups m hm k hk (List.cons.inj (List.append_cancel_left hq')).1)
    · rintro a ha b hb rfl
      obtain ⟨member, -, rfl⟩ := List.mem_map.mp ha
      obtain ⟨m, -, hb⟩ := List.mem_flatMap.mp hb
      obtain ⟨q, hq⟩ := hbelow m _ hb
      exact List.cons_ne_nil _ _ (List.self_eq_append_right.mp hq)

variable {rs others : List Resource}

theorem accessPath_ne_nil (r : Resource) : r.accessPath ≠ [] := by simp [Resource.accessPath]

theorem nodup_declared (hkeyed : ∀ r ∈ rs, r.Keyed) (h : (ofResources rs).check = .ok ()) :
    ((ofResources rs).declared []).Nodup := by
  obtain ⟨depth, heq, hdepth⟩ := ofResources_eq rs
  rw [heq]
  exact nodup_declared_grow hdepth (ne_nil_of_mem_itemsOf hkeyed)
    ((separateWithin_iff hdepth).mpr (check_ofResources_iff.mp h)) [] []

/-- Two trees without collisions. Together they declare no name twice exactly if no access path of
one begins with the same name as one of the other. -/
theorem nodup_declared_append_iff (hkeyed : ∀ r ∈ rs, r.Keyed) (hkeyed' : ∀ r ∈ others, r.Keyed)
    (h : (ofResources rs).check = .ok ()) (h' : (ofResources others).check = .ok ()) :
    ((ofResources rs).declared [] ++ (ofResources others).declared []).Nodup ↔
      ∀ a ∈ rs, ∀ b ∈ others, a.accessPath.head? ≠ b.accessPath.head? := by
  rw [List.nodup_append, and_iff_right (nodup_declared hkeyed h),
    and_iff_right (nodup_declared hkeyed' h')]
  constructor
  · intro hapart a ha b hb hsame
    obtain ⟨n, rest, hpath⟩ := List.exists_cons_of_ne_nil (accessPath_ne_nil a)
    have hfirst : ([], n) ∈ (ofResources rs).declared [] :=
      (mem_declared_iff hkeyed).mpr ⟨a, ha, by simp [hpath]⟩
    have hsecond : ([], n) ∈ (ofResources others).declared [] := by
      refine (mem_declared_iff hkeyed').mpr ⟨b, hb, ?_⟩
      rw [hpath] at hsame
      obtain ⟨rest', hpath'⟩ := List.head?_eq_some_iff.mp hsame.symm
      simp [hpath']
    exact hapart _ hfirst _ hsecond rfl
  · rintro hapart d hd d' hd' rfl
    obtain ⟨a, ha, hprefix⟩ := (mem_declared_iff hkeyed).mp hd
    obtain ⟨b, hb, hprefix'⟩ := (mem_declared_iff hkeyed').mp hd'
    have hfirst : ∀ {path : List Text}, d.1 ++ [d.2] <+: path →
        path.head? = (d.1 ++ [d.2]).head? := by
      rintro path ⟨rest, rfl⟩
      rw [List.head?_append_of_ne_nil _ (by simp)]
    exact hapart a ha b hb ((hfirst hprefix).trans (hfirst hprefix').symm)

end StringCatalog.NamespaceTree
