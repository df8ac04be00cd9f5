import Mathlib.Data.List.Nodup
import StringCatalog.Proofs.Namespace.Placement

/-! All collisions of a tree. There is one for every name that several members of one namespace
have, with the members in their order; the collisions of a namespace come before those inside it,
and in one namespace they come in ascending order of the names. -/

namespace StringCatalog.NamespaceTree

/-- What holds of a namespace if it holds of those in it holds of every namespace. -/
@[elab_as_elim]
theorem tree_induction {motive : NamespaceTree → Prop}
    (node : ∀ n cs rs, (∀ c ∈ cs, motive c) → motive (.node n cs rs)) :
    ∀ tree, motive tree
  | .node n cs rs => node n cs rs fun c hc =>
    have := List.sizeOf_lt_of_mem hc
    tree_induction node c
termination_by tree => sizeOf tree
decreasing_by
  rw [NamespaceTree.node.sizeOf_spec]
  omega

/-! ### The namespaces of a tree -/

mutual

/-- The namespaces of a tree with the names that lead to them, each before those in it. -/
def located : NamespaceTree → List (List Text × NamespaceTree)
  | node n cs rs => ([], node n cs rs) :: locatedInside cs
termination_by structural tree => tree

/-- The namespaces of several trees that stand side by side. -/
def locatedInside : List NamespaceTree → List (List Text × NamespaceTree)
  | [] => []
  | c :: rest => c.located.map (fun s => (c.name :: s.1, s.2)) ++ locatedInside rest
termination_by structural cs => cs

end

theorem locatedInside_eq (cs : List NamespaceTree) :
    locatedInside cs = cs.flatMap fun c => c.located.map fun s => (c.name :: s.1, s.2) := by
  induction cs with
  | nil => rfl
  | cons c cs ih => rw [locatedInside, ih, List.flatMap_cons]

theorem mem_located_iff {tree : NamespaceTree} {path : List Text} {inner : NamespaceTree} :
    (path, inner) ∈ tree.located ↔ Reaches tree path inner := by
  constructor
  · intro h
    induction tree using tree_induction generalizing path with
    | node n cs rs ih =>
      rw [located, locatedInside_eq] at h
      rcases List.mem_cons.mp h with heq | hinside
      · cases heq
        exact .here _
      · obtain ⟨c, hc, hmem⟩ := List.mem_flatMap.mp hinside
        obtain ⟨⟨p, s⟩, hs, heq⟩ := List.mem_map.mp hmem
        cases heq
        exact .inside hc (ih c hc hs)
  · intro h
    induction h with
    | here tree =>
      cases tree
      exact List.mem_cons_self
    | @inside tree c inner path hc h ih =>
      cases tree
      rw [located, locatedInside_eq]
      exact List.mem_cons_of_mem _ (List.mem_flatMap.mpr ⟨c, hc, List.mem_map_of_mem ih⟩)

/-- Of two places in a tree, the first comes earlier: it is around the second one, or the ways to
them part at two neighbours, the first of which is in front. -/
inductive Earlier : NamespaceTree → List Text → List Text → Prop
  | around {tree : NamespaceTree} {m : Text} {path : List Text} : Earlier tree [] (m :: path)
  | inside {tree c : NamespaceTree} {p q : List Text} (hc : c ∈ tree.children)
      (h : Earlier c p q) : Earlier tree (c.name :: p) (c.name :: q)
  | beside {tree c d : NamespaceTree} {p q : List Text} (h : [c, d].Sublist tree.children) :
      Earlier tree (c.name :: p) (d.name :: q)

theorem pairwise_located (tree : NamespaceTree) :
    tree.located.Pairwise fun s t => Earlier tree s.1 t.1 := by
  induction tree using tree_induction with
  | node n cs rs ih =>
    rw [located, locatedInside_eq, List.pairwise_cons, List.pairwise_flatMap]
    refine ⟨fun s hs => ?_, fun c hc => ?_, ?_⟩
    · obtain ⟨c, -, hmem⟩ := List.mem_flatMap.mp hs
      obtain ⟨t, -, rfl⟩ := List.mem_map.mp hmem
      exact .around
    · rw [List.pairwise_map]
      exact (ih c hc).imp fun h => .inside hc h
    · rw [List.pairwise_iff_forall_sublist]
      intro c d hsub s hs t ht
      obtain ⟨s, -, rfl⟩ := List.mem_map.mp hs
      obtain ⟨t, -, rfl⟩ := List.mem_map.mp ht
      exact .beside hsub

/-- No two namespaces side by side have one name. -/
def HasDistinctNames (tree : NamespaceTree) : Prop :=
  ∀ path inner, Reaches tree path inner → (inner.children.map name).Nodup

theorem HasDistinctNames.child {tree c : NamespaceTree} (h : tree.HasDistinctNames)
    (hc : c ∈ tree.children) : c.HasDistinctNames :=
  fun path inner hinner => h (c.name :: path) inner (.inside hc hinner)

theorem Earlier.ne {tree : NamespaceTree} {p q : List Text} (h : Earlier tree p q)
    (hnames : tree.HasDistinctNames) : p ≠ q := by
  induction h with
  | around => exact (List.cons_ne_nil _ _).symm
  | inside hc _ ih =>
    intro heq
    exact ih (hnames.child hc) (List.cons.inj heq).2
  | @beside tree c d p q hsub =>
    intro heq
    have hpair : [c.name, d.name].Nodup := (hsub.map name).nodup (hnames [] tree (.here tree))
    simp [(List.cons.inj heq).1] at hpair

theorem hasDistinctNames_ofResources (rs : List Resource) : (ofResources rs).HasDistinctNames :=
  fun _ _ h => (pairwise_names h).imp fun hlt heq => by
    subst heq
    exact lt_irrefl _ hlt

/-! ### The collisions of one namespace -/

/-- What has a name among the members of a namespace: the namespaces first, then the keys, each in
their order. -/
def namesakes (tree : NamespaceTree) (n : Text) : List Text :=
  (tree.children.filter (groupName ·.name == n)).map name ++
    (tree.strings.filter (memberName · == n)).map Resource.key

/-- The names that several members of a namespace have, in ascending order. -/
def sharedNames (tree : NamespaceTree) : List Text :=
  (Text.sortedDistinct ((memberNames tree.children tree.strings).map (·.1))).filter
    fun n => 2 ≤ (tree.namesakes n).length

theorem namesakes_eq (tree : NamespaceTree) (n : Text) :
    ((memberNames tree.children tree.strings).filter (·.1 == n)).map (·.2) = tree.namesakes n := by
  simp only [memberNames, namesakes, List.filter_append, List.filter_map, List.map_append,
    List.map_map]
  rfl

theorem collisionsAmong_eq (tree : NamespaceTree) (path : List Text) :
    collisionsAmong path (memberNames tree.children tree.strings) =
      tree.sharedNames.map fun n => .namespaceCollision (path ++ [n]) (tree.namesakes n) := by
  simp only [collisionsAmong, namesakes_eq]
  rw [sharedNames, ← List.filterMap_eq_filter, List.map_filterMap]
  refine List.filterMap_congr fun n _ => ?_
  by_cases hn : 2 ≤ (tree.namesakes n).length <;> simp [Option.guard, hn]

theorem mem_sharedNames_iff {tree : NamespaceTree} {n : Text} :
    n ∈ tree.sharedNames ↔ 2 ≤ (tree.namesakes n).length := by
  rw [sharedNames, List.mem_filter, decide_eq_true_eq, Text.mem_sortedDistinct,
    and_iff_right_iff_imp, ← namesakes_eq]
  intro h
  obtain ⟨source, hsource⟩ := List.exists_mem_of_length_pos (Nat.lt_of_lt_of_le Nat.zero_lt_two h)
  obtain ⟨member, hmember, -⟩ := List.mem_map.mp hsource
  obtain ⟨hmem, hname⟩ := List.mem_filter.mp hmember
  exact List.mem_map.mpr ⟨member, hmem, eq_of_beq hname⟩

theorem pairwise_sharedNames (tree : NamespaceTree) :
    tree.sharedNames.Pairwise fun m n => m.codes < n.codes :=
  (Text.pairwise_sortedDistinct _).filter _

/-! ### The collisions of a tree -/

theorem collisions_eq (tree : NamespaceTree) (path : List Text) :
    tree.collisions path = tree.located.flatMap fun s =>
      s.2.sharedNames.map fun n => .namespaceCollision (path ++ s.1 ++ [n]) (s.2.namesakes n) := by
  induction tree using tree_induction generalizing path with
  | node n cs rs ih =>
    have hinside : childCollisions path cs = (locatedInside cs).flatMap fun s =>
        s.2.sharedNames.map fun n => .namespaceCollision (path ++ s.1 ++ [n]) (s.2.namesakes n) := by
      clear n rs
      induction cs with
      | nil => rfl
      | cons c cs ihs =>
        rw [childCollisions, locatedInside, List.flatMap_append, List.flatMap_map,
          ih c List.mem_cons_self, ihs fun d hd => ih d (List.mem_cons_of_mem c hd)]
        simp only [List.append_assoc, List.singleton_append]
    rw [collisions, located, List.flatMap_cons, hinside]
    have hhere := collisionsAmong_eq (.node n cs rs) path
    simp only [List.append_nil]
    exact congrArg (· ++ _) hhere

/-- A name with the namespace in which several members have it. -/
structure Clash where
  path : List Text
  space : NamespaceTree
  name : Text

/-- The list has the names that several members of a namespace in the tree have, each once for every
such namespace, the namespaces before those inside them and the names of each in ascending order. -/
structure ListsClashes (tree : NamespaceTree) (clashes : List Clash) : Prop where
  mem_iff : ∀ clash, clash ∈ clashes ↔ Reaches tree clash.path clash.space ∧
    2 ≤ (clash.space.namesakes clash.name).length
  nodup : clashes.Nodup
  ordered : clashes.Pairwise fun a b =>
    Earlier tree a.path b.path ∨ a.path = b.path ∧ a.name.codes < b.name.codes

def clashes (tree : NamespaceTree) : List Clash :=
  tree.located.flatMap fun s => s.2.sharedNames.map (⟨s.1, s.2, ·⟩)

theorem listsClashes_clashes {tree : NamespaceTree} (h : tree.HasDistinctNames) :
    tree.ListsClashes tree.clashes := by
  have hordered : tree.clashes.Pairwise fun a b =>
      Earlier tree a.path b.path ∨ a.path = b.path ∧ a.name.codes < b.name.codes := by
    rw [clashes, List.pairwise_flatMap]
    refine ⟨fun s _ => ?_, (pairwise_located tree).imp fun hearlier a ha b hb => ?_⟩
    · rw [List.pairwise_map]
      exact s.2.pairwise_sharedNames.imp fun hlt => .inr ⟨rfl, hlt⟩
    · obtain ⟨m, -, rfl⟩ := List.mem_map.mp ha
      obtain ⟨n, -, rfl⟩ := List.mem_map.mp hb
      exact .inl hearlier
  refine ⟨fun clash => ?_, hordered.imp fun hbefore heq => ?_, hordered⟩
  · rw [← mem_located_iff, ← mem_sharedNames_iff, clashes, List.mem_flatMap]
    constructor
    · rintro ⟨s, hs, hmem⟩
      obtain ⟨n, hn, rfl⟩ := List.mem_map.mp hmem
      exact ⟨hs, hn⟩
    · rintro ⟨hs, hn⟩
      exact ⟨_, hs, List.mem_map_of_mem hn⟩
  · subst heq
    rcases hbefore with hearlier | ⟨-, hlt⟩
    · exact hearlier.ne h rfl
    · exact lt_irrefl _ hlt

theorem exists_check_error_iff {tree : NamespaceTree} :
    (∃ e, tree.check = .error e) ↔
      ∃ path inner n, Reaches tree path inner ∧ 2 ≤ (inner.namesakes n).length := by
  have hcheck : (∃ e, tree.check = .error e) ↔ ∃ e, e ∈ tree.collisions [] := by
    unfold check
    cases tree.collisions [] <;> simp
  simp only [hcheck, collisions_eq, List.mem_flatMap, List.mem_map]
  constructor
  · rintro ⟨_, s, hs, n, hn, -⟩
    exact ⟨s.1, s.2, n, mem_located_iff.mp hs, mem_sharedNames_iff.mp hn⟩
  · rintro ⟨path, inner, n, hinner, hn⟩
    exact ⟨_, (path, inner), mem_located_iff.mpr hinner, n, mem_sharedNames_iff.mpr hn, rfl⟩

/-- The collisions of a tree in which no two namespaces side by side have one name: they are one for
each name that several members of a namespace have, in order, with the path of the namespace and the
name, and with these members. So the check fails exactly if some namespace has two members of one
name, and it goes on to pass when resources are taken out. -/
theorem collisions_exact {tree : NamespaceTree} (hnames : tree.HasDistinctNames) :
    (∃ clashes, tree.ListsClashes clashes ∧ ∀ path, tree.collisions path =
      clashes.map fun clash => .namespaceCollision (path ++ clash.path ++ [clash.name])
        (clash.space.namesakes clash.name)) ∧
    ((∃ e, tree.check = .error e) ↔
      ∃ path inner n, Reaches tree path inner ∧ 2 ≤ (inner.namesakes n).length) ∧
    ∀ rs kept : List Resource, kept.Sublist rs → (ofResources rs).check = .ok () →
      (ofResources kept).check = .ok () := by
  refine ⟨⟨tree.clashes, listsClashes_clashes hnames, fun path => ?_⟩, exists_check_error_iff,
    fun rs kept => check_sublist⟩
  rw [collisions_eq, clashes, List.map_flatMap]
  simp only [List.map_map, Function.comp_def]

theorem collisions_exact_settings :
    let tree := ofResources (["home", "home.settings", "home.settings.title"].map
      fun key : String => Resource.ofKey key)
    tree.HasDistinctNames ∧
    (∃ clashes, tree.ListsClashes clashes ∧
      (clashes.map fun clash => GenerationError.namespaceCollision (clash.path ++ [clash.name])
        (clash.space.namesakes clash.name)) =
          [.namespaceCollision ["home"] ["home", "home"],
            .namespaceCollision ["home", "settings"] ["settings", "home.settings"]]) ∧
    (∃ path inner n, Reaches tree path inner ∧ 2 ≤ (inner.namesakes n).length) ∧
    (ofResources [Resource.ofKey "home.title"]).check = .ok () := by
  intro tree
  have hnames : tree.HasDistinctNames := hasDistinctNames_ofResources _
  have hcollisions : tree.collisions [] =
      [.namespaceCollision ["home"] ["home", "home"],
        .namespaceCollision ["home", "settings"] ["settings", "home.settings"]] := by
    decide +kernel
  have hcheck : tree.check = .error (.namespaceCollision ["home"] ["home", "home"]) := by
    rw [check, hcollisions]
  have hfree : (ofResources [Resource.ofKey "settings", Resource.ofKey "home.title"]).check =
      .ok () :=
    check_of_separateWithin 2 (by decide +kernel) (by decide +kernel)
  obtain ⟨⟨clashes, hlists, hclashes⟩, hraises, hsublist⟩ := collisions_exact hnames
  refine ⟨hnames, ⟨clashes, hlists, ?_⟩, hraises.mp ⟨_, hcheck⟩, hsublist _ _ ?_ hfree⟩
  · exact (hclashes []).symm.trans hcollisions
  · exact List.sublist_cons_self _ _

end StringCatalog.NamespaceTree
