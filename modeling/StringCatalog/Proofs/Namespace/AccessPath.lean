import Mathlib.Data.List.Infix
import StringCatalog.Proofs.Namespace.Collision
import StringCatalog.Proofs.Text.Basic

/-! Access paths: the names of the nested types around a member and its own name, as they are
compared. In a tree without collisions they tell all resources apart, and none of them leads through
another one. -/

namespace StringCatalog

namespace Resource

/-- The components and the name of the member are those of the key. -/
structure Keyed (r : Resource) : Prop where
  components : r.components = keyComponents r.key
  identifier : r.identifier = identifierOf r.components

/-- The resource of a key with nothing but the key. -/
def ofKey (key : Text) : Resource :=
  ⟨key, identifierOf (keyComponents key), keyComponents key, [], [], none⟩

theorem keyed_ofKey (key : Text) : (ofKey key).Keyed := ⟨rfl, rfl⟩

/-- The names that lead to the member of the resource. -/
def accessPath (r : Resource) : List Text :=
  r.components.dropLast.map (fun c => Swift.bare (Swift.typeIdentifier c)) ++
    [Swift.bare r.identifier]

end Resource

namespace NamespaceTree

/-- The names that lead from a namespace to the member of an item in it. -/
def itemPath (item : Item) : List Text :=
  item.1.dropLast.map groupName ++ [memberName item.2]

/-- Neither path leads through the other, nor are they the same. -/
def Apart (p q : List Text) : Prop := ¬p <+: q ∧ ¬q <+: p

theorem Apart.symm {p q : List Text} (h : Apart p q) : Apart q p := ⟨h.2, h.1⟩

theorem apart_cons {a b : Text} {p q : List Text} (h : a = b → Apart p q) :
    Apart (a :: p) (b :: q) := by
  constructor
  · intro hprefix
    obtain ⟨hab, hpq⟩ := List.cons_prefix_cons.mp hprefix
    exact (h hab).1 hpq
  · intro hprefix
    obtain ⟨hba, hqp⟩ := List.cons_prefix_cons.mp hprefix
    exact (h hba.symm).2 hqp

theorem itemPath_cons (m next : Text) (rest : List Text) (r : Resource) :
    itemPath (m :: next :: rest, r) = groupName m :: itemPath (next :: rest, r) := rfl

/-- The paths of two items are apart if the members that they begin with have different names, and
if they stay apart inside a common namespace. -/
theorem apart_itemPath {items : List Item} (h : Separate items) {a b : Item} (ha : a ∈ items)
    (hb : b ∈ items) (hane : a.1 ≠ []) (hbne : b.1 ≠ [])
    (hleaves : ∀ r ∈ leaf? a, ∀ s ∈ leaf? b, memberName r ≠ memberName s)
    (hinner : ∀ m, ∀ a' ∈ under? m a, ∀ b' ∈ under? m b, Apart (itemPath a') (itemPath b')) :
    Apart (itemPath a) (itemPath b) := by
  match a, b with
  | ([], _), _ => contradiction
  | _, ([], _) => contradiction
  | ([m], r), ([k], s) => exact apart_cons fun heq => absurd heq (hleaves r rfl s rfl)
  | ([m], r), (k :: next :: rest, s) =>
    have hgroup : k ∈ items.filterMap group? := List.mem_filterMap.mpr ⟨_, hb, rfl⟩
    have hleaf : r ∈ items.filterMap leaf? := List.mem_filterMap.mpr ⟨_, ha, rfl⟩
    rw [itemPath_cons]
    exact apart_cons fun heq => absurd heq.symm (h.mixed k hgroup r hleaf)
  | (m :: next :: rest, r), ([k], s) =>
    have hgroup : m ∈ items.filterMap group? := List.mem_filterMap.mpr ⟨_, ha, rfl⟩
    have hleaf : s ∈ items.filterMap leaf? := List.mem_filterMap.mpr ⟨_, hb, rfl⟩
    rw [itemPath_cons]
    exact apart_cons fun heq => absurd heq (h.mixed m hgroup s hleaf)
  | (m :: next :: rest, r), (k :: next' :: rest', s) =>
    have hm : m ∈ items.filterMap group? := List.mem_filterMap.mpr ⟨_, ha, rfl⟩
    have hk : k ∈ items.filterMap group? := List.mem_filterMap.mpr ⟨_, hb, rfl⟩
    rw [itemPath_cons, itemPath_cons]
    refine apart_cons fun heq => ?_
    obtain rfl := h.groups m hm k hk heq
    exact hinner m _ (if_pos rfl) _ (if_pos rfl)

theorem ne_nil_of_under? {m : Text} {item inner : Item} (h : under? m item = some inner) :
    inner.1 ≠ [] := by
  match item, h with
  | (k :: next :: rest, r), h =>
    simp only [under?] at h
    split at h
    · cases h
      exact List.cons_ne_nil next rest
    · contradiction

theorem ne_nil_of_mem_under? {items : List Item} (m : Text) :
    ∀ inner ∈ items.filterMap (under? m), inner.1 ≠ [] := by
  intro inner hinner
  obtain ⟨item, -, hunder⟩ := List.mem_filterMap.mp hinner
  exact ne_nil_of_under? hunder

theorem eq_nil_of_length_le {items : List Item}
    (hdepth : ∀ item ∈ items, item.1.length ≤ 0)
    (hne : ∀ item ∈ items, item.1 ≠ []) : items = [] := by
  refine List.eq_nil_iff_forall_not_mem.mpr fun item hitem => ?_
  have := hdepth item hitem
  exact hne item hitem (List.length_eq_zero_iff.mp (by omega))

/-- In a tree without collisions the paths of any two items are apart. The induction is on the depth
of the tree: two items in one inner namespace are apart there. -/
theorem pairwise_apart {items : List Item} {depth : Nat}
    (hdepth : ∀ item ∈ items, item.1.length ≤ depth) (hne : ∀ item ∈ items, item.1 ≠ [])
    (h : ∀ p, Separate (itemsAt p items)) :
    items.Pairwise fun a b => Apart (itemPath a) (itemPath b) := by
  induction depth generalizing items with
  | zero =>
    rw [eq_nil_of_length_le hdepth hne]
    exact List.Pairwise.nil
  | succ depth ih =>
    have hleaves : items.Pairwise fun a b =>
        ∀ r ∈ leaf? a, ∀ s ∈ leaf? b, memberName r ≠ memberName s := by
      have := (h []).leaves
      rw [List.Nodup, List.pairwise_map, itemsAt, List.pairwise_filterMap] at this
      exact this
    have hinner : ∀ m, items.Pairwise fun a b =>
        ∀ a' ∈ under? m a, ∀ b' ∈ under? m b, Apart (itemPath a') (itemPath b') := by
      intro m
      exact List.pairwise_filterMap.mp
        (ih (length_le_of_mem_under? hdepth) (ne_nil_of_mem_under? m) fun p => h (m :: p))
    rw [List.pairwise_iff_getElem] at hleaves ⊢
    intro i j hi hj hij
    refine apart_itemPath (h []) (List.getElem_mem hi) (List.getElem_mem hj)
      (hne _ (List.getElem_mem hi)) (hne _ (List.getElem_mem hj)) (hleaves i j hi hj hij) ?_
    exact fun m => List.pairwise_iff_getElem.mp (hinner m) i j hi hj hij

/-- Resources that come to a tree without collisions. No access path of one is the beginning of that
of another one, so in particular they are different, and no member has the name of a nested type on
the way to another member. -/
theorem accessPath_not_prefix {rs : List Resource} (hkeyed : ∀ r ∈ rs, r.Keyed)
    (h : (ofResources rs).check = .ok ()) :
    ∀ i j (hi : i < rs.length) (hj : j < rs.length), i ≠ j →
      rs[i].accessPath ≠ rs[j].accessPath ∧ ¬rs[i].accessPath <+: rs[j].accessPath := by
  obtain ⟨depth, -, hdepth⟩ := ofResources_eq rs
  have hne : ∀ item ∈ itemsOf rs, item.1 ≠ [] := by
    intro item hitem
    obtain ⟨r, hr, rfl⟩ := List.mem_map.mp hitem
    show r.components ≠ []
    rw [(hkeyed r hr).components]
    exact Text.splitWhere_ne_nil _ r.key
  have hpairwise := pairwise_apart hdepth hne (check_ofResources_iff.mp h)
  rw [itemsOf, List.pairwise_map, List.pairwise_iff_getElem] at hpairwise
  have hapart : ∀ i j (hi : i < rs.length) (hj : j < rs.length), i ≠ j →
      Apart rs[i].accessPath rs[j].accessPath := by
    intro i j hi hj hij
    rcases Nat.lt_or_gt_of_ne hij with hlt | hgt
    · exact hpairwise i j hi hj hlt
    · exact (hpairwise j i hj hi hgt).symm
  intro i j hi hj hij
  have hnot := (hapart i j hi hj hij).1
  exact ⟨fun heq => hnot (heq ▸ List.prefix_rfl), hnot⟩

theorem accessPath_not_prefix_settings :
    let rs := ["settings.title", "settings.sub-title", "settings.Title.main"].map
      fun key : String => Resource.ofKey key
    (∀ r ∈ rs, r.Keyed) ∧ (ofResources rs).check = .ok () ∧
      ∀ i j (hi : i < rs.length) (hj : j < rs.length), i ≠ j →
        rs[i].accessPath ≠ rs[j].accessPath ∧ ¬rs[i].accessPath <+: rs[j].accessPath := by
  intro rs
  have hkeyed : ∀ r ∈ rs, r.Keyed := by
    intro r hr
    obtain ⟨key, -, rfl⟩ := List.mem_map.mp hr
    exact Resource.keyed_ofKey key
  have hcheck : (ofResources rs).check = .ok () :=
    check_of_separateWithin 3 (by decide +kernel) (by decide +kernel)
  exact ⟨hkeyed, hcheck, accessPath_not_prefix hkeyed hcheck⟩

-- a member may not have the name of a namespace beside it
example : (ofResources [Resource.ofKey "settings", Resource.ofKey "settings.title"]).check =
    .error (.namespaceCollision ["settings"] ["settings", "settings"]) := by decide +kernel

end NamespaceTree

end StringCatalog
