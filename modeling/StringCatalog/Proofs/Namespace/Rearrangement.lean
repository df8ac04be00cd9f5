import StringCatalog.Proofs.Namespace.Placement
import StringCatalog.Swift.Source

/-! Trees of the same resources in another order. Only resources of one namespace whose keys are
equal in lower case stand in the tree in the order in which they came, so without such resources the
order in which they come does not matter. -/

namespace StringCatalog.NamespaceTree

/-- Resources of one namespace whose keys are equal in lower case. -/
def Ties (r s : Resource) : Prop :=
  r.components.dropLast = s.components.dropLast ∧ r.key.lower = s.key.lower

instance (r s : Resource) : Decidable (Ties r s) :=
  inferInstanceAs (Decidable (_ ∧ _))

/-- Resources that tie stand in the same order in both lists. -/
def KeepsTies (rs others : List Resource) : Prop :=
  ∀ r ∈ rs, rs.filter (Ties r ·) = others.filter (Ties r ·)

theorem sortByKey_eq_iff {xs ys : List Resource} : sortByKey xs = sortByKey ys ↔
    ∀ k, xs.filter (·.key.lower == k) = ys.filter (·.key.lower == k) := by
  constructor
  · intro h k
    rw [← filter_sortByKey, h, filter_sortByKey]
  · intro h
    refine Sequence.eq_of_filter_rank_eq (pairwise_sortByKey xs) (pairwise_sortByKey ys) fun r => ?_
    have hrank : (fun s : Resource => s.key.lower.codes == r.key.lower.codes) =
        (·.key.lower == r.key.lower) :=
      funext fun s => beq_eq_beq.mpr ⟨(Text.codes_injective ·), congrArg _⟩
    rw [hrank, filter_sortByKey, h, filter_sortByKey]

section

variable {rs others : List Resource}

/-- The names of namespaces do not depend on the order of the items, so trees grown from the same
items differ in the order of resources at most. -/
theorem grow_congr {items items' : List Item} (hperm : items.Perm items')
    (h : ∀ path, sortByKey ((itemsAt path items).filterMap leaf?) =
      sortByKey ((itemsAt path items').filterMap leaf?)) (depth : Nat) (n : Text) :
    grow depth n items = grow depth n items' := by
  induction depth generalizing items items' n with
  | zero =>
    have hhere := h []
    rw [itemsAt, itemsAt] at hhere
    rw [grow, grow, hhere]
  | succ depth ih =>
    have hhere := h []
    rw [itemsAt, itemsAt] at hhere
    have hnames : Text.sortedDistinct (items.filterMap group?) =
        Text.sortedDistinct (items'.filterMap group?) :=
      Text.sortedDistinct_congr fun m => (hperm.filterMap group?).mem_iff
    have hinside : ∀ m, grow depth m (items.filterMap (under? m)) =
        grow depth m (items'.filterMap (under? m)) := fun m =>
      ih (hperm.filterMap (under? m)) (fun path => h (m :: path)) m
    rw [grow, grow, hhere, hnames]
    simp only [hinside]

theorem ofResources_eq_grow (rs : List Resource) :
    ofResources rs = grow (((itemsOf rs).map (·.1.length)).foldl max 0) [] (itemsOf rs) := rfl

theorem placedAt_eq_nil {path : List Text}
    (h : ¬∃ node, Reaches (ofResources rs) path node) : placedAt path rs = [] := by
  refine List.eq_nil_iff_forall_not_mem.mpr fun r hr => h ?_
  obtain ⟨hr, hpath⟩ := List.mem_filter.mp hr
  obtain ⟨depth, heq, hdepth⟩ := ofResources_eq rs
  rw [heq]
  refine exists_reaches hdepth [] (List.mem_map_of_mem hr) ?_
  rw [← eq_of_beq hpath]

theorem ofResources_eq_iff (hne : ∀ r ∈ rs, r.components ≠ []) (hperm : rs.Perm others) :
    ofResources rs = ofResources others ↔
      ∀ path, sortByKey (placedAt path rs) = sortByKey (placedAt path others) := by
  have hne' : ∀ r ∈ others, r.components ≠ [] := fun r hr => hne r (hperm.mem_iff.mpr hr)
  constructor
  · intro h path
    by_cases hreached : ∃ node, Reaches (ofResources rs) path node
    · obtain ⟨node, hnode⟩ := hreached
      rw [← strings_of_reaches hne hnode, strings_of_reaches hne' (h ▸ hnode)]
    · rw [placedAt_eq_nil hreached, placedAt_eq_nil (h ▸ hreached)]
  · intro h
    have hitems : (itemsOf rs).Perm (itemsOf others) := hperm.map _
    have hdepth : ((itemsOf rs).map (·.1.length)).foldl max 0 =
        ((itemsOf others).map (·.1.length)).foldl max 0 :=
      (hitems.map _).foldl_eq 0
    rw [ofResources_eq_grow, ofResources_eq_grow, hdepth]
    refine grow_congr hitems (fun path => ?_) _ _
    rw [leaves_itemsAt hne, leaves_itemsAt hne', h]

theorem filter_placedAt (r : Resource) (xs : List Resource) :
    (placedAt r.components.dropLast xs).filter (·.key.lower == r.key.lower) =
      xs.filter (Ties r ·) := by
  rw [placedAt, List.filter_filter]
  refine List.filter_congr fun s _ => ?_
  rw [Bool.eq_iff_iff, Bool.and_eq_true, beq_iff_eq, beq_iff_eq, decide_eq_true_iff]
  exact ⟨fun h => ⟨h.2.symm, h.1.symm⟩, fun h => ⟨h.2.symm, h.1.symm⟩⟩

theorem keepsTies_iff (hperm : rs.Perm others) : KeepsTies rs others ↔
    ∀ path, sortByKey (placedAt path rs) = sortByKey (placedAt path others) := by
  simp only [sortByKey_eq_iff]
  constructor
  · intro h path k
    by_cases hsome : ∃ r ∈ rs, r.components.dropLast = path ∧ r.key.lower = k
    · obtain ⟨r, hr, rfl, rfl⟩ := hsome
      rw [filter_placedAt, filter_placedAt, h r hr]
    · have hnone : (placedAt path rs).filter (·.key.lower == k) = [] := by
        rw [placedAt, List.filter_filter, List.filter_eq_nil_iff]
        intro r hr hboth
        rw [Bool.and_eq_true, beq_iff_eq, beq_iff_eq] at hboth
        exact hsome ⟨r, hr, hboth.2, hboth.1⟩
      have hkept := (hperm.filter (·.components.dropLast == path)).filter (·.key.lower == k)
      rw [placedAt] at hnone
      rw [hnone] at hkept
      rw [placedAt, placedAt, hnone, hkept.nil_eq]
  · intro h r _
    rw [← filter_placedAt, ← filter_placedAt, h]

/-- Without ties there is nothing whose order is to be kept. -/
theorem keepsTies_of_pairwise (hperm : rs.Perm others) (h : rs.Pairwise fun r s => ¬Ties r s) :
    KeepsTies rs others := by
  intro r _
  have hkept := hperm.filter (Ties r ·)
  -- all that tie with one resource tie with one another
  have hpairwise : (rs.filter (Ties r ·)).Pairwise fun _ _ => False := by
    refine (h.filter (Ties r ·)).imp_of_mem fun {s t} hs ht hapart => hapart ?_
    have hs := of_decide_eq_true (List.mem_filter.mp hs).2
    have ht := of_decide_eq_true (List.mem_filter.mp ht).2
    exact ⟨hs.1.symm.trans ht.1, hs.2.symm.trans ht.2⟩
  match hlist : rs.filter (Ties r ·), hpairwise with
  | [], _ =>
    rw [hlist] at hkept
    exact hkept.nil_eq
  | [s], _ =>
    rw [hlist] at hkept
    exact List.singleton_perm.mp hkept
  | s :: t :: _, hpairwise => exact (List.rel_of_pairwise_cons hpairwise List.mem_cons_self).elim

end

/-- Resources in two orders. Their trees are the same exactly if resources that tie stand in the same
order, and then so are their source files. If no two of them tie, the order does not matter. -/
theorem ofResources_perm_iff {rs others : List Resource} (hne : ∀ r ∈ rs, r.components ≠ [])
    (hperm : rs.Perm others) :
    (ofResources rs = ofResources others ↔ KeepsTies rs others) ∧
      (KeepsTies rs others → ∀ deepest style table,
        Swift.source deepest style table rs = Swift.source deepest style table others) ∧
      (rs.Pairwise (fun r s => ¬Ties r s) → KeepsTies rs others) := by
  have htree : ofResources rs = ofResources others ↔ KeepsTies rs others :=
    (ofResources_eq_iff hne hperm).trans (keepsTies_iff hperm).symm
  refine ⟨htree, fun h deepest style table => ?_, keepsTies_of_pairwise hperm⟩
  have hdeep : isTooDeep deepest rs [] = isTooDeep deepest others [] := hperm.any_eq
  rw [Swift.source, Swift.source, hdeep, htree.mpr h]

theorem ofResources_perm_iff_settings :
    let rs := ["settings.aB", "aB", "settings.ab"].map fun key : String => Resource.ofKey key
    let others := ["settings.aB", "settings.ab", "aB"].map fun key : String => Resource.ofKey key
    (∀ r ∈ rs, r.components ≠ []) ∧ rs.Perm others ∧ KeepsTies rs others ∧
      ofResources rs = ofResources others := by
  intro rs others
  have hne : ∀ r ∈ rs, r.components ≠ [] := by decide +kernel
  have hperm : rs.Perm others := by decide +kernel
  have hties : KeepsTies rs others := show ∀ r ∈ rs, _ by decide +kernel
  exact ⟨hne, hperm, hties, (ofResources_perm_iff hne hperm).1.mpr hties⟩

/-- The tree of two resources outside of all namespaces that are in order. -/
theorem ofResources_pair {r s : Resource} {m n : Text} (hr : r.components = [m])
    (hs : s.components = [n]) (hle : Text.le r.key.lower s.key.lower = true) :
    ofResources [r, s] = node [] [] [r, s] := by
  have hsorted : sortByKey [r, s] = [r, s] := List.mergeSort_of_pairwise (by simpa using hle)
  have hgroups : [([m], r), ([n], s)].filterMap group? = [] := rfl
  simp [ofResources, build, grow, hr, hs, hsorted, hgroups, leaf?, Text.sortedDistinct]

/-- Members whose keys differ in case alone stand in the source file in the order in which the keys
came. -/
theorem exists_reordered_source_ne :
    ∃ rs others : List Resource, rs.Perm others ∧ (rs.map (·.key)).Nodup ∧ (∀ r ∈ rs, r.Keyed) ∧
      ofResources rs ≠ ofResources others ∧
      ∃ deepest style table text text', Swift.source deepest style table rs = .ok text ∧
        Swift.source deepest style table others = .ok text' ∧ text ≠ text' := by
  obtain ⟨r, hr⟩ : ∃ r, r = Resource.ofKey "aB" := ⟨_, rfl⟩
  obtain ⟨s, hs⟩ : ∃ s, s = Resource.ofKey "ab" := ⟨_, rfl⟩
  have hrs : ofResources [r, s] = node [] [] [r, s] :=
    ofResources_pair (m := "aB") (n := "ab") (by subst hr; decide +kernel)
      (by subst hs; decide +kernel) (by subst hr hs; decide +kernel)
  have hsr : ofResources [s, r] = node [] [] [s, r] :=
    ofResources_pair (m := "ab") (n := "aB") (by subst hs; decide +kernel)
      (by subst hr; decide +kernel) (by subst hr hs; decide +kernel)
  have hcheck : (node [] [] [r, s]).check = .ok () := hrs ▸
    check_of_separateWithin 1 (by subst hr hs; decide +kernel) (by subst hr hs; decide +kernel)
  have hcheck' : (node [] [] [s, r]).check = .ok () := hsr ▸
    check_of_separateWithin 1 (by subst hr hs; decide +kernel) (by subst hr hs; decide +kernel)
  refine ⟨[r, s], [s, r], .swap .., by subst hr hs; decide +kernel,
    by subst hr hs; simp [Resource.keyed_ofKey], fun h => ?_,
    1, ⟨.internal, "K", false, "  "⟩, "A", ?_⟩
  · rw [hrs, hsr, node.injEq] at h
    subst hr hs
    exact absurd h.2.2 (by decide +kernel)
  · simp only [Swift.source, Swift.sourceOfTree, hrs, hsr, hcheck, hcheck']
    subst hr hs
    refine ⟨_, _, rfl, rfl, ?_⟩
    decide +kernel

end StringCatalog.NamespaceTree
