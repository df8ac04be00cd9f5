import StringCatalog.Proofs.Catalog.Coverage

/-! The substitution maps of an entry whose substitutions have different names. The first map has
the primary texts, every other one differs from it in one name, and together they are the maps of
the branches that are tried, each of them once. There are no maps where the first position that the
texts of the entry give has no value. -/

namespace StringCatalog

namespace Variations

/-- The label is that of a general case: the last of its parts between points is `other`. -/
def IsGeneral (label : Text) : Prop := (Text.splitAt '.' label).getLast? = some (Text.ofString "other")

instance : DecidablePred IsGeneral := fun label =>
  inferInstanceAs (Decidable ((Text.splitAt '.' label).getLast? = some (Text.ofString "other")))

theorem isOther_iff {label : Text} : isOther label = true ↔ IsGeneral label := by
  rw [isOther, IsGeneral, Text.getLast?_splitAt, beq_iff_eq, Option.some.injEq]

end Variations

namespace Substitution

open Variations

variable {s : Substitution} {positional : Bool} {v : Text × Text}

/-- The branch is the primary one: the first general case or, where there is none, the last case. -/
inductive IsPrimary (s : Substitution) : Text × Text → Prop
  | general {before after : Variations} {v : Text × Text} :
      s.variations = before ++ v :: after → IsGeneral v.1 → (∀ u ∈ before, ¬IsGeneral u.1) →
      IsPrimary s v
  | last {before : Variations} {v : Text × Text} :
      s.variations = before ++ [v] → (∀ u ∈ s.variations, ¬IsGeneral u.1) → IsPrimary s v

theorem isPrimary_iff : s.IsPrimary v ↔ s.variations.find? (isOther ·.1) = some v ∨
    s.variations.find? (isOther ·.1) = none ∧ s.variations.getLast? = some v := by
  simp only [List.find?_eq_some_iff_append, List.find?_eq_none, List.getLast?_eq_some_iff,
    Bool.not_eq_true', isOther_iff, ← Bool.not_eq_true]
  constructor
  · rintro (⟨hsplit, hgeneral, hbefore⟩ | ⟨hlast, hnone⟩)
    · exact Or.inl ⟨hgeneral, _, _, hsplit, hbefore⟩
    · exact Or.inr ⟨hnone, _, hlast⟩
  · rintro (⟨hgeneral, before, after, hsplit, hbefore⟩ | ⟨hnone, before, hlast⟩)
    · exact .general hsplit hgeneral hbefore
    · exact .last hlast hnone

theorem primary?_eq_some_iff {text : Text} :
    s.primary? positional = some text ↔ ∃ v, s.IsPrimary v ∧ text = s.resolve positional v.2 := by
  simp only [isPrimary_iff]
  unfold primary? Variations.other?
  cases s.variations.find? (isOther ·.1) with
  | some v => simp [eq_comm]
  | none => simp [eq_comm]

end Substitution

namespace CatalogEntry

variable {e : CatalogEntry} {positional : Bool}

/-! ### The mode -/

/-- The first specifier with a position, in the texts one after another. -/
def firstNumbered? (texts : List Text) : Option Specifier :=
  (texts.flatMap fun text => Piece.specifiers (Piece.split text)).find? (·.numeral.isSome)

theorem usesPositions_of_overlong {texts : List Text} {s : Specifier}
    (h : firstNumbered? texts = some s) (hlong : s.isOverlong = true) :
    usesPositions texts = .error .numeralTooLong := by
  unfold firstNumbered? at h
  unfold usesPositions
  rw [h]
  exact if_pos hlong

theorem usesPositions_eq_ok {texts : List Text}
    (h : ∀ s ∈ firstNumbered? texts, s.isOverlong = false) :
    usesPositions texts = .ok (firstNumbered? texts).isSome := by
  unfold firstNumbered? at h ⊢
  unfold usesPositions
  split
  · rename_i hnone
    rw [hnone]
    rfl
  · rename_i s hsome
    rw [hsome, if_neg (by simp [h s hsome])]
    rfl

/-! ### The first map -/

theorem map_fst_primaries_sublist (subs : List Substitution) (positional : Bool) :
    ((subs.filterMap fun s => (s.primary? positional).map (s.name, ·)).map (·.1)).Sublist
      (subs.map (·.name)) := by
  induction subs with
  | nil => exact List.Sublist.refl _
  | cons s subs ih =>
    cases hprimary : s.primary? positional with
    | none =>
      rw [List.filterMap_cons_none (by rw [hprimary]; rfl), List.map_cons]
      exact ih.cons _
    | some text =>
      rw [List.filterMap_cons_some (b := (s.name, text)) (by rw [hprimary]; rfl), List.map_cons,
        List.map_cons]
      exact ih.cons_cons _

theorem primaryMap_of_nodup (hnames : (e.substitutions.map (·.name)).Nodup) (positional : Bool) :
    e.primaryMap positional =
      e.substitutions.filterMap fun s => (s.primary? positional).map (s.name, ·) := by
  rw [primaryMap_eq_ofPairs]
  exact OrderedMap.ofPairs_of_nodup
    (hnames.sublist (map_fst_primaries_sublist e.substitutions positional))

theorem nodup_primaryMap (hnames : (e.substitutions.map (·.name)).Nodup) (positional : Bool) :
    ((e.primaryMap positional).map (·.1)).Nodup := by
  rw [primaryMap_of_nodup hnames]
  exact hnames.sublist (map_fst_primaries_sublist e.substitutions positional)

/-- The first map has the primary texts under the names of their substitutions, and no others. -/
theorem get?_primaryMap (hnames : (e.substitutions.map (·.name)).Nodup) {name text : Text} :
    OrderedMap.get? (e.primaryMap positional) name = some text ↔
      ∃ s ∈ e.substitutions, s.name = name ∧ s.primary? positional = some text := by
  rw [OrderedMap.get?_eq_some_iff (nodup_primaryMap hnames positional),
    primaryMap_of_nodup hnames, List.mem_filterMap]
  simp only [Option.map_eq_some_iff, Prod.mk.injEq, exists_eq_right_right]
  constructor
  · rintro ⟨s, hs, hprimary, hname⟩
    exact ⟨s, hs, hname, hprimary⟩
  · rintro ⟨s, hs, hname, hprimary⟩
    exact ⟨s, hs, hprimary, hname⟩

/-! ### The other maps -/

/-- The branch is tried where arguments have positions, and where its text takes the argument of its
substitution. -/
theorem isEligible_iff {raw : Text} :
    isEligible positional raw = true ↔ positional = true ∨ Substitution.argToken <:+: raw := by
  rw [isEligible, Bool.or_eq_true, Text.hasInfix_iff]

/-- Putting another text under a name changes what is found under that name, and nothing else. -/
theorem get?_put_ne_iff {map : SubstitutionMap} {name text : Text}
    (h : OrderedMap.get? map name ≠ some text) (other : Text) :
    OrderedMap.get? (OrderedMap.put map name text) other ≠ OrderedMap.get? map other ↔
      other = name := by
  rw [OrderedMap.get?_put]
  by_cases hname : name = other
  · subst hname
    simpa using Ne.symm h
  · simp [hname, Ne.symm hname]

/-- The maps are those of the primary texts and of the branches that are tried. -/
structure MapsExactly (e : CatalogEntry) (positional : Bool) (first : SubstitutionMap)
    (others : List SubstitutionMap) : Prop where
  distinct : (first :: others).Pairwise fun a b =>
    ∃ name, OrderedMap.get? a name ≠ OrderedMap.get? b name
  primary : ∀ s ∈ e.substitutions, s.variations ≠ [] → ∃ v, s.IsPrimary v ∧
    OrderedMap.get? first s.name = some (s.resolve positional v.2)
  assigned : ∀ name ∈ first.map (·.1), ∃ s ∈ e.substitutions, s.name = name ∧ s.variations ≠ []
  single : ∀ map ∈ others, map.map (·.1) = first.map (·.1) ∧
    ∃ name, ∀ other, OrderedMap.get? map other ≠ OrderedMap.get? first other ↔ other = name
  tried : ∀ map, map ∈ first :: others ↔ map = first ∨
    ∃ s ∈ e.substitutions, ∃ v ∈ s.variations,
      (positional = true ∨ Substitution.argToken <:+: v.2) ∧
      map = OrderedMap.put first s.name (s.resolve positional v.2)

theorem mapsExactly_of_mem {others : List SubstitutionMap}
    (hnames : (e.substitutions.map (·.name)).Nodup)
    (hnodup : (e.primaryMap positional :: others).Nodup)
    (hmem : ∀ map, map ∈ e.primaryMap positional :: others ↔
      map ∈ e.primaryMap positional :: e.alternatives positional (e.primaryMap positional)) :
    e.MapsExactly positional (e.primaryMap positional) others := by
  have hprimary : ∀ s ∈ e.substitutions, s.variations ≠ [] → ∃ v, s.IsPrimary v ∧
      OrderedMap.get? (e.primaryMap positional) s.name = some (s.resolve positional v.2) := by
    intro s hs hbranches
    obtain ⟨text, htext⟩ := Substitution.exists_primary? hbranches positional
    obtain ⟨v, hv, rfl⟩ := Substitution.primary?_eq_some_iff.mp htext
    exact ⟨v, hv, (get?_primaryMap hnames).mpr ⟨s, hs, rfl, htext⟩⟩
  -- a branch of a substitution is put under a name that the first map has
  have hput : ∀ s ∈ e.substitutions, ∀ v ∈ s.variations, ∀ text,
      (OrderedMap.put (e.primaryMap positional) s.name text).map (·.1) =
        (e.primaryMap positional).map (·.1) := by
    intro s hs v hv text
    obtain ⟨_, -, hget⟩ := hprimary s hs (List.ne_nil_of_mem hv)
    exact OrderedMap.map_fst_put (List.mem_map_of_mem (OrderedMap.mem_of_get?_eq_some hget)) text
  have hkeys : ∀ map ∈ e.primaryMap positional :: others,
      map.map (·.1) = (e.primaryMap positional).map (·.1) := by
    intro map hmap
    rcases List.mem_cons.mp ((hmem map).mp hmap) with rfl | halternative
    · rfl
    · obtain ⟨s, hs, v, hv, -, -, rfl⟩ := mem_alternatives.mp halternative
      exact hput s hs v hv _
  constructor
  case distinct =>
    refine hnodup.imp_of_mem fun {a b} ha hb hne => ?_
    by_contra hsame
    push Not at hsame
    refine hne (OrderedMap.eq_of_get?_eq ((hkeys a ha).trans (hkeys b hb).symm) ?_ hsame)
    rw [hkeys a ha]
    exact nodup_primaryMap hnames positional
  case primary => exact hprimary
  case assigned =>
    intro name hname
    obtain ⟨pair, hpair, rfl⟩ := List.mem_map.mp hname
    obtain ⟨s, hs, hname, htext⟩ := branch_of_mem_primaryMap hpair
    obtain ⟨v, hv, -⟩ := List.mem_map.mp htext
    exact ⟨s, hs, hname, List.ne_nil_of_mem hv⟩
  case single =>
    intro map hmap
    have hne : map ≠ e.primaryMap positional :=
      fun heq => (List.nodup_cons.mp hnodup).1 (heq ▸ hmap)
    have halternative := (List.mem_cons.mp ((hmem map).mp (List.mem_cons_of_mem _ hmap)))
    obtain ⟨s, hs, v, hv, -, hchanged, rfl⟩ := mem_alternatives.mp (halternative.resolve_left hne)
    exact ⟨hput s hs v hv _, s.name, get?_put_ne_iff hchanged⟩
  case tried =>
    intro map
    simp only [hmem, List.mem_cons, mem_alternatives, isEligible_iff]
    constructor
    · rintro (rfl | ⟨s, hs, v, hv, heligible, -, hmap⟩)
      · exact Or.inl rfl
      · exact Or.inr ⟨s, hs, v, hv, heligible, hmap⟩
    · rintro (rfl | ⟨s, hs, v, hv, heligible, rfl⟩)
      · exact Or.inl rfl
      · -- a branch with the text of the primary one gives the first map again
        by_cases hsame : OrderedMap.get? (e.primaryMap positional) s.name =
            some (s.resolve positional v.2)
        · exact Or.inl (OrderedMap.put_eq_self hsame)
        · exact Or.inr ⟨s, hs, v, hv, heligible, hsame, rfl⟩

/-- An entry whose substitutions have different names has exactly the maps of its primary texts and
of the branches that are tried, unless the first position that its texts give has no value. -/
theorem substitutionMaps_exact (hnames : (e.substitutions.map (·.name)).Nodup) :
    (∀ s ∈ firstNumbered? e.baseTexts, s.isOverlong = true →
      e.substitutionMaps = .error .numeralTooLong) ∧
    ((∀ s ∈ firstNumbered? e.baseTexts, s.isOverlong = false) →
      ∃ first others, e.substitutionMaps = .ok (first :: others) ∧
        e.MapsExactly (firstNumbered? e.baseTexts).isSome first others) := by
  constructor
  · intro s hs hlong
    rw [substitutionMaps, usesPositions_of_overlong hs hlong]
    rfl
  · intro hshort
    have hmode := usesPositions_eq_ok hshort
    obtain ⟨positional, hpositional⟩ : ∃ positional,
      positional = (firstNumbered? e.baseTexts).isSome := ⟨_, rfl⟩
    rw [← hpositional] at hmode ⊢
    obtain ⟨others, hothers⟩ : ∃ others, (e.primaryMap positional ::
      e.alternatives positional (e.primaryMap positional)).eraseDups =
        e.primaryMap positional :: others := ⟨_, List.eraseDups_cons⟩
    refine ⟨e.primaryMap positional, others, ?_, mapsExactly_of_mem hnames ?_ fun map => ?_⟩
    · rw [substitutionMaps_of_mode hmode, hothers]
    · rw [← hothers]
      exact Sequence.nodup_eraseDups _
    · rw [← hothers, List.mem_eraseDups]

theorem substitutionMaps_exact_sharedCount :
    (sharedCount.substitutions.map (·.name)).Nodup ∧
    (∀ s ∈ firstNumbered? sharedCount.baseTexts, s.isOverlong = false) ∧
    sharedCount.MapsExactly true [("files", "%1$d files"), ("pages", "%1$d pages")]
      [[("files", "%1$d file"), ("pages", "%1$d pages")],
        [("files", "%1$d files"), ("pages", "%1$d page")]] := by
  have hnames : (sharedCount.substitutions.map (·.name)).Nodup := by decide
  have hshort : ∀ s ∈ firstNumbered? sharedCount.baseTexts, s.isOverlong = false := by
    decide +kernel
  have hmode : (firstNumbered? sharedCount.baseTexts).isSome = true := by decide +kernel
  have hcomputed : sharedCount.substitutionMaps =
      .ok [[("files", "%1$d files"), ("pages", "%1$d pages")],
        [("files", "%1$d file"), ("pages", "%1$d pages")],
        [("files", "%1$d files"), ("pages", "%1$d page")]] := by decide +kernel
  obtain ⟨first, others, hmaps, hexact⟩ := (substitutionMaps_exact hnames).2 hshort
  obtain ⟨rfl, rfl⟩ := List.cons.inj (Except.ok.inj (hmaps.symm.trans hcomputed))
  rw [hmode] at hexact
  exact ⟨hnames, hshort, hexact⟩

/-- A numeral of one digit more than it may have. -/
def overlongDigits : Text := List.replicate (longestNumeral + 1) (.char '1')

/-- A count of files behind a position that has no value. -/
def overlongCount : CatalogEntry :=
  ⟨"k", some (.char '%' :: (overlongDigits ++ .char '$' :: .char 'd' ::
    Text.ofString " of %#@files@")), [],
    [⟨"files", "d", some 1, [("plural.one", "%arg file"), ("plural.other", "%arg files")]⟩],
    none, .null⟩

theorem substitutionMaps_overlongCount : (overlongCount.substitutions.map (·.name)).Nodup ∧
    overlongCount.substitutionMaps = .error .numeralTooLong := by
  have hnames : (overlongCount.substitutions.map (·.name)).Nodup := by decide
  have hones : ∀ c ∈ overlongDigits, c = .char '1' := fun c => List.eq_of_mem_replicate
  have hlength : overlongDigits.length = longestNumeral + 1 := List.length_replicate
  have hread := read?_digits_dollar hones (List.ne_nil_of_length_pos (by omega))
    (Text.ofString " of %#@files@")
  have hfirst : firstNumbered? overlongCount.baseTexts =
      some ⟨some overlongDigits, none, none, none, ⟨[], 'd', rfl⟩⟩ := by
    have hbase : overlongCount.baseTexts = [.char '%' :: (overlongDigits ++ .char '$' ::
      .char 'd' :: Text.ofString " of %#@files@")] := rfl
    rw [firstNumbered?, hbase, List.flatMap_singleton, Piece.split_of_read?_some hread]
    rfl
  have hlong : Specifier.isOverlong ⟨some overlongDigits, none, none, none, ⟨[], 'd', rfl⟩⟩ =
      true := by
    simp [Specifier.isOverlong, hlength]
  refine ⟨hnames, ?_⟩
  rw [substitutionMaps, usesPositions_of_overlong hfirst hlong]
  rfl

end CatalogEntry

end StringCatalog
