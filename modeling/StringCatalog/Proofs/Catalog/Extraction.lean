import StringCatalog.Catalog.Extraction
import StringCatalog.Proofs.Format.Reconcile
import StringCatalog.Proofs.Format.Scan

/-! Resources from entries. The default value of a resource is one of the templates that its
arguments are reconciled from, so that every placeholder of it has its argument. -/

namespace StringCatalog.CatalogEntry

variable {e : CatalogEntry} {r : Resource}

theorem defaultText_mem_baseTexts (e : CatalogEntry) : e.defaultText ∈ e.baseTexts := by
  unfold defaultText baseTexts
  cases e.value with
  | some text => exact List.mem_singleton_self text
  | none =>
    cases hother : e.variations.other? with
    | none => cases e.variations <;> simp
    | some text =>
      obtain ⟨v, hfind, rfl⟩ := Option.map_eq_some_iff.mp hother
      have hmem := List.mem_of_find?_eq_some hfind
      cases hvariations : e.variations with
      | nil => simp [hvariations] at hmem
      | cons first rest =>
        rw [hvariations] at hmem
        exact List.mem_map_of_mem hmem

/-- The first map gives every substitution its primary text, and it is always there. -/
theorem substitutionMaps_eq_ok {maps : List SubstitutionMap} (h : e.substitutionMaps = .ok maps) :
    ∃ positional others, usesPositions e.baseTexts = .ok positional ∧
      maps = e.primaryMap positional :: others := by
  obtain ⟨positional, hpositional, h⟩ := Sequence.bind_eq_ok_iff.mp h
  cases h
  exact ⟨positional, _, hpositional, List.eraseDups_cons⟩

/-- The templates of an entry are those of its texts with its substitution maps. -/
theorem mem_variants {variants : List Template} {maps : List SubstitutionMap}
    (h : e.variants = .ok variants) (hmaps : e.substitutionMaps = .ok maps) (t : Template) :
    t ∈ variants ↔ ∃ text ∈ e.baseTexts, ∃ subs ∈ maps, Template.scan text subs = .ok t := by
  obtain ⟨maps', hmaps', h⟩ := Sequence.bind_eq_ok_iff.mp h
  obtain rfl := Except.ok.inj (hmaps'.symm.trans hmaps)
  rw [Sequence.mem_of_mapM_eq_ok h]
  simp only [List.mem_eraseDups, List.mem_flatMap, List.mem_map]
  constructor
  · rintro ⟨pair, ⟨text, htext, subs, hsubs, rfl⟩, hscan⟩
    exact ⟨text, htext, subs, hsubs, hscan⟩
  · rintro ⟨text, htext, subs, hsubs, hscan⟩
    exact ⟨(text, subs), ⟨text, htext, subs, hsubs, rfl⟩, hscan⟩

/-- Every text of an entry that has templates is scanned with each of its maps. -/
theorem exists_scan_eq_ok {variants : List Template} {maps : List SubstitutionMap}
    (h : e.variants = .ok variants) (hmaps : e.substitutionMaps = .ok maps) {text : Text}
    (htext : text ∈ e.baseTexts) {subs : SubstitutionMap} (hsubs : subs ∈ maps) :
    ∃ t, Template.scan text subs = .ok t := by
  obtain ⟨maps', hmaps', h⟩ := Sequence.bind_eq_ok_iff.mp h
  obtain rfl := Except.ok.inj (hmaps'.symm.trans hmaps)
  refine Sequence.exists_of_mapM_eq_ok h (?_ : (text, subs) ∈ _)
  rw [List.mem_eraseDups, List.mem_flatMap]
  exact ⟨text, htext, List.mem_map_of_mem hsubs⟩

/-- What an entry that has a resource comes to. -/
theorem toResource_eq_ok (h : e.toResource = .ok r) :
    ∃ maps variants, e.substitutionMaps = .ok maps ∧ e.variants = .ok variants ∧
      Argument.reconcile variants e.key = .ok r.arguments ∧
      Template.scan e.defaultText (maps.headD []) = .ok r.defaultValue := by
  obtain ⟨maps, hmaps, h⟩ := Sequence.bind_eq_ok_iff.mp h
  obtain ⟨variants, hvariants, h⟩ := Sequence.bind_eq_ok_iff.mp h
  obtain ⟨arguments, harguments, h⟩ := Sequence.bind_eq_ok_iff.mp h
  obtain ⟨defaultValue, hdefault, h⟩ := Sequence.bind_eq_ok_iff.mp h
  cases h
  exact ⟨maps, variants, hmaps, hvariants, Sequence.mapError_eq_ok_iff.mp harguments, hdefault⟩

/-- An entry whose templates have common arguments has a resource: its default value is one of these
templates. -/
theorem exists_toResource {variants : List Template} {arguments : List Argument}
    (hvariants : e.variants = .ok variants)
    (hreconcile : Argument.reconcile variants e.key = .ok arguments) :
    ∃ r, e.toResource = .ok r := by
  obtain ⟨maps, hmaps, -⟩ := Sequence.bind_eq_ok_iff.mp hvariants
  obtain ⟨positional, others, -, rfl⟩ := substitutionMaps_eq_ok hmaps
  obtain ⟨t, hscan⟩ := exists_scan_eq_ok hvariants hmaps (defaultText_mem_baseTexts e)
    List.mem_cons_self
  refine ⟨_, Sequence.bind_eq_ok_iff.mpr ⟨_, hmaps, Sequence.bind_eq_ok_iff.mpr
    ⟨_, hvariants, Sequence.bind_eq_ok_iff.mpr ⟨_, Sequence.mapError_eq_ok_iff.mpr hreconcile,
      Sequence.bind_eq_ok_iff.mpr ⟨t, hscan, rfl⟩⟩⟩⟩⟩

/-- The arguments of a resource are those that all templates of its entry come to, and no template
has a collision. -/
theorem reconciled_of_toResource (h : e.toResource = .ok r) :
    ∃ maps variants, e.substitutionMaps = .ok maps ∧ e.variants = .ok variants ∧
      Template.scan e.defaultText (maps.headD []) = .ok r.defaultValue ∧
      (∀ v ∈ variants, ∀ p ∈ v.placeholders, ∀ n ∈ p.position, 1 ≤ n) ∧
      (∀ v ∈ variants, ∃ slotted, v.slots e.key = .ok slotted) ∧
      Argument.Reconciled e.key (Argument.Used variants) (.ok r.arguments) := by
  obtain ⟨maps, variants, hmaps, hvariants, hreconcile, hscan⟩ := toResource_eq_ok h
  have hpositions : ∀ v ∈ variants, ∀ p ∈ v.placeholders, ∀ n ∈ p.position, 1 ≤ n := by
    intro v hv p hp
    obtain ⟨text, -, subs, -, hv⟩ := (mem_variants hvariants hmaps v).mp hv
    obtain ⟨expanded, -, rfl⟩ := Template.scan_eq_ok hv
    exact Template.position_pos hp
  have hslots := Argument.exists_slots_of_reconcile_eq_ok hreconcile
  have hreconciled := Argument.reconciled_reconcile hslots fun slot kind =>
    Argument.used_pos hpositions
  rw [hreconcile] at hreconciled
  exact ⟨maps, variants, hmaps, hvariants, hscan, hpositions, hslots, hreconciled⟩

/-- The default value of a resource is a template of its entry, and the arguments are those that all
templates of the entry come to. -/
theorem exists_variants_of_toResource (h : e.toResource = .ok r) :
    ∃ variants, r.defaultValue ∈ variants ∧
      (∀ v ∈ variants, ∀ p ∈ v.placeholders, ∀ n ∈ p.position, 1 ≤ n) ∧
      (∀ v ∈ variants, ∃ slotted, v.slots e.key = .ok slotted) ∧
      Argument.Reconciled e.key (Argument.Used variants) (.ok r.arguments) := by
  obtain ⟨maps, variants, hmaps, hvariants, hscan, hpositions, hslots, hreconciled⟩ :=
    reconciled_of_toResource h
  obtain ⟨positional, others, -, rfl⟩ := substitutionMaps_eq_ok hmaps
  exact ⟨variants, (mem_variants hvariants hmaps _).mpr
    ⟨_, defaultText_mem_baseTexts e, _, List.mem_cons_self, hscan⟩, hpositions, hslots, hreconciled⟩

/-- The slots of a default value do not collide, they are positive, and the argument with the name
of a slot is that of the placeholder, with its kind. -/
theorem exists_slots_defaultValue (h : e.toResource = .ok r) (key : Text) :
    ∃ slotted, r.defaultValue.slots key = .ok slotted ∧ ∀ s ∈ slotted, 1 ≤ s.2 ∧
      ∀ a, a ∈ r.arguments ∧ a.name = Argument.nameAt s.2 ↔
        a = ⟨Argument.nameAt s.2, s.1.kind, s.2⟩ := by
  obtain ⟨variants, hmem, hpositions, hslots, hreconciled⟩ := exists_variants_of_toResource h
  obtain ⟨slotted, hslotted⟩ := hslots _ hmem
  refine ⟨slotted, Template.slots_congr hslotted key, fun s hs => ⟨?_, ?_⟩⟩
  · exact Template.slots_pos hslotted (hpositions _ hmem) s hs
  · exact Argument.mem_and_name_iff hreconciled
      ⟨_, hmem, slotted, Template.slots_congr hslotted [], s, hs, rfl, rfl⟩

end StringCatalog.CatalogEntry
