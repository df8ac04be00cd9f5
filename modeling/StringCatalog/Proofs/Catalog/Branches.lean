import StringCatalog.Proofs.Catalog.Extraction
import StringCatalog.Proofs.Format.Expansion
import StringCatalog.Proofs.Format.Positional

/-! Choices of branches. The extraction tries the branches of a substitution with all others on
their primary texts. Where all texts are positional, this covers every choice of one branch for
each substitution: whatever placeholder such a choice puts into a text has its argument. -/

namespace StringCatalog

namespace Substitution

variable {s : Substitution} {positional : Bool}

theorem primary?_mem {text : Text} (h : s.primary? positional = some text) :
    text ∈ s.texts positional := by
  unfold primary? at h
  split at h
  · rename_i raw hother
    cases h
    obtain ⟨v, hfind, rfl⟩ := Option.map_eq_some_iff.mp hother
    exact List.mem_map.mpr ⟨v, List.mem_of_find?_eq_some hfind, rfl⟩
  · obtain ⟨v, hlast, rfl⟩ := Option.map_eq_some_iff.mp h
    exact List.mem_map.mpr ⟨v, List.mem_of_getLast? hlast, rfl⟩

theorem exists_primary? (h : s.variations ≠ []) (positional : Bool) :
    ∃ text, s.primary? positional = some text := by
  unfold primary?
  cases s.variations.other? with
  | some text => exact ⟨_, rfl⟩
  | none =>
    rw [List.getLast?_eq_some_getLast h]
    exact ⟨_, rfl⟩

end Substitution

namespace CatalogEntry

/-- The texts of the map are branches of the substitutions with their names, and each of the given
substitutions has one, unless it has no branches. -/
structure ChoosesFor (e : CatalogEntry) (among : List Substitution) (subs : SubstitutionMap) :
    Prop where
  branch : ∀ pair ∈ subs, ∃ s ∈ e.substitutions, s.name = pair.1 ∧ pair.2 ∈ s.texts true
  complete : ∀ s ∈ among, s.variations ≠ [] → ∃ text, OrderedMap.get? subs s.name = some text

/-- The map chooses a branch of each substitution that has any. -/
def IsChoice (e : CatalogEntry) (subs : SubstitutionMap) : Prop :=
  e.ChoosesFor e.substitutions subs

/-- The part is positional text, or the marker of a substitution that has branches. -/
def HasPart (e : CatalogEntry) : Part → Prop
  | .plain t => t.IsPositional
  | .marker name => ∃ s ∈ e.substitutions, s.name = name ∧ s.variations ≠ []

instance (e : CatalogEntry) : DecidablePred e.HasPart
  | .plain t => inferInstanceAs (Decidable t.IsPositional)
  | .marker name =>
    inferInstanceAs (Decidable (∃ s ∈ e.substitutions, s.name = name ∧ s.variations ≠ []))

/-- The arguments of the entry are numbered, the names of its substitutions can be told from what
surrounds them, and apart from their markers its texts are positional. -/
structure Numbered (e : CatalogEntry) : Prop where
  numbered : usesPositions e.baseTexts = .ok true
  names : ∀ s ∈ e.substitutions, Part.IsName s.name
  branches : ∀ s ∈ e.substitutions, ∀ text ∈ s.texts true, text.IsPositional
  bases : ∀ text ∈ e.baseTexts, ∃ parts : List Part, text = parts.flatMap Part.text ∧
    ∀ part ∈ parts, e.HasPart part

variable {e : CatalogEntry} {r : Resource} {subs : SubstitutionMap}

theorem IsChoice.put (h : e.IsChoice subs) {s : Substitution} (hs : s ∈ e.substitutions)
    {text : Text} (htext : text ∈ s.texts true) :
    e.IsChoice (OrderedMap.put subs s.name text) := by
  constructor
  · intro pair hpair
    rcases OrderedMap.mem_put hpair with rfl | hold
    · exact ⟨s, hs, rfl, htext⟩
    · exact h.branch pair hold
  · intro s' hs' hbranches
    rw [OrderedMap.get?_put]
    split
    · exact ⟨text, rfl⟩
    · exact h.complete s' hs' hbranches

/-- The primary texts make up the first map. -/
theorem primaryMap_eq_ofPairs (e : CatalogEntry) (positional : Bool) :
    e.primaryMap positional = OrderedMap.ofPairs
      (e.substitutions.filterMap fun s => (s.primary? positional).map (s.name, ·)) := by
  rw [primaryMap, OrderedMap.ofPairs, List.foldl_filterMap]
  congr
  funext map s
  cases s.primary? positional <;> rfl

/-- The texts of the first map are branches of the substitutions with their names. -/
theorem branch_of_mem_primaryMap {positional : Bool} {pair : Text × Text}
    (h : pair ∈ e.primaryMap positional) :
    ∃ s ∈ e.substitutions, s.name = pair.1 ∧ pair.2 ∈ s.texts positional := by
  rw [primaryMap_eq_ofPairs] at h
  obtain ⟨s, hs, hpair⟩ := List.mem_filterMap.mp ((OrderedMap.ofPairs_subperm _).subset h)
  obtain ⟨text, hprimary, rfl⟩ := Option.map_eq_some_iff.mp hpair
  exact ⟨s, hs, rfl, Substitution.primary?_mem hprimary⟩

/-- The first map is a choice. -/
theorem isChoice_primaryMap (e : CatalogEntry) : e.IsChoice (e.primaryMap true) := by
  refine ⟨fun pair hpair => branch_of_mem_primaryMap hpair, fun s hs hbranches => ?_⟩
  obtain ⟨text, hprimary⟩ := Substitution.exists_primary? hbranches true
  have hmem : (s.name, text) ∈
      e.substitutions.filterMap fun s => (s.primary? true).map (s.name, ·) :=
    List.mem_filterMap.mpr ⟨s, hs, by rw [hprimary]; rfl⟩
  rw [primaryMap_eq_ofPairs, ← Option.isSome_iff_exists, Option.isSome_iff_ne_none, ne_eq,
    OrderedMap.get?_eq_none_iff, not_not, OrderedMap.mem_keys_ofPairs]
  exact List.mem_map_of_mem hmem

/-! ### The maps that are tried -/

section Tried

variable {positional : Bool} {maps : List SubstitutionMap}

theorem substitutionMaps_of_mode (h : usesPositions e.baseTexts = .ok positional) :
    e.substitutionMaps = .ok (e.primaryMap positional ::
      e.alternatives positional (e.primaryMap positional)).eraseDups := by
  rw [substitutionMaps, h]
  rfl

theorem mem_alternatives {primary map : SubstitutionMap} :
    map ∈ e.alternatives positional primary ↔ ∃ s ∈ e.substitutions, ∃ v ∈ s.variations,
      isEligible positional v.2 = true ∧
      OrderedMap.get? primary s.name ≠ some (s.resolve positional v.2) ∧
      map = OrderedMap.put primary s.name (s.resolve positional v.2) := by
  simp only [alternatives, List.mem_flatMap, List.mem_filterMap, List.mem_filter,
    Option.ite_none_left_eq_some, Option.some.injEq, and_assoc, ne_eq, @eq_comm _ _ map]

/-- Every map that is tried is the first one or that of a branch. -/
theorem eq_or_put_of_mem (hmode : usesPositions e.baseTexts = .ok positional)
    (hmaps : e.substitutionMaps = .ok maps) (hsubs : subs ∈ maps) :
    subs = e.primaryMap positional ∨ ∃ s ∈ e.substitutions, ∃ v ∈ s.variations,
      subs = OrderedMap.put (e.primaryMap positional) s.name (s.resolve positional v.2) := by
  obtain rfl := Except.ok.inj ((substitutionMaps_of_mode hmode).symm.trans hmaps)
  rcases List.mem_cons.mp (List.mem_eraseDups.mp hsubs) with hfirst | halternative
  · exact Or.inl hfirst
  · obtain ⟨s, hs, v, hv, -, -, hput⟩ := mem_alternatives.mp halternative
    exact Or.inr ⟨s, hs, v, hv, hput⟩

/-- The map of a branch is tried if its text is the primary one or eligible. -/
theorem put_mem_maps (hmode : usesPositions e.baseTexts = .ok positional)
    (hmaps : e.substitutionMaps = .ok maps) {s : Substitution} (hs : s ∈ e.substitutions)
    {v : Text × Text} (hv : v ∈ s.variations)
    (htried : OrderedMap.get? (e.primaryMap positional) s.name = some (s.resolve positional v.2) ∨
      isEligible positional v.2 = true) :
    OrderedMap.put (e.primaryMap positional) s.name (s.resolve positional v.2) ∈ maps := by
  obtain rfl := Except.ok.inj ((substitutionMaps_of_mode hmode).symm.trans hmaps)
  rw [List.mem_eraseDups]
  by_cases hprimary :
      OrderedMap.get? (e.primaryMap positional) s.name = some (s.resolve positional v.2)
  · rw [OrderedMap.put_eq_self hprimary]
    exact List.mem_cons_self
  · exact List.mem_cons_of_mem _
      (mem_alternatives.mpr ⟨s, hs, v, hv, htried.resolve_left hprimary, hprimary, rfl⟩)

/-- The texts of every map that is tried are branches of the substitutions with their names. -/
theorem branch_of_mem_maps (hmode : usesPositions e.baseTexts = .ok positional)
    (hmaps : e.substitutionMaps = .ok maps) (hsubs : subs ∈ maps) {pair : Text × Text}
    (hpair : pair ∈ subs) :
    ∃ s ∈ e.substitutions, s.name = pair.1 ∧ pair.2 ∈ s.texts positional := by
  rcases eq_or_put_of_mem hmode hmaps hsubs with rfl | ⟨s, hs, v, hv, rfl⟩
  · exact branch_of_mem_primaryMap hpair
  · rcases OrderedMap.mem_put hpair with rfl | hold
    · exact ⟨s, hs, rfl, List.mem_map_of_mem hv⟩
    · exact branch_of_mem_primaryMap hold

end Tried

/-- Every map that is tried is a choice. -/
theorem isChoice_of_mem {maps : List SubstitutionMap}
    (h : usesPositions e.baseTexts = .ok true) (hmaps : e.substitutionMaps = .ok maps)
    (hsubs : subs ∈ maps) : e.IsChoice subs := by
  rcases eq_or_put_of_mem h hmaps hsubs with rfl | ⟨s, hs, v, hv, rfl⟩
  · exact isChoice_primaryMap e
  · exact (isChoice_primaryMap e).put hs (List.mem_map_of_mem hv)

/-- Every branch is the text of its name in some map that is tried. -/
theorem exists_map_of_branch {maps : List SubstitutionMap}
    (h : usesPositions e.baseTexts = .ok true) (hmaps : e.substitutionMaps = .ok maps)
    {s : Substitution} (hs : s ∈ e.substitutions) {text : Text} (htext : text ∈ s.texts true) :
    ∃ tried ∈ maps, OrderedMap.get? tried s.name = some text := by
  obtain ⟨v, hv, rfl⟩ := List.mem_map.mp htext
  refine ⟨_, put_mem_maps h hmaps hs hv (Or.inr rfl), ?_⟩
  rw [OrderedMap.get?_put, if_pos rfl]

theorem Numbered.wellFormed (h : e.Numbered) {part : Part} (hpart : e.HasPart part) :
    part.WellFormed := by
  cases part with
  | plain t => exact Text.IsPositional.hash_notMem hpart
  | marker name =>
    obtain ⟨s, hs, rfl, -⟩ := hpart
    exact h.names s hs

/-- The parts of a text are filled with the texts of a choice. -/
theorem Numbered.expand (h : e.Numbered) (hsubs : e.IsChoice subs) {parts : List Part}
    (hparts : ∀ part ∈ parts, e.HasPart part) :
    subs.expand (parts.flatMap Part.text) = .ok (parts.flatMap (Part.filled subs)) := by
  refine SubstitutionMap.expand_parts (fun pair hpair => ?_) fun part hpart =>
    h.wellFormed (hparts part hpart)
  obtain ⟨s, hs, hname, htext⟩ := hsubs.branch pair hpair
  exact ⟨hname ▸ h.names s hs, (h.branches s hs _ htext).hash_notMem⟩

/-- A filled part is positional. -/
theorem Numbered.isPositional_filled (h : e.Numbered) (hsubs : e.IsChoice subs) {part : Part}
    (hpart : e.HasPart part) : (part.filled subs).IsPositional := by
  cases part with
  | plain t => exact hpart
  | marker name =>
    obtain ⟨s, hs, rfl, hbranches⟩ := hpart
    obtain ⟨text, hget⟩ := hsubs.complete s hs hbranches
    obtain ⟨s', hs', -, htext⟩ := hsubs.branch _ (OrderedMap.mem_of_get?_eq_some hget)
    rw [Part.filled, hget]
    exact h.branches s' hs' text htext

/-- The tokens of an expanded text are those of its filled parts. -/
theorem Numbered.ofText_filled (h : e.Numbered) (hsubs : e.IsChoice subs) {parts : List Part}
    (hparts : ∀ part ∈ parts, e.HasPart part) :
    Token.ofText (parts.flatMap (Part.filled subs)) =
      parts.flatMap fun part => Token.ofText (part.filled subs) := by
  induction parts with
  | nil => simp
  | cons part parts ih =>
    have hpositional := h.isPositional_filled hsubs (hparts part List.mem_cons_self)
    rw [List.flatMap_cons, List.flatMap_cons, hpositional.ofText_append,
      ih fun p hp => hparts p (List.mem_cons_of_mem part hp)]

/-- Every specifier that a choice puts into a text has a position. -/
theorem Numbered.isSome_numeral (h : e.Numbered) (hsubs : e.IsChoice subs) {parts : List Part}
    (hparts : ∀ part ∈ parts, e.HasPart part) {s : Specifier}
    (hs : .specifier s ∈ Token.ofText (parts.flatMap (Part.filled subs))) : s.numeral.isSome := by
  rw [h.ofText_filled hsubs hparts] at hs
  obtain ⟨part, hpart, hs⟩ := List.mem_flatMap.mp hs
  have hpositional := h.isPositional_filled hsubs (hparts part hpart)
  exact (Text.isPositional_iff.mp hpositional _ hs).2.1

theorem Numbered.isSome_position (h : e.Numbered) (hsubs : e.IsChoice subs) {parts : List Part}
    (hparts : ∀ part ∈ parts, e.HasPart part) {p : Placeholder}
    (hp : p ∈ (Template.ofTokens
      (Token.ofText (parts.flatMap (Part.filled subs)))).placeholders) : p.position.isSome := by
  obtain ⟨s, hs, rfl⟩ := Template.mem_placeholders_ofTokens.mp hp
  simpa [Template.placeholderOf, Specifier.position] using h.isSome_numeral hsubs hparts hs

/-- A specifier that a choice puts into a text is also there with one of the maps that are tried. -/
theorem Numbered.exists_tried (h : e.Numbered) (hsubs : e.IsChoice subs) {parts : List Part}
    (hparts : ∀ part ∈ parts, e.HasPart part) {maps : List SubstitutionMap}
    (hmaps : e.substitutionMaps = .ok maps) {s : Specifier}
    (hs : .specifier s ∈ Token.ofText (parts.flatMap (Part.filled subs))) :
    ∃ tried ∈ maps, .specifier s ∈ Token.ofText (parts.flatMap (Part.filled tried)) := by
  rw [h.ofText_filled hsubs hparts] at hs
  obtain ⟨part, hpart, hs⟩ := List.mem_flatMap.mp hs
  -- it is enough that some map fills the part in the same way
  have hsame : ∃ tried ∈ maps, part.filled tried = part.filled subs := by
    cases part with
    | plain t =>
      obtain ⟨positional, others, -, rfl⟩ := substitutionMaps_eq_ok hmaps
      exact ⟨_, List.mem_cons_self, rfl⟩
    | marker name =>
      obtain ⟨sub, hsub, rfl, hbranches⟩ := hparts _ hpart
      obtain ⟨text, hget⟩ := hsubs.complete sub hsub hbranches
      obtain ⟨sub', hsub', hname, htext⟩ := hsubs.branch _ (OrderedMap.mem_of_get?_eq_some hget)
      obtain ⟨tried, htried, hget'⟩ := exists_map_of_branch h.numbered hmaps hsub' htext
      rw [hname] at hget'
      exact ⟨tried, htried, by rw [Part.filled, Part.filled, hget, hget']⟩
  obtain ⟨tried, htried, hfilled⟩ := hsame
  have hchoice := isChoice_of_mem h.numbered hmaps htried
  refine ⟨tried, htried, ?_⟩
  rw [h.ofText_filled hchoice hparts]
  exact List.mem_flatMap.mpr ⟨part, hpart, by rwa [hfilled]⟩

/-- The specifiers that a choice puts into a text have positions whose numerals are not too long,
and there are arguments for them. -/
theorem Numbered.argument_of_specifier (h : e.Numbered) (hr : e.toResource = .ok r)
    (hsubs : e.IsChoice subs) {parts : List Part} (hparts : ∀ part ∈ parts, e.HasPart part)
    (htext : parts.flatMap Part.text ∈ e.baseTexts) {s : Specifier}
    (hs : .specifier s ∈ Token.ofText (parts.flatMap (Part.filled subs))) :
    s.isOverlong = false ∧ ∃ n : Nat, s.position = some n ∧
      ⟨Argument.nameAt n, s.kind, n⟩ ∈ r.arguments := by
  obtain ⟨maps, variants, hmaps, hvariants, -, -, -, hreconciled⟩ := reconciled_of_toResource hr
  obtain ⟨tried, htried, hs⟩ := h.exists_tried hsubs hparts hmaps hs
  have hchoice := isChoice_of_mem h.numbered hmaps htried
  have hexpand := h.expand hchoice hparts
  obtain ⟨v, hscan⟩ := exists_scan_eq_ok hvariants hmaps htext htried
  have hv : v ∈ variants := (mem_variants hvariants hmaps v).mpr ⟨_, htext, tried, htried, hscan⟩
  rw [Template.scan, hexpand] at hscan
  have hshort := Template.isOverlong_of_ofText_eq_ok hscan hs
  obtain rfl := Template.eq_ofTokens_of_ofText_eq_ok hscan
  refine ⟨hshort, ?_⟩
  obtain ⟨digits, hdigits⟩ := Option.isSome_iff_exists.mp (h.isSome_numeral hchoice hparts hs)
  have hposition : s.position = some (Text.toNat digits) := by rw [Specifier.position, hdigits]; rfl
  refine ⟨Text.toNat digits, hposition, ?_⟩
  have hslots := Template.slots_of_numbered (fun p hp => h.isSome_position hchoice hparts hp) []
  have hused : Argument.Used variants (Text.toNat digits) s.kind := by
    refine ⟨_, hv, _, hslots, (Template.placeholderOf s, (Text.toNat digits : Int)), ?_, rfl, rfl⟩
    refine List.mem_map.mpr ⟨_, Template.mem_placeholders_ofTokens.mpr ⟨s, hs, rfl⟩, ?_⟩
    simp [Template.placeholderOf, hposition]
  exact ((Argument.mem_and_name_iff hreconciled hused _).mpr rfl).1

/-- Every choice of one branch for each substitution is covered. In a text of the entry, expanded
with the choice, the placeholders have arguments at their slots and of their kinds. The scan gives
them, unless an escaped percent sign stands before a position whose numeral is too long. -/
theorem scan_choice (hr : e.toResource = .ok r) (h : e.Numbered) {text : Text}
    (htext : text ∈ e.baseTexts) (hsubs : e.IsChoice subs) :
    ∃ expanded t slotted, subs.expand text = .ok expanded ∧
      t = Template.ofTokens (Token.ofText expanded) ∧
      (Template.scan text subs = .ok t ∨
        Template.scan text subs = .error .numeralTooLong ∧
          ∃ (index : Nat) (m : SpecifierMatch), SpecifierMatch.at? expanded index = some m ∧
            m.specifier.isOverlong = true ∧
            Text.trailingPercents (expanded.take index) % 2 = 1) ∧
      t.slots e.key = .ok slotted ∧ slotted.map (·.1) = t.placeholders ∧
      ∀ s ∈ slotted, ⟨Argument.nameAt s.2, s.1.kind, s.2⟩ ∈ r.arguments := by
  obtain ⟨parts, rfl, hparts⟩ := h.bases text htext
  have hexpand := h.expand hsubs hparts
  have hslots := Template.slots_of_numbered (fun p hp => h.isSome_position hsubs hparts hp) e.key
  refine ⟨_, _, _, hexpand, rfl, ?_, hslots, by rw [List.map_map]; exact List.map_id _, ?_⟩
  · rw [Template.scan, hexpand]
    dsimp only
    rw [Template.ofText_eq]
    split
    · rename_i hlong
      obtain ⟨s, hs, hoverlong⟩ := List.any_eq_true.mp hlong
      obtain ⟨index, m, hat, rfl⟩ := SpecifierMatch.mem_specifiers_iff.mp hs
      refine Or.inr ⟨rfl, index.toNat, m, hat, hoverlong, ?_⟩
      -- a specifier that is not escaped has an argument, so its numeral is not too long
      by_contra heven
      obtain ⟨⟨found, tail⟩, hread, rfl⟩ := Option.map_eq_some_iff.mp hat
      have hmem := Template.mem_tokens_of_read? hread (Template.Settled.nil _) (by
        simpa [Template.endsInLonePercent, Text.trailingPercents] using heven)
      have hshort := (h.argument_of_specifier hr hsubs hparts htext hmem).1
      rw [hshort] at hoverlong
      contradiction
    · exact Or.inl rfl
  · intro slotted hslotted
    obtain ⟨p, hp, rfl⟩ := List.mem_map.mp hslotted
    obtain ⟨s, hs, rfl⟩ := Template.mem_placeholders_ofTokens.mp hp
    obtain ⟨-, n, hposition, hargument⟩ := h.argument_of_specifier hr hsubs hparts htext hs
    have hslot : ((Template.placeholderOf s).position.getD 0) = n := by
      simp [Template.placeholderOf, hposition]
    rw [hslot]
    exact hargument

/-- Two counts that share an argument. -/
def sharedCount : CatalogEntry :=
  ⟨"import.summary", some "%#@files@, %#@pages@ (100%% of %1$d)", [],
    [⟨"files", "d", some 1, [("one", "%arg file"), ("other", "%arg files")]⟩,
      ⟨"pages", "d", some 1, [("one", "%arg page"), ("other", "%arg pages")]⟩], none, .null⟩

/-- The singular of both, which the extraction does not try. -/
def singularCount : SubstitutionMap := [("files", "%1$d file"), ("pages", "%1$d page")]

theorem scan_choice_sharedCount : ∃ r t slotted, sharedCount.toResource = .ok r ∧
    sharedCount.Numbered ∧ sharedCount.IsChoice singularCount ∧
    t = Template.ofTokens (Token.ofText "%1$d file, %1$d page (100%% of %1$d)") ∧
    t.slots "import.summary" = .ok slotted ∧
    ∀ s ∈ slotted, ⟨Argument.nameAt s.2, s.1.kind, s.2⟩ ∈ r.arguments := by
  obtain ⟨r, hr⟩ : ∃ r, sharedCount.toResource = .ok r := by
    have hsome : sharedCount.toResource.toOption.isSome := by decide +kernel
    cases h : sharedCount.toResource with
    | error e => simp [h, Except.toOption] at hsome
    | ok r => exact ⟨r, rfl⟩
  have hnumbered : sharedCount.Numbered := by
    refine ⟨by decide +kernel, by decide, by decide +kernel, ?_⟩
    intro text htext
    obtain rfl := List.mem_singleton.mp htext
    refine ⟨[.marker "files", .plain ", ", .marker "pages", .plain " (100%% of %1$d)"], rfl, ?_⟩
    decide +kernel
  have hchoice : sharedCount.IsChoice singularCount := by
    refine ⟨by decide, fun s hs _ => ?_⟩
    rcases List.mem_pair.mp hs with rfl | rfl <;> exact ⟨_, rfl⟩
  obtain ⟨expanded, t, slotted, hexpand, rfl, -, hslots, -, harguments⟩ :=
    scan_choice hr hnumbered (List.mem_singleton_self _) hchoice
  have hexpanded : singularCount.expand "%#@files@, %#@pages@ (100%% of %1$d)" =
      .ok "%1$d file, %1$d page (100%% of %1$d)" := by decide +kernel
  obtain rfl := Except.ok.inj (hexpand.symm.trans hexpanded)
  exact ⟨r, _, slotted, hr, hnumbered, hchoice, rfl, hslots, harguments⟩

/-! ### An escape in front of a numeral -/

/-- Two substitutions without arguments. The first one is empty or a comma; the second one may
make a position of the digits before it. -/
def commaOrPosition : List Substitution :=
  [⟨"a", "@", none, [("one", ""), ("other", ",")]⟩,
    ⟨"b", "@", none, [("one", "$d"), ("other", ",")]⟩]

/-- Digits between the two substitutions, with an escaped percent sign before them. -/
def partsAround (digits : Text) : List Part :=
  [.plain "%%", .marker "a", .plain digits, .marker "b", .plain " %1$d"]

/-- The entry of such a text. -/
def digitsBetween (digits : Text) : CatalogEntry :=
  ⟨"k", some ((partsAround digits).flatMap Part.text), [], commaOrPosition, none, .null⟩

/-- The specifier at the end of the text. -/
def lastCount : Specifier := ⟨some "1", none, none, none, ⟨[], 'd', rfl⟩⟩

section DigitsBetween

variable {digits : Text}

theorem split_lastCount {middle : Text} (hmiddle : CodePoint.char '%' ∉ middle)
    (h : Specifier.read? (.char '%' :: (middle ++ .char ' ' :: lastCount.text)) = none) :
    Piece.split (.char '%' :: .char '%' :: (middle ++ .char ' ' :: lastCount.text)) =
      ((.char '%' :: .char '%' :: middle : Text) ++ [CodePoint.char ' ']).map .char ++
        [.specifier lastCount] := by
  have hspace : CodePoint.char '%' ∉ middle ++ [.char ' '] := by simpa using hmiddle
  have hsplit := Piece.split_append hspace lastCount.text
  rw [List.append_assoc, List.singleton_append] at hsplit
  have hlast : Piece.split lastCount.text = [.specifier lastCount] := rfl
  rw [Piece.split_of_read?_none (Specifier.read?_percent_percent _),
    Piece.split_of_read?_none h, hsplit, hlast]
  rfl

/-- A scan goes well if the middle of the text is not read with the percent sign before it. -/
theorem ofText_around {a b : Text} (hdigits : .char '%' ∉ digits) (ha : .char '%' ∉ a)
    (hb : .char '%' ∉ b)
    (h : Specifier.read? (.char '%' :: (a ++ digits ++ b ++ .char ' ' :: lastCount.text)) = none) :
    ∃ literal, Template.ofText ((partsAround digits).flatMap (Part.filled [("a", a), ("b", b)])) =
      .ok [.literal literal, .placeholder (Template.placeholderOf lastCount)] := by
  have hmiddle : CodePoint.char '%' ∉ a ++ digits ++ b := by simp [ha, hb, hdigits]
  have htext : (partsAround digits).flatMap (Part.filled [("a", a), ("b", b)]) =
      .char '%' :: .char '%' :: (a ++ digits ++ b ++ .char ' ' :: lastCount.text) := by
    have hlast : (((" %1$d" : String) : Text)) = .char ' ' :: lastCount.text := rfl
    have hfilled : (partsAround digits).map (Part.filled [("a", a), ("b", b)]) =
        [[.char '%', .char '%'], a, digits, b, .char ' ' :: lastCount.text] := rfl
    rw [List.flatMap_def, hfilled]
    simp
  rw [htext]
  exact ⟨_, Template.ofText_of_split (split_lastCount hmiddle h) (by decide) (by decide)⟩

/-- What a marker looks like to a reader of specifiers. -/
def markerStart : Specifier := ⟨none, some '#', none, none, ⟨[], '@', rfl⟩⟩

theorem specifiers_digitsBetween (hdigits : .char '%' ∉ digits) :
    Piece.specifiers (Piece.split ((partsAround digits).flatMap Part.text)) =
      [markerStart, markerStart, lastCount] := by
  have hmarker : ∀ rest : Text, Specifier.read? (.char '%' :: .char '#' :: .char '@' :: rest) =
      some (markerStart, rest) := fun _ => rfl
  have hbehind : Piece.specifiers (Piece.split "%#@b@ %1$d") = [markerStart, lastCount] := rfl
  have hmiddle : CodePoint.char '%' ∉ .char 'a' :: .char '@' :: digits := by simpa using hdigits
  have htext : (partsAround digits).flatMap Part.text = .char '%' :: .char '%' :: .char '%' ::
      .char '#' :: .char '@' :: ((.char 'a' :: .char '@' :: digits) ++
        Text.ofString "%#@b@ %1$d") := by
    have hparts : (partsAround digits).map Part.text =
      [[.char '%', .char '%'], .char '%' :: .char '#' :: .char '@' :: .char 'a' :: [.char '@'],
        digits, "%#@b@", " %1$d"] := rfl
    rw [List.flatMap_def, hparts]
    simp only [List.flatten_cons, List.flatten_nil, List.append_nil, List.cons_append,
      List.nil_append]
    rfl
  rw [htext, Piece.split_of_read?_none (Specifier.read?_percent_percent _),
    Piece.split_of_read?_none (Specifier.read?_percent_percent _),
    Piece.split_of_read?_some (hmarker _), Piece.split_append hmiddle]
  unfold Piece.specifiers at hbehind ⊢
  simp only [List.filterMap_cons, List.filterMap_append, List.filterMap_map, hbehind]
  simp

theorem usesPositions_digitsBetween (hdigits : .char '%' ∉ digits) :
    usesPositions (digitsBetween digits).baseTexts = .ok true := by
  have hbase : (digitsBetween digits).baseTexts = [(partsAround digits).flatMap Part.text] := rfl
  unfold usesPositions
  rw [hbase, List.flatMap_singleton, specifiers_digitsBetween hdigits]
  rfl

theorem hasPart_partsAround (h : ∀ c ∈ digits, c = .char '1') :
    ∀ part ∈ partsAround digits, (digitsBetween digits).HasPart part := by
  have hplain : digits.IsPositional := by
    have htext : ∀ s : Text, s = (s.map Token.char).flatMap Token.text := by
      intro s
      induction s with
      | nil => rfl
      | cons c s ih => exact congrArg (c :: ·) ih
    refine ⟨digits.map .char, htext digits, fun token htoken => ?_⟩
    obtain ⟨c, hc, rfl⟩ := List.mem_map.mp htoken
    rw [h c hc]
    decide
  have hfirst : Text.IsPositional "%%" := by decide +kernel
  have hlast : Text.IsPositional " %1$d" := by decide +kernel
  simp only [partsAround, List.forall_mem_cons]
  exact ⟨hfirst, ⟨_, List.mem_cons_self, rfl, by simp⟩, hplain,
    ⟨_, List.mem_cons_of_mem _ List.mem_cons_self, rfl, by simp⟩, hlast, by simp⟩

theorem numbered_digitsBetween (h : ∀ c ∈ digits, c = .char '1') :
    (digitsBetween digits).Numbered := by
  have hnames : ∀ s ∈ commaOrPosition, Part.IsName s.name := by decide
  have hbranches : ∀ s ∈ commaOrPosition, ∀ text ∈ s.texts true, text.IsPositional := by
    decide +kernel
  exact ⟨usesPositions_digitsBetween fun hmem => absurd (h _ hmem) (by decide), hnames, hbranches,
    fun text htext => ⟨partsAround digits, List.mem_singleton.mp htext, hasPart_partsAround h⟩⟩

/-- The maps that are tried. -/
def triedAround : List SubstitutionMap :=
  [[("a", ","), ("b", ",")], [("a", ""), ("b", ",")], [("a", ","), ("b", "$d")]]

theorem substitutionMaps_digitsBetween (h : .char '%' ∉ digits) :
    (digitsBetween digits).substitutionMaps = .ok triedAround := by
  rw [substitutionMaps_of_mode (usesPositions_digitsBetween h)]
  rfl

/-- The digits are no specifier where no dollar sign follows. -/
theorem read?_digits_of_ne_dollar (h : ∀ c ∈ digits, c = .char '1') (hlength : 2 ≤ digits.length)
    {c : CodePoint} (hc : isAsciiDigit c = false) (hne : c ≠ .char '$') (rest : Text) :
    Specifier.read? (.char '%' :: (digits ++ c :: rest)) = none := by
  have hnone := Specifier.readPosition_of_ne_dollar (fun d hd => by rw [h d hd]; decide) hc hne rest
  rw [Specifier.read?_percent, hnone]
  match digits with
  | [] => simp at hlength
  | [_] => simp at hlength
  | first :: second :: _ =>
    rw [h first (by simp), h second (by simp)]
    rfl

/-- With a dollar sign and a letter behind them, the digits are a position. -/
theorem read?_digits_dollar (h : ∀ c ∈ digits, c = .char '1') (hne : digits ≠ []) (rest : Text) :
    Specifier.read? (.char '%' :: (digits ++ .char '$' :: .char 'd' :: rest)) =
      some (⟨some digits, none, none, none, ⟨[], 'd', rfl⟩⟩, rest) := by
  obtain ⟨c, hc⟩ := List.exists_mem_of_ne_nil digits hne
  have hposition := Specifier.readPosition_dollar (fun d hd => by rw [h d hd]; decide)
    ⟨c, hc, by rw [h c hc]; decide⟩ (.char 'd' :: rest)
  rw [Specifier.read?_percent, hposition]
  rfl

/-- Alone, neither branch lets the percent sign and a position meet. -/
theorem variants_digitsBetween (h : ∀ c ∈ digits, c = .char '1') (hlength : 2 ≤ digits.length) :
    ∃ x y z, (digitsBetween digits).variants =
      .ok [[.literal x, .placeholder (Template.placeholderOf lastCount)],
        [.literal y, .placeholder (Template.placeholderOf lastCount)],
        [.literal z, .placeholder (Template.placeholderOf lastCount)]] := by
  have hpercent : CodePoint.char '%' ∉ digits := fun hmem => absurd (h _ hmem) (by decide)
  have hnumbered := numbered_digitsBetween h
  have hmaps := substitutionMaps_digitsBetween hpercent
  have hbase : (digitsBetween digits).baseTexts = [(partsAround digits).flatMap Part.text] := rfl
  obtain ⟨x, hx⟩ := ofText_around (a := ",") (b := ",") hpercent (by decide) (by decide) rfl
  obtain ⟨y, hy⟩ := ofText_around (a := "") (b := ",") hpercent (by decide) (by decide) (by
    have hnone := read?_digits_of_ne_dollar h hlength (c := .char ',') (by decide) (by decide)
      (.char ' ' :: lastCount.text)
    rw [← hnone]
    exact congrArg (fun s => Specifier.read? (.char '%' :: s)) (List.append_assoc digits [_] _))
  obtain ⟨z, hz⟩ := ofText_around (a := ",") (b := "$d") hpercent (by decide) (by decide) rfl
  -- each of the three maps fills the text so that it is scanned as above
  have hscan : ∀ {maps : List SubstitutionMap} {subs : SubstitutionMap} {t : Template},
      (digitsBetween digits).substitutionMaps = .ok maps → subs ∈ maps →
      Template.ofText ((partsAround digits).flatMap (Part.filled subs)) = .ok t →
      Template.scan ((partsAround digits).flatMap Part.text) subs = .ok t := by
    intro maps subs t hmaps hsubs ht
    have hexpand := hnumbered.expand (isChoice_of_mem hnumbered.numbered hmaps hsubs)
      (hasPart_partsAround h)
    rw [Template.scan, hexpand]
    exact ht
  have hdistinct : (triedAround.map fun subs =>
      ((partsAround digits).flatMap Part.text, subs)).Nodup := by
    have htried : triedAround.Nodup := by decide
    exact htried.map fun _ _ heq => (Prod.mk.inj heq).2
  refine ⟨x, y, z, ?_⟩
  unfold variants
  rw [hmaps, hbase]
  refine Sequence.mapM_eq_ok_iff.mpr ?_
  rw [List.flatMap_singleton, Sequence.eraseDups_of_nodup hdistinct]
  exact .cons (hscan hmaps (by simp [triedAround]) hx)
    (.cons (hscan hmaps (by simp [triedAround]) hy)
      (.cons (hscan hmaps (by simp [triedAround]) hz) .nil))

end DigitsBetween

/-- There are accepted entries and choices that cannot be scanned: alone, neither branch lets the
escaped percent sign and the numeral meet. -/
theorem exists_choice_numeralTooLong : ∃ (e : CatalogEntry) (r : Resource) (text : Text)
    (subs : SubstitutionMap), e.toResource = .ok r ∧ e.Numbered ∧ text ∈ e.baseTexts ∧
      e.IsChoice subs ∧ Template.scan text subs = .error .numeralTooLong := by
  obtain ⟨digits, hlong, hones⟩ : ∃ digits : Text, longestNumeral < digits.length ∧
      ∀ c ∈ digits, c = .char '1' :=
    ⟨List.replicate (longestNumeral + 1) (.char '1'), by simp, fun c => List.eq_of_mem_replicate⟩
  have hlength : 2 ≤ digits.length := Nat.le_trans (by decide) (Nat.le_of_lt hlong)
  have hnumbered := numbered_digitsBetween hones
  obtain ⟨x, y, z, hvariants⟩ := variants_digitsBetween hones hlength
  have hreconcile : Argument.reconcile
      [[.literal x, .placeholder (Template.placeholderOf lastCount)],
        [.literal y, .placeholder (Template.placeholderOf lastCount)],
        [.literal z, .placeholder (Template.placeholderOf lastCount)]] "k" =
      Argument.ofUses [(1, .int), (1, .int), (1, .int)] "k" := rfl
  have harguments : Argument.ofUses [(1, .int), (1, .int), (1, .int)] "k" =
      .ok [⟨"arg1", .int, 1⟩] := by decide +kernel
  obtain ⟨r, hr⟩ := exists_toResource hvariants (hreconcile.trans harguments)
  have hchoice : (digitsBetween digits).IsChoice [("a", ""), ("b", "$d")] := by
    have hbranch : ∀ pair ∈ ([("a", ""), ("b", "$d")] : SubstitutionMap),
        ∃ s ∈ commaOrPosition, s.name = pair.1 ∧ pair.2 ∈ s.texts true := by decide
    refine ⟨hbranch, fun s hs _ => ?_⟩
    rcases List.mem_pair.mp hs with rfl | rfl <;> exact ⟨_, rfl⟩
  refine ⟨_, r, _, _, hr, hnumbered, List.mem_singleton_self _, hchoice, ?_⟩
  have hfilled : (partsAround digits).map (Part.filled [("a", ""), ("b", "$d")]) =
      [[.char '%', .char '%'], [], digits, [.char '$', .char 'd'], " %1$d"] := rfl
  have htext : (partsAround digits).flatMap (Part.filled [("a", ""), ("b", "$d")]) =
      .char '%' :: .char '%' :: (digits ++ .char '$' :: .char 'd' :: Text.ofString " %1$d") := by
    rw [List.flatMap_def, hfilled]
    simp
  rw [Template.scan, hnumbered.expand hchoice (hasPart_partsAround hones), htext]
  have hread := read?_digits_dollar hones (List.ne_nil_of_length_pos (by omega)) " %1$d"
  have hoverlong : (Piece.specifiers (Piece.split (.char '%' :: .char '%' :: (digits ++
      .char '$' :: .char 'd' :: Text.ofString " %1$d")))).any Specifier.isOverlong = true := by
    rw [Piece.split_of_read?_none (Specifier.read?_percent_percent _),
      Piece.split_of_read?_some hread]
    have hlonger : Specifier.isOverlong ⟨some digits, none, none, none, ⟨[], 'd', rfl⟩⟩ = true :=
      Nat.blt_eq.mpr hlong
    simp [Piece.specifiers, hlonger]
  dsimp only
  rw [Template.ofText_eq, if_pos hoverlong]

end CatalogEntry

end StringCatalog
