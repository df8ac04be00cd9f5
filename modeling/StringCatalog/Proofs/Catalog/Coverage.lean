import StringCatalog.Proofs.Catalog.Branches

/-! Branches one at a time. Whether a branch is tried is decided by its mode and by the token `%arg`
in its text. Every branch that is tried is covered: in each text of the entry, with all other
substitutions on their primary texts, its placeholders have their arguments. A branch that brings a
specifier of its own in place of the token is not tried where arguments are numbered by place, and
it is not covered. -/

namespace StringCatalog

namespace CatalogEntry

variable {e : CatalogEntry} {r : Resource} {positional : Bool} {s : Substitution}

/-- The primary map with another text for one substitution. -/
def branchMap (e : CatalogEntry) (positional : Bool) (s : Substitution) (raw : Text) :
    SubstitutionMap :=
  OrderedMap.put (e.primaryMap positional) s.name (s.resolve positional raw)

/-- The text is the primary one, or it is tried in a map of its own. -/
def IsTried (e : CatalogEntry) (positional : Bool) (s : Substitution) (raw : Text) : Prop :=
  OrderedMap.get? (e.primaryMap positional) s.name = some (s.resolve positional raw) ∨
    isEligible positional raw = true

instance (e : CatalogEntry) (positional : Bool) (s : Substitution) (raw : Text) :
    Decidable (e.IsTried positional s raw) :=
  inferInstanceAs (Decidable (_ ∨ _))

/-- The map of a branch that is tried is among those with which the texts are scanned. -/
theorem branchMap_mem {maps : List SubstitutionMap} (hmaps : e.substitutionMaps = .ok maps)
    (hmode : usesPositions e.baseTexts = .ok positional) (hs : s ∈ e.substitutions)
    {v : Text × Text} (hv : v ∈ s.variations) (htried : e.IsTried positional s v.2) :
    e.branchMap positional s v.2 ∈ maps :=
  put_mem_maps hmode hmaps hs hv htried

/-- With a map that is tried, every text of the entry is scanned, no slots collide, and the
placeholders have their arguments. -/
theorem covered_of_mem {maps : List SubstitutionMap} (hr : e.toResource = .ok r)
    (hmaps : e.substitutionMaps = .ok maps) {subs : SubstitutionMap} (hsubs : subs ∈ maps)
    {text : Text} (htext : text ∈ e.baseTexts) :
    ∃ t slotted, Template.scan text subs = .ok t ∧ t.slots e.key = .ok slotted ∧
      slotted.map (·.1) = t.placeholders ∧
      ∀ p ∈ slotted, ⟨Argument.nameAt p.2, p.1.kind, p.2⟩ ∈ r.arguments := by
  obtain ⟨maps', variants, hmaps', hvariants, -, -, hslots, hreconciled⟩ :=
    reconciled_of_toResource hr
  obtain rfl := Except.ok.inj (hmaps.symm.trans hmaps')
  obtain ⟨t, hscan⟩ := exists_scan_eq_ok hvariants hmaps htext hsubs
  have ht : t ∈ variants := (mem_variants hvariants hmaps t).mpr ⟨text, htext, subs, hsubs, hscan⟩
  obtain ⟨slotted, hslotted⟩ := hslots t ht
  refine ⟨t, slotted, hscan, hslotted, Template.map_fst_slots hslotted, fun p hp => ?_⟩
  have hused : Argument.Used variants p.2 p.1.kind :=
    ⟨t, ht, slotted, Template.slots_congr hslotted [], p, hp, rfl, rfl⟩
  exact ((Argument.mem_and_name_iff hreconciled hused _).mpr rfl).1

/-- Each branch that is primary, positional or a text with `%arg` is covered, in every text of an
entry that has a resource. -/
theorem scan_branch (hr : e.toResource = .ok r)
    (hmode : usesPositions e.baseTexts = .ok positional) {text : Text} (htext : text ∈ e.baseTexts)
    (hs : s ∈ e.substitutions) {v : Text × Text} (hv : v ∈ s.variations)
    (htried : e.IsTried positional s v.2) :
    ∃ t slotted, Template.scan text (e.branchMap positional s v.2) = .ok t ∧
      t.slots e.key = .ok slotted ∧ slotted.map (·.1) = t.placeholders ∧
      ∀ p ∈ slotted, ⟨Argument.nameAt p.2, p.1.kind, p.2⟩ ∈ r.arguments := by
  obtain ⟨maps, -, hmaps, -⟩ := reconciled_of_toResource hr
  exact covered_of_mem hr hmaps (branchMap_mem hmaps hmode hs hv htried) htext

/-- A count of files that is left out where there are none. -/
def copiedFiles : CatalogEntry :=
  ⟨"copied.files", some "%#@files@ (100%%)", [],
    [⟨"files", "lld", none, [("plural.zero", "No files"), ("plural.one", "%arg file"),
      ("plural.other", "%arg files")]⟩], none, .null⟩

theorem scan_branch_copiedFiles : ∃ r s, copiedFiles.toResource = .ok r ∧
    usesPositions copiedFiles.baseTexts = .ok false ∧ s ∈ copiedFiles.substitutions ∧
    ((("plural.one", "%arg file") : Text × Text) ∈ s.variations) ∧
    copiedFiles.IsTried false s "%arg file" ∧
    Template.scan "%#@files@ (100%%)" (copiedFiles.branchMap false s "%arg file") =
      .ok [.placeholder ⟨.int, "%lld", none⟩, .literal " file (100%%)"] ∧
    ⟨"arg1", .int, 1⟩ ∈ r.arguments := by
  obtain ⟨r, hr⟩ : ∃ r, copiedFiles.toResource = .ok r := by
    have hsome : copiedFiles.toResource.toOption.isSome := by decide +kernel
    cases h : copiedFiles.toResource with
    | error e => simp [h, Except.toOption] at hsome
    | ok r => exact ⟨r, rfl⟩
  obtain ⟨s, hs, hsubstitutions⟩ : ∃ s, s ∈ copiedFiles.substitutions ∧
      s = ⟨"files", "lld", none, [("plural.zero", "No files"), ("plural.one", "%arg file"),
        ("plural.other", "%arg files")]⟩ := ⟨_, List.mem_singleton_self _, rfl⟩
  have hmode : usesPositions copiedFiles.baseTexts = .ok false := by decide +kernel
  have hv : (("plural.one", "%arg file") : Text × Text) ∈ s.variations := by
    rw [hsubstitutions]
    decide
  have htried : copiedFiles.IsTried false s "%arg file" := Or.inr (by decide)
  have hscanned : Template.scan "%#@files@ (100%%)" (copiedFiles.branchMap false s "%arg file") =
      .ok [.placeholder ⟨.int, "%lld", none⟩, .literal " file (100%%)"] := by
    rw [hsubstitutions]
    decide +kernel
  obtain ⟨t, slotted, hscan, hslots, -, harguments⟩ :=
    scan_branch hr hmode (List.mem_singleton_self _) hs hv htried
  obtain rfl := Except.ok.inj (hscan.symm.trans hscanned)
  cases hslots
  exact ⟨r, s, hr, hmode, hs, hv, htried, hscanned,
    harguments (⟨.int, "%lld", none⟩, 1) (List.mem_singleton_self _)⟩

/-- A count of files whose singular takes a name and no number. -/
def namedSingular : CatalogEntry :=
  ⟨"files.count", some "%#@files@", [],
    [⟨"files", "lld", none, [("plural.one", "%@"), ("plural.other", "%arg files")]⟩], none, .null⟩

/-- Where arguments are numbered by place, a branch with a specifier of its own may take an argument
that the resource does not have. -/
theorem exists_branch_uncovered : ∃ r s t slotted, namedSingular.toResource = .ok r ∧
    usesPositions namedSingular.baseTexts = .ok false ∧ s ∈ namedSingular.substitutions ∧
    ((("plural.one", "%@") : Text × Text) ∈ s.variations) ∧
    Template.ofText (s.resolve false "%@") = .ok [.placeholder ⟨.object, "%@", none⟩] ∧
    Template.scan "%#@files@" (namedSingular.branchMap false s "%@") = .ok t ∧
    t.slots namedSingular.key = .ok slotted ∧
    ∃ p ∈ slotted, (⟨Argument.nameAt p.2, p.1.kind, p.2⟩ : Argument) ∉ r.arguments := by
  obtain ⟨r, hr, harguments⟩ : ∃ r, namedSingular.toResource = .ok r ∧
      r.arguments = [⟨"arg1", .int, 1⟩] := by
    have hsome : namedSingular.toResource.map (·.arguments) = .ok [⟨"arg1", .int, 1⟩] := by
      decide +kernel
    cases h : namedSingular.toResource with
    | error e => simp [h, Except.map] at hsome
    | ok r => exact ⟨r, rfl, Except.ok.inj (by rwa [h] at hsome)⟩
  refine ⟨r, namedSingular.substitutions.head (by decide),
    [.placeholder ⟨.object, "%@", none⟩], [(⟨.object, "%@", none⟩, 1)], hr, by decide +kernel,
    List.mem_singleton_self _, by decide, by decide +kernel, by decide +kernel, by decide +kernel,
    _, List.mem_singleton_self _, ?_⟩
  rw [harguments]
  decide

end CatalogEntry

end StringCatalog
