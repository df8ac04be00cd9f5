import StringCatalog.Proofs.Catalog.Strictness

/-! What becomes of the entries of a catalog. Where every position has a value, an extraction that
is not strict goes through and accounts for every entry once; a strict one fails as the first entry
that has no resource. -/

namespace StringCatalog

/-- No position that begins anywhere in the text has a numeral that is too long. -/
def Text.HasShortNumerals (text : Text) : Prop :=
  ∀ index m digits, SpecifierMatch.at? text index = some m → m.specifier.numeral = some digits →
    digits.length ≤ longestNumeral

namespace Text.HasShortNumerals

variable {text : Text}

theorem of_length_le (h : text.length ≤ longestNumeral) : text.HasShortNumerals :=
  fun _ _ _ hat hdigits => Nat.le_trans (SpecifierMatch.length_numeral_le hat hdigits) h

theorem isOverlong (h : text.HasShortNumerals) {index : Int} {m : SpecifierMatch}
    (hat : SpecifierMatch.at? text index = some m) : m.specifier.isOverlong = false :=
  Template.isOverlong_eq_false fun digits hdigits => h index m digits hat hdigits

end Text.HasShortNumerals

namespace CatalogEntry

variable {e : CatalogEntry} {r : Resource}

/-- Every position in the texts of the entry, and in these texts once a map has been filled in, has
a numeral that is not too long. -/
structure HasShortNumerals (e : CatalogEntry) : Prop where
  bases : ∀ text ∈ e.baseTexts, text.HasShortNumerals
  expanded : ∀ maps, e.substitutionMaps = .ok maps → ∀ text ∈ e.baseTexts, ∀ subs ∈ maps,
    ∀ t, subs.expand text = .ok t → t.HasShortNumerals

/-- Without substitutions there is nothing to fill in. -/
theorem HasShortNumerals.of_substitutions_eq_nil (h : e.substitutions = [])
    (hbases : ∀ text ∈ e.baseTexts, text.HasShortNumerals) : e.HasShortNumerals := by
  refine ⟨hbases, fun maps hmaps text htext subs hsubs t ht => ?_⟩
  obtain ⟨positional, -, hmaps⟩ := Sequence.bind_eq_ok_iff.mp hmaps
  have hnil : maps = [[]] := by
    rw [← Except.ok.inj hmaps]
    simp only [primaryMap, alternatives, h, List.foldl_nil, List.flatMap_nil]
    rfl
  obtain rfl := List.mem_singleton.mp (hnil ▸ hsubs)
  obtain rfl := Except.ok.inj ht
  exact hbases text htext

theorem usesPositions_ne_error {texts : List Text} (h : ∀ text ∈ texts, text.HasShortNumerals)
    (failure : GenerationFailure) : usesPositions texts ≠ .error failure := by
  unfold usesPositions
  split
  · nofun
  · rename_i s hfind
    obtain ⟨text, htext, hs⟩ := List.mem_flatMap.mp (List.mem_of_find?_eq_some hfind)
    obtain ⟨index, m, hat, rfl⟩ := SpecifierMatch.mem_specifiers_iff.mp hs
    rw [(h text htext).isOverlong hat]
    nofun

theorem substitutionMaps_ne_error (h : e.HasShortNumerals) (failure : GenerationFailure) :
    e.substitutionMaps ≠ .error failure := by
  intro herror
  rcases Sequence.bind_eq_error_iff.mp herror with hmode | ⟨positional, -, hmaps⟩
  · exact usesPositions_ne_error h.bases failure hmode
  · contradiction

/-- A scan fails only for the markers of the map. -/
theorem scan_eq_error (h : e.HasShortNumerals) {maps : List SubstitutionMap}
    (hmaps : e.substitutionMaps = .ok maps) {text : Text} (htext : text ∈ e.baseTexts)
    {subs : SubstitutionMap} (hsubs : subs ∈ maps) {failure : GenerationFailure}
    (hscan : Template.scan text subs = .error failure) : ∃ error, failure = .generation error := by
  unfold Template.scan at hscan
  split at hscan
  · cases hscan
    exact ⟨_, rfl⟩
  · rename_i t hexpand
    have hshort := h.expanded maps hmaps text htext subs hsubs t hexpand
    rw [Template.ofText_eq_ok fun index m hat => hshort.isOverlong hat] at hscan
    contradiction

theorem variants_eq_error (h : e.HasShortNumerals) {failure : GenerationFailure}
    (hvariants : e.variants = .error failure) : ∃ error, failure = .generation error := by
  rcases Sequence.bind_eq_error_iff.mp hvariants with hmaps | ⟨maps, hmaps, hscans⟩
  · exact absurd hmaps (substitutionMaps_ne_error h failure)
  · obtain ⟨pair, hpair, hscan⟩ := Sequence.exists_of_mapM_eq_error hscans
    simp only [List.mem_eraseDups, List.mem_flatMap, List.mem_map] at hpair
    obtain ⟨text, htext, subs, hsubs, rfl⟩ := hpair
    exact scan_eq_error h hmaps htext hsubs hscan

/-- An entry without a resource has a generation error. -/
theorem toResource_eq_error (h : e.HasShortNumerals) {failure : GenerationFailure}
    (hresource : e.toResource = .error failure) : ∃ error, failure = .generation error := by
  rcases Sequence.bind_eq_error_iff.mp hresource with hmaps | ⟨maps, hmaps, hresource⟩
  · exact absurd hmaps (substitutionMaps_ne_error h failure)
  rcases Sequence.bind_eq_error_iff.mp hresource with hvariants | ⟨variants, -, hresource⟩
  · exact variants_eq_error h hvariants
  rcases Sequence.bind_eq_error_iff.mp hresource with hreconcile | ⟨arguments, -, hresource⟩
  · obtain ⟨error, -, rfl⟩ := Sequence.mapError_eq_error_iff.mp hreconcile
    exact ⟨error, rfl⟩
  rcases Sequence.bind_eq_error_iff.mp hresource with hscan | ⟨defaultValue, -, hresource⟩
  · obtain ⟨positional, others, -, rfl⟩ := substitutionMaps_eq_ok hmaps
    exact scan_eq_error h hmaps (defaultText_mem_baseTexts e) List.mem_cons_self hscan
  · contradiction

theorem key_of_toResource (h : e.toResource = .ok r) : r.key = e.key := by
  obtain ⟨maps, -, h⟩ := Sequence.bind_eq_ok_iff.mp h
  obtain ⟨variants, -, h⟩ := Sequence.bind_eq_ok_iff.mp h
  obtain ⟨arguments, -, h⟩ := Sequence.bind_eq_ok_iff.mp h
  obtain ⟨defaultValue, -, h⟩ := Sequence.bind_eq_ok_iff.mp h
  cases h
  rfl

end CatalogEntry

namespace Catalog

variable {c : Catalog} {path : Option Path} {skipStale : Bool}

/-- The entry is left out without being looked at. -/
def skips (skipStale : Bool) (e : CatalogEntry) : Prop := skipStale = true ∧ e.isStale = true

/-- What an entry comes to: a notice that it is stale if such entries are skipped, else a resource
with its key, or else the error that it has instead, with its key. -/
inductive Accounted (path : Option Path) (skipStale : Bool) (e : CatalogEntry) :
    Issue ⊕ Resource → Prop
  | stale (issue : Issue) (skipped : skips skipStale e) (level : issue.level = .info)
      (code : issue.code = .staleKey) (key : issue.key = e.key) :
      Accounted path skipStale e (.inl issue)
  | resource (r : Resource) (kept : ¬skips skipStale e) (extracted : e.toResource = .ok r)
      (key : r.key = e.key) : Accounted path skipStale e (.inr r)
  | error (issue : Issue) (failure : GenerationError) (kept : ¬skips skipStale e)
      (failed : e.toResource = .error (.generation failure))
      (reported : issue = .ofError path e.key failure) (level : issue.level = .error)
      (key : issue.key = e.key) : Accounted path skipStale e (.inl issue)

theorem extractEntry_of_skips {strict : Bool} {e : CatalogEntry} (h : skips skipStale e) :
    extractEntry path strict skipStale e = .ok (.inl (.ofStale path e.key)) := by
  rw [extractEntry, h.1, h.2]
  rfl

theorem extractEntry_of_not_skips {e : CatalogEntry} (h : ¬skips skipStale e) (strict : Bool) :
    extractEntry path strict skipStale e = match e.toResource with
      | .ok r => .ok (.inr r)
      | .error (.generation error) =>
        if strict then .error (.generation error) else .ok (.inl (.ofError path e.key error))
      | .error failure => .error failure := by
  have hkept : ¬(skipStale && e.isStale) = true := by rwa [Bool.and_eq_true]
  exact if_neg hkept

/-- Every entry comes to something. -/
theorem exists_accounted {e : CatalogEntry} (h : e.HasShortNumerals) (path : Option Path)
    (skipStale : Bool) :
    ∃ y, extractEntry path false skipStale e = .ok y ∧ Accounted path skipStale e y := by
  by_cases hskips : skips skipStale e
  · exact ⟨_, extractEntry_of_skips hskips, .stale _ hskips rfl rfl rfl⟩
  · rw [extractEntry_of_not_skips hskips]
    cases hresource : e.toResource with
    | ok r =>
      exact ⟨_, rfl, .resource r hskips hresource (CatalogEntry.key_of_toResource hresource)⟩
    | error failure =>
      obtain ⟨error, rfl⟩ := CatalogEntry.toResource_eq_error h hresource
      exact ⟨_, rfl, .error _ error hskips hresource rfl rfl rfl⟩

/-- The keys of the resources are keys of the catalog. -/
theorem key_mem_of_mem_resources {strict : Bool} {x : Extraction}
    (h : c.extract strict skipStale = .ok x) {r : Resource} (hr : r ∈ x.resources) :
    r.key ∈ c.keys := by
  obtain ⟨found, hfound, h⟩ := Sequence.bind_eq_ok_iff.mp h
  cases h
  obtain ⟨y, hy, hright⟩ := List.mem_filterMap.mp hr
  obtain ⟨e, he, hentry⟩ := (Sequence.mem_of_mapM_eq_ok hfound y).mp hy
  obtain rfl := Sum.getRight?_eq_some_iff.mp hright
  rw [CatalogEntry.key_of_toResource (toResource_of_extractEntry hentry)]
  exact List.mem_map_of_mem he

/-- The first issue that is an error is that of the first entry that is looked at and has no
resource. -/
theorem exists_first_error {es : List CatalogEntry} {found : List (Issue ⊕ Resource)}
    (hfound : List.Forall₂ (Accounted path skipStale) es found) {issue : Issue}
    (hissue : (found.filterMap Sum.getLeft?).find? (·.level == .error) = some issue) :
    ∃ before e after failure, es = before ++ e :: after ∧
      (∀ e' ∈ before, skips skipStale e' ∨ ∃ r, ¬skips skipStale e' ∧ e'.toResource = .ok r) ∧
      ¬skips skipStale e ∧ e.toResource = .error (.generation failure) ∧
      issue = .ofError path e.key failure := by
  induction hfound with
  | nil => contradiction
  | @cons e y es found hentry hrest ih =>
    -- an entry that does no harm goes to those before the first error
    have behind : (skips skipStale e ∨ ∃ r, ¬skips skipStale e ∧ e.toResource = .ok r) →
        (found.filterMap Sum.getLeft?).find? (·.level == .error) = some issue →
        ∃ before e' after failure, e :: es = before ++ e' :: after ∧
          (∀ e' ∈ before, skips skipStale e' ∨ ∃ r, ¬skips skipStale e' ∧ e'.toResource = .ok r) ∧
          ¬skips skipStale e' ∧ e'.toResource = .error (.generation failure) ∧
          issue = .ofError path e'.key failure := by
      intro hharmless hfind
      obtain ⟨before, e', after, failure, rfl, hbefore, hfailed⟩ := ih hfind
      exact ⟨e :: before, e', after, failure, rfl,
        List.forall_mem_cons.mpr ⟨hharmless, hbefore⟩, hfailed⟩
    cases hentry with
    | stale first skipped level =>
      refine behind (.inl skipped) ?_
      rwa [List.filterMap_cons, Sum.getLeft?, List.find?_cons_of_neg (by simp [level])] at hissue
    | resource r kept extracted => exact behind (.inr ⟨r, kept, extracted⟩) hissue
    | error first failure kept failed reported level =>
      rw [List.filterMap_cons, Sum.getLeft?, List.find?_cons_of_pos (by simp [level])] at hissue
      exact ⟨[], e, es, failure, rfl, by simp, kept, failed,
        (Option.some.inj hissue).symm.trans reported⟩

/-- A strict extraction fails as the first entry that is looked at and has no resource. -/
theorem extract_true_eq_error {before after : List CatalogEntry} {e : CatalogEntry}
    {failure : GenerationError} (hentries : c.entries = before ++ e :: after)
    (hbefore : ∀ e' ∈ before,
      skips skipStale e' ∨ ∃ r, ¬skips skipStale e' ∧ e'.toResource = .ok r)
    (hkept : ¬skips skipStale e) (hfailed : e.toResource = .error (.generation failure)) :
    c.extract true skipStale = .error (.generation failure) := by
  have hharmless : ∀ e' ∈ before, ∃ y, extractEntry c.path true skipStale e' = .ok y := by
    intro e' he'
    rcases hbefore e' he' with hskips | ⟨r, hkept, hresource⟩
    · exact ⟨_, extractEntry_of_skips hskips⟩
    · exact ⟨.inr r, by rw [extractEntry_of_not_skips hkept, hresource]⟩
  have hfirst : extractEntry c.path true skipStale e = .error (.generation failure) := by
    rw [extractEntry_of_not_skips hkept, hfailed]
    rfl
  rw [extract, hentries, Sequence.mapM_append_error hharmless hfirst]
  rfl

/-- The extraction of a catalog in which every position has a value. If it is not strict, it goes
through, and every entry comes, in order, to a resource, a notice or an error. If it is strict, it
fails exactly if there are errors, as the entry of the first one does, and else gives the same. -/
theorem extract_accounts (h : ∀ e ∈ c.entries, e.HasShortNumerals) (skipStale : Bool) :
    ∃ found x, List.Forall₂ (Accounted c.path skipStale) c.entries found ∧
      x = ⟨found.filterMap Sum.getRight?, found.filterMap Sum.getLeft?⟩ ∧
      c.extract false skipStale = .ok x ∧
      ((∃ failure, c.extract true skipStale = .error failure) ↔
        ∃ issue ∈ x.issues, issue.level = .error) ∧
      (∀ issue, x.issues.find? (·.level == .error) = some issue →
        ∃ before e after failure, c.entries = before ++ e :: after ∧
          (∀ e' ∈ before, skips skipStale e' ∨ ∃ r, ¬skips skipStale e' ∧ e'.toResource = .ok r) ∧
          ¬skips skipStale e ∧ e.toResource = .error (.generation failure) ∧
          issue = .ofError c.path e.key failure ∧
          c.extract true skipStale = .error (.generation failure)) ∧
      ((∀ issue ∈ x.issues, issue.level ≠ .error) → c.extract true skipStale = .ok x) := by
  have heach : ∀ e ∈ c.entries, ∃ y,
      extractEntry c.path false skipStale e = .ok y ∧ Accounted c.path skipStale e y :=
    fun e he => exists_accounted (h e he) c.path skipStale
  obtain ⟨found, hfound⟩ := Sequence.exists_mapM_eq_ok fun e he =>
    (heach e he).imp fun _ hy => hy.1
  have haccounted : List.Forall₂ (Accounted c.path skipStale) c.entries found := by
    refine Sequence.forall₂_of_mapM_eq_ok hfound fun e he y hy => ?_
    obtain ⟨y', hy', haccounted⟩ := heach e he
    rwa [Except.ok.inj (hy.symm.trans hy')]
  obtain ⟨x, hx⟩ : ∃ x : Extraction,
      x = ⟨found.filterMap Sum.getRight?, found.filterMap Sum.getLeft?⟩ := ⟨_, rfl⟩
  have hextract : c.extract false skipStale = .ok x := by
    rw [extract, hfound, hx]
    rfl
  have hstrict : (∀ issue ∈ x.issues, issue.level ≠ .error) → c.extract true skipStale = .ok x :=
    fun hnone => extract_true_iff.mpr ⟨hextract, by simpa [Extraction.isOk] using hnone⟩
  have hfirst : ∀ issue, x.issues.find? (·.level == .error) = some issue →
      ∃ before e after failure, c.entries = before ++ e :: after ∧
        (∀ e' ∈ before, skips skipStale e' ∨ ∃ r, ¬skips skipStale e' ∧ e'.toResource = .ok r) ∧
        ¬skips skipStale e ∧ e.toResource = .error (.generation failure) ∧
        issue = .ofError c.path e.key failure ∧
        c.extract true skipStale = .error (.generation failure) := by
    intro issue hissue
    obtain ⟨before, e, after, failure, hentries, hbefore, hkept, hfailed, hreported⟩ :=
      exists_first_error haccounted (by rwa [hx] at hissue)
    exact ⟨before, e, after, failure, hentries, hbefore, hkept, hfailed, hreported,
      extract_true_eq_error hentries hbefore hkept hfailed⟩
  refine ⟨found, x, haccounted, hx, hextract, ⟨?_, ?_⟩, hfirst, hstrict⟩
  · rintro ⟨failure, hfailure⟩
    by_contra hnone
    rw [hstrict fun issue hissue hlevel => hnone ⟨issue, hissue, hlevel⟩] at hfailure
    contradiction
  · rintro ⟨issue, hissue, hlevel⟩
    have hsome : (x.issues.find? (·.level == .error)).isSome :=
      List.find?_isSome.mpr ⟨issue, hissue, by simp [hlevel]⟩
    obtain ⟨first, hfind⟩ := Option.isSome_iff_exists.mp hsome
    obtain ⟨_, _, _, failure, _, _, _, _, _, hfailed⟩ := hfirst first hfind
    exact ⟨_, hfailed⟩

/-- A catalog with a key that is no longer used, a count, and a text that addresses one argument
both by its place and by its number. -/
def mixed : Catalog :=
  ⟨"en", [⟨"old", some "Old", [], [], none, .text "stale"⟩,
    ⟨"files", some "%d files", [], [], none, .null⟩,
    ⟨"copy", some "%d of %1$@", [], [], none, .null⟩], "1.0", none⟩

theorem extract_accounts_mixed : (∀ e ∈ mixed.entries, e.HasShortNumerals) ∧
    ∃ x failure, mixed.extract false true = .ok x ∧ x.keys = ["files"] ∧
      x.issues.map (·.key) = ["old", "copy"] ∧ mixed.extract true true = .error failure := by
  have hshort : ∀ e ∈ mixed.entries, e.HasShortNumerals := by
    have hplain : ∀ e ∈ mixed.entries, e.substitutions = [] ∧
        ∀ text ∈ e.baseTexts, text.length ≤ 10 := by decide
    intro e he
    refine .of_substitutions_eq_nil (hplain e he).1 fun text htext => .of_length_le ?_
    exact Nat.le_trans ((hplain e he).2 text htext) (by decide)
  obtain ⟨found, x, -, -, hextract, hstrict, -⟩ := extract_accounts hshort true
  have hx : (mixed.extract false true).map (fun x => (x.keys, x.issues.map (·.key),
      x.issues.map (·.level))) = .ok (["files"], ["old", "copy"], [.info, .error]) := by
    decide +kernel
  rw [hextract] at hx
  injection hx with hx
  simp only [Prod.mk.injEq] at hx
  obtain ⟨hkeys, hissues, hlevels⟩ := hx
  have herror : IssueLevel.error ∈ x.issues.map (·.level) := by
    rw [hlevels]
    decide
  obtain ⟨failure, hfailure⟩ := hstrict.mpr (List.mem_map.mp herror)
  exact ⟨hshort, x, failure, hextract, hkeys, hissues, hfailure⟩

end Catalog

end StringCatalog
