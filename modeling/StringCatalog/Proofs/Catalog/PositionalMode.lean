import StringCatalog.Proofs.Catalog.SubstitutionMaps
import StringCatalog.Proofs.Format.Occurrence

/-! Which specifier stands for the argument of a substitution. It has the number of the argument if
a scan of the texts of the entry shows a placeholder with a position, and also if a position only
stands behind an escaped percent sign, where the scan shows none: positions are looked for in the
texts as they are written. -/

namespace StringCatalog

namespace Text

/-- The scan of the text shows a placeholder with a position. -/
def ShowsPosition (text : Text) : Prop :=
  ∃ t, Template.scan text [] = .ok t ∧ ∃ p ∈ t.placeholders, p.position.isSome

/-- A specifier with a position begins with the second half of an escaped percent sign. -/
def EscapesPosition (text : Text) : Prop :=
  ∃ index m, SpecifierMatch.at? text index = some m ∧ m.specifier.numeral.isSome ∧
    trailingPercents (text.take index.toNat) % 2 = 1

/-- In a text that is scanned, a position that is written is shown or escaped. -/
theorem exists_numeral_iff {text : Text} {t : Template} (h : Template.scan text [] = .ok t) :
    (∃ s ∈ Piece.specifiers (Piece.split text), s.numeral.isSome) ↔
      text.ShowsPosition ∨ text.EscapesPosition := by
  obtain ⟨expanded, hexpand, ht⟩ := Template.scan_eq_ok h
  cases hexpand
  constructor
  · rintro ⟨s, hs, hnumeral⟩
    obtain ⟨index, m, hat, rfl⟩ := SpecifierMatch.mem_specifiers_iff.mp hs
    by_cases hodd : trailingPercents (text.take index.toNat) % 2 = 1
    · exact Or.inr ⟨index, m, hat, hnumeral, hodd⟩
    · obtain ⟨-, tail, hread⟩ := SpecifierMatch.at?_eq_some_iff.mp hat
      have heven : Template.endsInLonePercent ((text.take index.toNat).reverse ++ []) = false := by
        simpa [Template.endsInLonePercent, trailingPercents] using hodd
      have htoken := Template.mem_tokens_of_read? hread (Template.Settled.nil text) heven
      refine Or.inl ⟨t, h, Template.placeholderOf m.specifier, ?_, ?_⟩
      · rw [ht]
        exact Template.mem_placeholders_ofTokens.mpr ⟨m.specifier, htoken, rfl⟩
      · simpa [Template.placeholderOf, Specifier.position] using hnumeral
  · rintro (⟨t', hscan, p, hp, hposition⟩ | ⟨index, m, hat, hnumeral, -⟩)
    · obtain rfl := Except.ok.inj (h.symm.trans hscan)
      rw [ht] at hp
      obtain ⟨s, htoken, rfl⟩ := Template.mem_placeholders_ofTokens.mp hp
      refine ⟨s, Token.mem_specifiers_of_mem_ofText htoken, ?_⟩
      simpa [Template.placeholderOf, Specifier.position] using hposition
    · exact ⟨m.specifier, SpecifierMatch.mem_specifiers_iff.mpr ⟨index, m, hat, rfl⟩, hnumeral⟩

end Text

namespace CatalogEntry

variable {e : CatalogEntry} {s : Substitution} {positional : Bool} {maps : List SubstitutionMap}

/-- Texts that are all scanned have a mode: positional if one of them shows or escapes a position. -/
theorem exists_usesPositions {texts : List Text}
    (h : ∀ text ∈ texts, ∃ t, Template.scan text [] = .ok t) :
    ∃ positional, usesPositions texts = .ok positional ∧
      (positional = true ↔ ∃ text ∈ texts, text.ShowsPosition ∨ text.EscapesPosition) := by
  have hshort : ∀ s ∈ firstNumbered? texts, s.isOverlong = false := by
    intro s hs
    obtain ⟨text, htext, hmem⟩ := List.mem_flatMap.mp (List.mem_of_find?_eq_some hs)
    obtain ⟨t, hscan⟩ := h text htext
    exact Text.hasPositions_iff.mp (Template.hasPositions_of_scan_eq_ok hscan) s hmem
  refine ⟨_, usesPositions_eq_ok hshort, ?_⟩
  simp only [firstNumbered?, List.find?_isSome, List.mem_flatMap]
  constructor
  · rintro ⟨s, ⟨text, htext, hs⟩, hnumeral⟩
    obtain ⟨t, hscan⟩ := h text htext
    exact ⟨text, htext, (Text.exists_numeral_iff hscan).mp ⟨s, hs, hnumeral⟩⟩
  · rintro ⟨text, htext, hposition⟩
    obtain ⟨t, hscan⟩ := h text htext
    obtain ⟨s, hs, hnumeral⟩ := (Text.exists_numeral_iff hscan).mpr hposition
    exact ⟨s, ⟨text, htext, hs⟩, hnumeral⟩

/-- The specifier stands for the argument of the substitution: it takes the place of `%arg` in every
branch with the token, and if no other substitution has the name, all texts under the name are
branches with the specifier in place of the token. -/
structure Resolves (e : CatalogEntry) (maps : List SubstitutionMap) (s : Substitution)
    (specifier : Text) : Prop where
  present : ∀ v ∈ s.variations, Substitution.argToken <:+: v.2 → ∃ subs ∈ maps,
    OrderedMap.get? subs s.name = some (Text.replace Substitution.argToken specifier v.2)
  only : (∀ s' ∈ e.substitutions, s'.name = s.name → s' = s) → ∀ subs ∈ maps, ∀ text,
    OrderedMap.get? subs s.name = some text →
      ∃ v ∈ s.variations, text = Text.replace Substitution.argToken specifier v.2

theorem resolves_specifier (hmode : usesPositions e.baseTexts = .ok positional)
    (hmaps : e.substitutionMaps = .ok maps) (hs : s ∈ e.substitutions) :
    e.Resolves maps s (s.specifier positional) := by
  constructor
  · intro v hv htoken
    have heligible : isEligible positional v.2 = true := isEligible_iff.mpr (Or.inr htoken)
    refine ⟨_, put_mem_maps hmode hmaps hs hv (Or.inr heligible), ?_⟩
    rw [OrderedMap.get?_put, if_pos rfl]
    rfl
  · intro hunique subs hsubs text hget
    obtain ⟨s', hs', hname, htext⟩ :=
      branch_of_mem_maps hmode hmaps hsubs (OrderedMap.mem_of_get?_eq_some hget)
    obtain rfl := hunique s' hs' hname
    obtain ⟨v, hv, rfl⟩ := List.mem_map.mp htext
    exact ⟨v, hv, rfl⟩

/-- The specifier that stands for the argument of a substitution with a number has that number
exactly if some text of the entry shows a position or has an escaped one. A number of zero, which is
not read from any catalog, counts as none. -/
theorem resolves_of_positions (h : ∀ text ∈ e.baseTexts, ∃ t, Template.scan text [] = .ok t) :
    ∃ maps, e.substitutionMaps = .ok maps ∧
      ∀ s ∈ e.substitutions, ∀ n, s.argNum = some n → n ≠ 0 →
        ((∃ text ∈ e.baseTexts, text.ShowsPosition ∨ text.EscapesPosition) →
          e.Resolves maps s ("%" ++ Text.ofInt n ++ "$" ++ s.format)) ∧
        ((∀ text ∈ e.baseTexts, ¬text.ShowsPosition ∧ ¬text.EscapesPosition) →
          e.Resolves maps s ("%" ++ s.format)) := by
  obtain ⟨positional, hmode, hpositional⟩ := exists_usesPositions h
  have hmaps := substitutionMaps_of_mode hmode
  refine ⟨_, hmaps, fun s hs n hn hzero => ⟨fun hposition => ?_, fun hnone => ?_⟩⟩
  · obtain rfl := hpositional.mpr hposition
    have hspecifier : s.specifier true = "%" ++ Text.ofInt n ++ "$" ++ s.format := by
      simp only [Substitution.specifier, hn, if_neg hzero]
    rw [← hspecifier]
    exact resolves_specifier hmode hmaps hs
  · have himplicit : positional = false := by
      rw [Bool.eq_false_iff]
      intro hmode
      obtain ⟨text, htext, hposition⟩ := hpositional.mp hmode
      exact hposition.elim (hnone text htext).1 (hnone text htext).2
    subst himplicit
    exact resolves_specifier hmode hmaps hs

/-- Files that are copied by somebody who is named behind them. -/
def copiedBy : CatalogEntry :=
  ⟨"copied.by", some "%#@files@ copied by %2$@ (100%%)", [],
    [⟨"files", "lld", some 1, [("plural.zero", "No files"), ("plural.one", "%arg file"),
      ("plural.other", "%arg files")]⟩], none, .null⟩

theorem resolves_of_positions_copiedBy :
    (∀ text ∈ copiedBy.baseTexts, ∃ t, Template.scan text [] = .ok t) ∧
    (∃ text ∈ copiedBy.baseTexts, text.ShowsPosition) ∧
    ∃ maps s, copiedBy.substitutionMaps = .ok maps ∧ s ∈ copiedBy.substitutions ∧
      s.argNum = some 1 ∧ copiedBy.Resolves maps s "%1$lld" := by
  have hscan : Template.scan "%#@files@ copied by %2$@ (100%%)" [] =
      .ok [.placeholder ⟨.object, "%#@", none⟩, .literal "files@ copied by ",
        .placeholder ⟨.object, "%2$@", some 2⟩, .literal " (100%%)"] := by decide +kernel
  have hscanned : ∀ text ∈ copiedBy.baseTexts, ∃ t, Template.scan text [] = .ok t :=
    List.forall_mem_singleton.mpr ⟨_, hscan⟩
  have hshows : ∃ text ∈ copiedBy.baseTexts, text.ShowsPosition := by
    refine ⟨_, List.mem_singleton_self _, _, hscan, ⟨.object, "%2$@", some 2⟩, ?_, rfl⟩
    decide
  obtain ⟨maps, hmaps, hresolves⟩ := resolves_of_positions hscanned
  obtain ⟨text, htext, hshown⟩ := hshows
  have hnumbered := (hresolves _ List.mem_cons_self 1 rfl (by decide)).1
    ⟨text, htext, Or.inl hshown⟩
  exact ⟨hscanned, ⟨text, htext, hshown⟩, maps, _, hmaps, List.mem_cons_self, rfl, hnumbered⟩

/-- A text that explains a specifier, with the percent sign escaped. -/
def explained : CatalogEntry :=
  ⟨"explained", some "%%1$d means: %#@files@", [],
    [⟨"files", "d", some 1, [("plural.one", "%arg file"), ("plural.other", "%arg files")]⟩],
    none, .null⟩

/-- Its scan shows no position, and the argument of its substitution is numbered all the same. -/
theorem resolves_explained :
    (∀ text ∈ explained.baseTexts, (∃ t, Template.scan text [] = .ok t) ∧ ¬text.ShowsPosition) ∧
    ∃ maps s, explained.substitutionMaps = .ok maps ∧ explained.substitutions = [s] ∧
      s.argNum = some 1 ∧ explained.Resolves maps s "%1$d" ∧ ¬explained.Resolves maps s "%d" := by
  have hscan : Template.scan "%%1$d means: %#@files@" [] =
      .ok [.literal "%%1$d means: ", .placeholder ⟨.object, "%#@", none⟩, .literal "files@"] := by
    decide +kernel
  have hhidden : ∀ text ∈ explained.baseTexts,
      (∃ t, Template.scan text [] = .ok t) ∧ ¬text.ShowsPosition := by
    refine List.forall_mem_singleton.mpr ⟨⟨_, hscan⟩, ?_⟩
    rintro ⟨t, ht, p, hp, hposition⟩
    obtain rfl := Except.ok.inj (hscan.symm.trans ht)
    obtain rfl := List.mem_singleton.mp hp
    contradiction
  have hmode : usesPositions explained.baseTexts = .ok true := by decide +kernel
  have hmaps : explained.substitutionMaps =
      .ok [[("files", "%1$d files")], [("files", "%1$d file")]] := by decide +kernel
  refine ⟨hhidden, _, _, hmaps, rfl, rfl, resolves_specifier hmode hmaps List.mem_cons_self, ?_⟩
  intro himplicit
  obtain ⟨subs, hsubs, hget⟩ := himplicit.present ("plural.one", "%arg file") (by decide)
    ⟨[], Text.ofString " file", rfl⟩
  have hnone : ∀ subs ∈ ([[("files", "%1$d files")], [("files", "%1$d file")]] :
      List SubstitutionMap), OrderedMap.get? subs "files" ≠
        some (Text.replace Substitution.argToken "%d" "%arg file") := by decide
  exact hnone subs hsubs hget

end CatalogEntry

end StringCatalog
