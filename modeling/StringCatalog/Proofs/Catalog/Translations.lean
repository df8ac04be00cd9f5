import StringCatalog.Catalog.Extraction
import StringCatalog.Proofs.Catalog.Schema
import StringCatalog.Swift.Source

/-! Localizations in other languages than the source language. They may be added, left out, put in
another order or be anything at all: the catalog, or what is wrong with it, stays the same, and so do
the issues and the source file. -/

namespace StringCatalog

open Catalog (Members member)

namespace Json

/-- The members of an object; null counts as an object without any. -/
inductive HasMembers : Json → Members → Prop
  | null : HasMembers null []
  | object (members : Members) : HasMembers (object members) members

/-- The same value, or objects whose members are related. -/
inductive SameOr (rel : Members → Members → Prop) : Json → Json → Prop
  | same (j : Json) : SameOr rel j j
  | members {a b : Json} {as bs : Members} (ha : HasMembers a as) (hb : HasMembers b bs)
      (h : rel as bs) : SameOr rel a b

/-- The same members, but for those of one name. -/
def SameBut (name : Text) (as bs : Members) : Prop :=
  ∀ other, other ≠ name → member other as = member other bs

/-- Localizations that are the same in one language. -/
def SameIn (language : Text) : Json → Json → Prop :=
  SameOr fun as bs => member language as = member language bs

/-- Entries that are the same but for localizations in other languages. -/
def SameEntryIn (language : Text) : Json → Json → Prop :=
  SameOr fun as bs => SameBut "localizations" as bs ∧
    SameIn language (member "localizations" as) (member "localizations" bs)

/-- The same keys in the same order, with entries that are the same but for localizations in other
languages. -/
def SameStringsIn (language : Text) : Json → Json → Prop :=
  SameOr <| List.Forall₂ fun a b => a.1 = b.1 ∧ SameEntryIn language a.2 b.2

/-- Catalogs with one source language that are the same but for localizations in other languages. -/
structure SameButTranslations (language : Text) (as bs : Members) : Prop where
  source : member "sourceLanguage" as = text language
  others : SameBut "strings" as bs
  strings : SameStringsIn language (member "strings" as) (member "strings" bs)

end Json

namespace Catalog

open Json

variable {source path : Option Path} {place language : Text} {a b : Json} {as bs : Members}

theorem asObject_of_hasMembers (h : HasMembers a as) : asObject source place a = .ok as := by
  cases h <;> rfl

/-- A step that does not tell related members apart does not tell the objects apart. -/
theorem bind_asObject_congr {β : Type} {rel : Members → Members → Prop}
    {f : Members → Except CatalogError β} (h : SameOr rel a b)
    (hf : ∀ as bs, rel as bs → f as = f bs) :
    (asObject source place a >>= f) = (asObject source place b >>= f) := by
  cases h with
  | same => rfl
  | members ha hb h =>
    rw [asObject_of_hasMembers ha, asObject_of_hasMembers hb]
    exact hf _ _ h

/-- Of the localizations of an entry only that in the source language is looked at. -/
theorem entryOf_congr {x y : Text × Json} (hkey : x.1 = y.1) (h : SameEntryIn language x.2 y.2) :
    entryOf source language x = entryOf source language y := by
  unfold entryOf
  rw [hkey]
  refine bind_asObject_congr h fun as bs hmembers => ?_
  obtain ⟨hothers, hlocalizations⟩ := hmembers
  rw [hothers "comment" (by decide), hothers "extractionState" (by decide)]
  refine bind_asObject_congr hlocalizations fun as bs hsame => ?_
  rw [hsame]

theorem ofJson_congr (h : SameButTranslations language as bs) :
    ofJson (.object as) path = ofJson (.object bs) path := by
  have hlanguage : languageOf path as = languageOf path bs := by
    rw [languageOf, languageOf, h.others "sourceLanguage" (by decide)]
  have hversion : versionOf as = versionOf bs := by
    rw [versionOf, versionOf, h.others "version" (by decide)]
  have hread : ∀ read, languageOf path as = .ok read → read = language := by
    intro read hread
    have := (languageOf_eq_ok_iff.mp hread).1.symm.trans h.source
    exact Json.text.inj this
  show (languageOf path as >>= fun read => _) = (languageOf path bs >>= fun read => _)
  rw [← hlanguage, ← hversion]
  cases hok : languageOf path as with
  | error fault => rfl
  | ok read =>
    obtain rfl := hread read hok
    refine bind_asObject_congr h.strings fun as bs hentries => ?_
    have hmapM : as.mapM (entryOf path read) = bs.mapM (entryOf path read) := by
      induction hentries with
      | nil => rfl
      | cons hfirst _ ih =>
        rw [List.mapM_cons, List.mapM_cons, entryOf_congr hfirst.1 hfirst.2, ih]
    rw [hmapM]

/-- The issues of a catalog and the source file for its resources, from the decoded value of the
catalog on. -/
def published (value : Json) (path : Option Path) (strict skipStale : Bool) (deepest : Nat)
    (style : Swift.Style) (table : Text) :
    Except CatalogError (Except GenerationFailure (List Issue × Except GenerationFailure Text)) :=
  (ofJson value path).map fun catalog =>
    (catalog.extract strict skipStale).map fun x =>
      (x.issues, Swift.source deepest style table x.resources)

/-- Translations do not matter: catalogs that differ in nothing else are read as the same catalog or
refused for the same reason, and under all options there are the same issues and the same source
file. -/
theorem published_of_sameButTranslations (h : SameButTranslations language as bs)
    (path : Option Path) :
    ofJson (.object as) path = ofJson (.object bs) path ∧
      ∀ strict skipStale deepest style table,
        published (.object as) path strict skipStale deepest style table =
          published (.object bs) path strict skipStale deepest style table := by
  have hread : ofJson (.object as) path = ofJson (.object bs) path := ofJson_congr h
  refine ⟨hread, fun strict skipStale deepest style table => ?_⟩
  rw [published, published, hread]

theorem published_of_sameButTranslations_malformed :
    let unit (t : String) : Json := .object [("stringUnit", .object [("value", .text t)])]
    let catalog (entry : Json) : Members := [("sourceLanguage", .text "en"),
      ("strings", .object [("items", entry), ("quit", .null)])]
    let before := catalog (.object [("localizations",
      .object [("de", unit "%@ Dinge"), ("en", unit "%d items")])])
    let after := catalog (.object [("localizations",
      .object [("en", unit "%d items"), ("fr", .list []),
        ("de", .object [("stringUnit", .int 1)])])])
    SameButTranslations "en" before after ∧
      ofJson (.object before) none = ofJson (.object after) none ∧
      ∀ strict skipStale deepest style table,
        published (.object before) none strict skipStale deepest style table =
          published (.object after) none strict skipStale deepest style table := by
  intro unit catalog before after
  have hsame : SameButTranslations "en" before after := by
    refine ⟨rfl, fun other hother => ?_, ?_⟩
    · simp [before, after, catalog, member, OrderedMap.get?, hother.symm]
    · refine .members (.object _) (.object _) (.cons ⟨rfl, ?_⟩ (.cons ⟨rfl, .same _⟩ .nil))
      refine .members (.object _) (.object _) ⟨fun other hother => ?_, ?_⟩
      · simp [member, OrderedMap.get?, hother.symm]
      · exact .members (.object _) (.object _) rfl
  exact ⟨hsame, published_of_sameButTranslations hsame none⟩

end Catalog

end StringCatalog
