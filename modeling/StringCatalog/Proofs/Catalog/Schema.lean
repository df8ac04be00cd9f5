import StringCatalog.Proofs.Catalog.Naming
import StringCatalog.Proofs.OrderedMap

/-! The schema of catalogs. A JSON value is read as a catalog if and only if it is within the
schema; a member that is absent counts as null everywhere. -/

namespace StringCatalog

open Catalog (Members member)

namespace Json

/-- Null, or an object whose members are as wanted. -/
inductive OrNull (p : Members → Prop) : Json → Prop
  | null : OrNull p null
  | object {members : Members} (h : p members) : OrNull p (object members)

/-- A string unit: one without members, or one with a text as its value. -/
def IsStringUnit : Json → Prop :=
  OrNull fun unit => unit = [] ∨ ∃ value, member "value" unit = text value

mutual

/-- Axes of variation, each with cases. -/
inductive IsVariations : Json → Prop
  | null : IsVariations null
  | object {axes : Members} (h : ∀ axis ∈ axes, IsAxis axis.2) : IsVariations (object axes)

/-- The cases of an axis. -/
inductive IsAxis : Json → Prop
  | null : IsAxis null
  | object {cases : Members} (h : ∀ case ∈ cases, IsCase case.2) : IsAxis (object cases)

/-- A case: its text, and the axes nested in it. -/
inductive IsCase : Json → Prop
  | null : IsCase null
  | object {node : Members} (hunit : IsStringUnit (member "stringUnit" node))
      (hnested : IsVariations (member "variations" node)) : IsCase (object node)

end

/-- The number of an argument, if there is one. -/
inductive IsArgNum : Json → Prop
  | null : IsArgNum null
  | int {n : Int} (hpos : 1 ≤ n) : IsArgNum (int n)

/-- A format: any text, or whatever else counts as none. -/
inductive IsFormat : Json → Prop
  | text (format : Text) : IsFormat (text format)
  | null : IsFormat null
  | false : IsFormat (bool false)
  | zero : IsFormat (int 0)
  | float {x : Binary64} (hzero : x.isZero = true) : IsFormat (float x)
  | list : IsFormat (list [])
  | object : IsFormat (object [])

/-- A substitution. -/
def IsSubstitution : Json → Prop :=
  OrNull fun members => IsArgNum (member "argNum" members) ∧
    IsFormat (member "formatSpecifier" members) ∧ IsVariations (member "variations" members)

/-- A localization. Nothing is asked of one without members. -/
def IsLocalization : Json → Prop :=
  OrNull fun localization => localization = [] ∨
    IsStringUnit (member "stringUnit" localization) ∧
    IsVariations (member "variations" localization) ∧
    OrNull (fun named => ∀ s ∈ named, IsSubstitution s.2) (member "substitutions" localization)

/-- An entry, of which only the localization in the given language matters. -/
def IsEntry (language : Text) : Json → Prop :=
  OrNull fun entry =>
    OrNull (fun localizations => IsLocalization (member language localizations))
      (member "localizations" entry)

/-- A catalog: its source language is not blank, and its entries are such in that language. -/
def IsCatalog (value : Json) : Prop :=
  ∃ members, value = object members ∧ ∃ language, member "sourceLanguage" members = text language ∧
    (∃ c ∈ language, isBlank c = false) ∧
    OrNull (fun strings => ∀ entry ∈ strings, IsEntry language entry.2) (member "strings" members)

/-- The keys of a catalog. -/
def stringKeys : Json → List Text
  | object members => match member "strings" members with
    | object strings => strings.map (·.1)
    | _ => []
  | _ => []

theorem isFormat_iff {j : Json} : j.IsFormat ↔ (∃ t, j = text t) ∨ j.isFalsy = true := by
  constructor
  · intro h
    cases h with
    | text format => exact Or.inl ⟨format, rfl⟩
    | float hzero => exact Or.inr hzero
    | _ => exact Or.inr rfl
  · rintro (⟨t, rfl⟩ | hfalsy)
    · exact .text t
    · cases j with
      | null => exact .null
      | bool b =>
        cases b with
        | false => exact .false
        | true => contradiction
      | int n =>
        obtain rfl : n = 0 := by simpa [isFalsy, toValue, Value.isFalsy] using hfalsy
        exact .zero
      | float x => exact .float hfalsy
      | text t => exact .text t
      | list items =>
        cases items with
        | nil => exact .list
        | cons item items => contradiction
      | object members =>
        cases members with
        | nil => exact .object
        | cons first rest => contradiction

theorem isVariations_iff {j : Json} :
    j.IsVariations ↔ j.OrNull fun axes => ∀ axis ∈ axes, axis.2.IsAxis := by
  constructor
  · rintro (_ | h)
    · exact .null
    · exact .object h
  · rintro (_ | h)
    · exact .null
    · exact .object h

end Json

namespace Catalog

open Json

variable {source : Option Path}

section

variable {name other : Text} {j : Json} {members : Members}

theorem member_cons_self : member name ((name, j) :: members) = j := by
  simp [member, OrderedMap.get?]

theorem member_cons_of_ne (h : other ≠ name) :
    member name ((other, j) :: members) = member name members := by
  simp [member, OrderedMap.get?, h]

/-- What a name stands for is a member, unless it is null. -/
theorem mem_of_member (h : member name members = j) (hne : j ≠ .null) : (name, j) ∈ members := by
  unfold member at h
  cases hget : OrderedMap.get? members name with
  | none =>
    rw [hget] at h
    exact absurd h.symm hne
  | some k =>
    rw [hget] at h
    obtain rfl : k = j := h
    exact OrderedMap.mem_of_get?_eq_some hget

end

theorem asObject_eq_ok_iff {place : Text} {j : Json} {members : Members} :
    asObject source place j = .ok members ↔ j = .null ∧ members = [] ∨ j = .object members := by
  cases j <;> simp [asObject, eq_comm]

section

variable {β : Type} {place : Text} {j : Json} {f : Members → Except CatalogError β}
  {p : Members → Prop} (hf : ∀ members, (∃ b, f members = .ok b) ↔ p members)

include hf

/-- A step that is taken on the members of a value. -/
theorem exists_bind_asObject_iff : (∃ b, (asObject source place j >>= f) = .ok b) ↔
    j = .null ∧ p [] ∨ ∃ members, j = .object members ∧ p members := by
  simp only [Sequence.exists_bind_eq_ok_iff, hf, asObject_eq_ok_iff]
  constructor
  · rintro ⟨members, ⟨hnull, rfl⟩ | hobject, h⟩
    · exact Or.inl ⟨hnull, h⟩
    · exact Or.inr ⟨members, hobject, h⟩
  · rintro (⟨hnull, h⟩ | ⟨members, hobject, h⟩)
    · exact ⟨[], Or.inl ⟨hnull, rfl⟩, h⟩
    · exact ⟨members, Or.inr hobject, h⟩

/-- A step that nothing is wrong with where there are no members. -/
theorem exists_bind_orNull_iff (hnil : p []) :
    (∃ b, (asObject source place j >>= f) = .ok b) ↔ j.OrNull p := by
  rw [exists_bind_asObject_iff hf]
  constructor
  · rintro (⟨rfl, -⟩ | ⟨members, rfl, h⟩)
    · exact .null
    · exact .object h
  · rintro (_ | h)
    · exact Or.inl ⟨rfl, hnil⟩
    · exact Or.inr ⟨_, rfl, h⟩

end

theorem stringUnit_ok_iff {place : Text} {node : Members} :
    (∃ value, stringUnit source place node = .ok value) ↔
      (member "stringUnit" node).IsStringUnit := by
  refine exists_bind_orNull_iff (fun unit => ?_) (Or.inl rfl)
  cases unit with
  | nil => exact ⟨fun _ => Or.inl rfl, fun _ => ⟨none, rfl⟩⟩
  | cons first rest =>
    dsimp only
    constructor
    · rintro ⟨value, h⟩
      split at h
      · rename_i found hvalue
        exact Or.inr ⟨found, hvalue⟩
      · contradiction
    · rintro (hnil | ⟨value, hvalue⟩)
      · contradiction
      · exact ⟨some value, by rw [hvalue]⟩

mutual

theorem flattenAxes_ok_iff (source : Option Path) (place label : Text) :
    ∀ axes : List (Text × Json),
      (∃ vs, flattenAxes source place label axes = .ok vs) ↔ ∀ axis ∈ axes, axis.2.IsAxis
  | [] => by simp [flattenAxes]
  | (axis, cases) :: rest => by
    rw [List.forall_mem_cons]
    exact Sequence.exists_bind_eq_ok_iff_and (flattenAxis_ok_iff source place label axis cases)
      fun _ => Sequence.exists_bind_ok_eq_ok_iff.trans (flattenAxes_ok_iff source place label rest)
termination_by structural axes => axes

theorem flattenAxis_ok_iff (source : Option Path) (place label axis : Text) : ∀ cases : Json,
    (∃ vs, flattenAxis source place label axis cases = .ok vs) ↔ cases.IsAxis
  | .null => ⟨fun _ => .null, fun _ => ⟨[], rfl⟩⟩
  | .object cases => by
    rw [flattenAxis, flattenCases_ok_iff source place _ cases]
    exact ⟨.object, fun | .object h => h⟩
  | .bool _ | .int _ | .float _ | .text _ | .list _ => ⟨fun ⟨_, h⟩ => (nomatch h), nofun⟩
termination_by structural cases => cases

theorem flattenCases_ok_iff (source : Option Path) (place label : Text) :
    ∀ cases : List (Text × Json),
      (∃ vs, flattenCases source place label cases = .ok vs) ↔ ∀ case ∈ cases, case.2.IsCase
  | [] => by simp [flattenCases]
  | (case, node) :: rest => by
    rw [List.forall_mem_cons]
    exact Sequence.exists_bind_eq_ok_iff_and (flattenCase_ok_iff source place (label ++ case) node)
      fun _ => Sequence.exists_bind_ok_eq_ok_iff.trans (flattenCases_ok_iff source place label rest)
termination_by structural cases => cases

theorem flattenCase_ok_iff (source : Option Path) (place label : Text) : ∀ node : Json,
    (∃ vs, flattenCase source place label node = .ok vs) ↔ node.IsCase
  | .null => ⟨fun _ => .null, fun _ => ⟨[], rfl⟩⟩
  | .object node => by
    refine (Sequence.exists_bind_eq_ok_iff_and stringUnit_ok_iff fun _ =>
      Sequence.exists_bind_ok_eq_ok_iff.trans
        (flattenNested_ok_iff source place label node)).trans ?_
    exact ⟨fun h => .object h.1 h.2, fun | .object hunit hnested => ⟨hunit, hnested⟩⟩
  | .bool _ | .int _ | .float _ | .text _ | .list _ => ⟨fun ⟨_, h⟩ => (nomatch h), nofun⟩
termination_by structural node => node

theorem flattenNested_ok_iff (source : Option Path) (place label : Text) :
    ∀ node : List (Text × Json), (∃ vs, flattenNested source place label node = .ok vs) ↔
      (member "variations" node).IsVariations
  | [] => ⟨fun _ => .null, fun _ => ⟨[], rfl⟩⟩
  | (name, axes) :: rest => by
    by_cases hname : name = Text.ofString "variations"
    · subst hname
      rw [flattenNested, if_pos rfl, flattenBelow_ok_iff source place label axes, member_cons_self]
    · rw [flattenNested, if_neg hname, flattenNested_ok_iff source place label rest,
        member_cons_of_ne hname]
termination_by structural node => node

theorem flattenBelow_ok_iff (source : Option Path) (place label : Text) : ∀ axes : Json,
    (∃ vs, flattenBelow source place label axes = .ok vs) ↔ axes.IsVariations
  | .null => ⟨fun _ => .null, fun _ => ⟨[], rfl⟩⟩
  | .object axes => by
    rw [flattenBelow, flattenAxes_ok_iff source place _ axes]
    exact ⟨.object, fun | .object h => h⟩
  | .bool _ | .int _ | .float _ | .text _ | .list _ => ⟨fun ⟨_, h⟩ => (nomatch h), nofun⟩
termination_by structural axes => axes

end

theorem variationsOf_ok_iff {place : Text} {owner : Members} :
    (∃ vs, variationsOf source place owner = .ok vs) ↔
      (member "variations" owner).IsVariations := by
  rw [isVariations_iff]
  exact exists_bind_orNull_iff (flattenAxes_ok_iff source place []) (by simp)

theorem argNumOf_ok_iff {place : Text} {j : Json} :
    (∃ n, argNumOf source place j = .ok n) ↔ j.IsArgNum := by
  constructor
  · rintro ⟨n, h⟩
    cases j with
    | null => exact .null
    | int i =>
      rw [argNumOf] at h
      split at h
      · contradiction
      · exact .int (by omega)
    | _ => contradiction
  · rintro (_ | hpos)
    · exact ⟨none, rfl⟩
    · exact ⟨some _, if_neg (by omega)⟩

theorem formatOf_ok_iff {place : Text} {j : Json} :
    (∃ format, formatOf source place j = .ok format) ↔ j.IsFormat := by
  rw [isFormat_iff]
  unfold formatOf
  constructor
  · rintro ⟨format, h⟩
    split at h
    · rename_i hfalsy
      exact Or.inr hfalsy
    · split at h
      · exact Or.inl ⟨_, rfl⟩
      · contradiction
  · rintro (⟨t, rfl⟩ | hfalsy)
    · split
      · exact ⟨_, rfl⟩
      · exact ⟨t, rfl⟩
    · exact ⟨"@", if_pos hfalsy⟩

theorem substitutionOf_ok_iff {place : Text} {named : Text × Json} :
    (∃ s, substitutionOf source place named = .ok s) ↔ named.2.IsSubstitution := by
  refine exists_bind_orNull_iff (fun members => ?_) ⟨.null, .null, .null⟩
  refine Sequence.exists_bind_eq_ok_iff_and argNumOf_ok_iff fun argNum => ?_
  refine Sequence.exists_bind_eq_ok_iff_and formatOf_ok_iff fun format => ?_
  exact Sequence.exists_bind_ok_eq_ok_iff.trans variationsOf_ok_iff

theorem entryOf_ok_iff {language : Text} {named : Text × Json} :
    (∃ entry, entryOf source language named = .ok entry) ↔ named.2.IsEntry language := by
  refine exists_bind_orNull_iff (fun entry => ?_) .null
  refine exists_bind_orNull_iff (fun localizations => ?_) .null
  refine exists_bind_orNull_iff (fun localization => ?_) (Or.inl rfl)
  cases localization with
  | nil => exact ⟨fun _ => Or.inl rfl, fun _ => ⟨_, rfl⟩⟩
  | cons first rest =>
    rw [or_iff_right (List.cons_ne_nil first rest)]
    refine Sequence.exists_bind_eq_ok_iff_and stringUnit_ok_iff fun value => ?_
    refine Sequence.exists_bind_eq_ok_iff_and variationsOf_ok_iff fun variations => ?_
    refine exists_bind_orNull_iff (fun named => ?_) (by simp)
    refine Sequence.exists_bind_ok_eq_ok_iff.trans (Sequence.exists_mapM_eq_ok_iff.trans ?_)
    simp only [substitutionOf_ok_iff]

theorem key_entryOf {language : Text} {named : Text × Json} {entry : CatalogEntry}
    (h : entryOf source language named = .ok entry) : entry.key = named.1 := by
  obtain ⟨members, -, h⟩ := Sequence.bind_eq_ok_iff.mp h
  obtain ⟨localizations, -, h⟩ := Sequence.bind_eq_ok_iff.mp h
  obtain ⟨localization, -, h⟩ := Sequence.bind_eq_ok_iff.mp h
  split at h
  · cases h
    rfl
  · obtain ⟨value, -, h⟩ := Sequence.bind_eq_ok_iff.mp h
    obtain ⟨variations, -, h⟩ := Sequence.bind_eq_ok_iff.mp h
    obtain ⟨subs, -, h⟩ := Sequence.bind_eq_ok_iff.mp h
    obtain ⟨substitutions, -, h⟩ := Sequence.bind_eq_ok_iff.mp h
    cases h
    rfl

theorem languageOf_eq_ok_iff {members : Members} {language : Text} :
    languageOf source members = .ok language ↔ member "sourceLanguage" members = .text language ∧
      ∃ c ∈ language, isBlank c = false := by
  unfold languageOf
  cases member "sourceLanguage" members with
  | text t =>
    dsimp only
    split
    · rename_i hblank
      refine ⟨nofun, ?_⟩
      rintro ⟨htext, c, hc, hvisible⟩
      cases htext
      rw [List.all_eq_true.mp hblank c hc] at hvisible
      contradiction
    · rename_i hblank
      have hvisible : ∃ c ∈ t, isBlank c = false := by simpa [Text.isBlankText] using hblank
      constructor
      · intro h
        cases h
        exact ⟨rfl, hvisible⟩
      · rintro ⟨htext, -⟩
        cases htext
        rfl
  | _ => exact ⟨nofun, fun h => nomatch h.1⟩

theorem exists_ofJson_iff (value : Json) (path : Option Path) :
    (∃ catalog, ofJson value path = .ok catalog) ↔ value.IsCatalog := by
  refine (exists_bind_asObject_iff fun members => ?_).trans (or_iff_right ?_)
  · rw [Sequence.exists_bind_eq_ok_iff]
    simp only [languageOf_eq_ok_iff, and_assoc]
    refine exists_congr fun language => and_congr_right fun _ => and_congr_right fun _ => ?_
    refine exists_bind_orNull_iff (fun strings => ?_) (by simp)
    refine Sequence.exists_bind_ok_eq_ok_iff.trans (Sequence.exists_mapM_eq_ok_iff.trans ?_)
    simp only [entryOf_ok_iff]
  -- without members there is no source language
  · rintro ⟨-, language, hlanguage, -⟩
    contradiction

theorem keys_ofJson {value : Json} {catalog : Catalog}
    (h : ofJson value source = .ok catalog) : catalog.keys = value.stringKeys := by
  obtain ⟨members, hobject, h⟩ := Sequence.bind_eq_ok_iff.mp h
  obtain ⟨language, hlanguage, h⟩ := Sequence.bind_eq_ok_iff.mp h
  obtain ⟨strings, hstrings, h⟩ := Sequence.bind_eq_ok_iff.mp h
  obtain ⟨entries, hentries, h⟩ := Sequence.bind_eq_ok_iff.mp h
  cases h
  have hkeys : List.Forall₂ (fun named entry => named.1 = entry.key) strings entries :=
    Sequence.forall₂_of_mapM_eq_ok hentries fun named _ entry hentry => (key_entryOf hentry).symm
  have hsame : strings.map (·.1) = entries.map (·.key) := by
    rw [← List.forall₂_eq_eq_eq]
    exact List.forall₂_map_left_iff.mpr (List.forall₂_map_right_iff.mpr hkeys)
  rw [keys, ← hsame]
  rcases asObject_eq_ok_iff.mp hobject with ⟨-, rfl⟩ | rfl
  · contradiction
  · rcases asObject_eq_ok_iff.mp hstrings with ⟨hnull, rfl⟩ | hnamed
    · rw [stringKeys, hnull]
      rfl
    · rw [stringKeys, hnamed]

/-- A value within the schema is read as a catalog with one entry for each of its keys, in their
order. Any other value has a fault. -/
theorem ofJson_iff_isCatalog (value : Json) (path : Option Path) :
    ((∃ fault, ofJson value path = .error (.invalid path fault)) ↔ ¬value.IsCatalog) ∧
    (value.IsCatalog ↔
      ∃ catalog, ofJson value path = .ok catalog ∧ catalog.keys = value.stringKeys) := by
  rw [← exists_ofJson_iff value path]
  cases h : ofJson value path with
  | ok catalog => simp [keys_ofJson h]
  | error e =>
    obtain ⟨fault, rfl⟩ := namesSource_ofJson value path e h
    simp

end Catalog

end StringCatalog
