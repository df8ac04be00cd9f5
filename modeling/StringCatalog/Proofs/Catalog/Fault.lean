import StringCatalog.Proofs.Catalog.Schema

/-! The faults of values that are not read as catalogs. A fault lies in what the value holds, at any
depth, and its place is spelled by names that lead there. -/

namespace StringCatalog.Catalog

open Json

variable {source : Option Path} {language place more name : Text} {members node : Members}
  {j : Json} {f : CatalogFault}

/-! ### Faults of an entry -/

/-- What a value stands for within an entry. -/
inductive Role where
  | entry
  | localizations
  | localization
  | stringUnit
  | axes
  | axis
  | case
  | substitutions
  | substitution

/-- The members of that name stand for something as well; of the localizations, only the one in the
given language does. -/
inductive Role.Owns (language : Text) : Role → Text → Role → Prop
  | localizations : Owns language entry "localizations" localizations
  | localization : Owns language localizations language localization
  | stringUnit : Owns language localization "stringUnit" stringUnit
  | variations : Owns language localization "variations" axes
  | substitutions : Owns language localization "substitutions" substitutions
  | axis (name : Text) : Owns language axes name axis
  | case (name : Text) : Owns language axis name case
  | ofCase : Owns language case "stringUnit" stringUnit
  | nested : Owns language case "variations" axes
  | substitution (name : Text) : Owns language substitutions name substitution
  | ofSubstitution : Owns language substitution "variations" axes

/-- The fault lies in the value or below it. Its place begins with that of the value and goes on
with names on the way; not all of them are named there. -/
inductive Within (language : Text) : Role → Text → Json → CatalogFault → Prop
  | kind (role : Role) (place : Text) {j : Json} (h : ¬j.OrNull fun _ => True) :
      Within language role place j (.notObject place j.kindWord)
  | value {role : Role} (place : Text) {node unit : Members}
      (howns : role.Owns language "stringUnit" .stringUnit)
      (hmem : (Text.ofString "stringUnit", .object unit) ∈ node) (hne : unit ≠ [])
      (h : ∀ t, member "value" unit ≠ .text t) :
      Within language role place (.object node) (.valueNotText place)
  | argNum (place : Text) {members : Members} {n : Json}
      (hmem : (Text.ofString "argNum", n) ∈ members) (h : ¬n.IsArgNum) :
      Within language .substitution place (.object members) (.argNumNotPositive place)
  | format (place : Text) {members : Members} {format : Json}
      (hmem : (Text.ofString "formatSpecifier", format) ∈ members) (h : ¬format.IsFormat) :
      Within language .substitution place (.object members) (.formatNotText place)
  | named {role inner : Role} {place name : Text} {members : Members} {j : Json} {f : CatalogFault}
      (howns : role.Owns language name inner) (hmem : (name, j) ∈ members)
      (h : Within language inner (place ++ ("." ++ name)) j f) :
      Within language role place (.object members) f
  | unnamed {role inner : Role} {place name : Text} {members : Members} {j : Json}
      {f : CatalogFault} (howns : role.Owns language name inner) (hmem : (name, j) ∈ members)
      (h : Within language inner place j f) : Within language role place (.object members) f

variable {role inner : Role}

theorem Within.ne_null (h : Within language role place j f) : j ≠ .null := by
  rintro rfl
  cases h with
  | kind _ _ h => exact h .null

theorem Within.of_member (howns : role.Owns language name inner) (hmore : more = "." ++ name)
    (h : Within language inner (place ++ more) (member name members) f) :
    Within language role place (.object members) f :=
  .named howns (mem_of_member rfl h.ne_null) (hmore ▸ h)

theorem Within.kind_of_eq {placed : Text} (hplace : placed = place) (h : ¬j.OrNull fun _ => True) :
    Within language role place j (.notObject placed j.kindWord) :=
  hplace ▸ .kind role placed h

theorem fault_eq {α : Type} {raised : CatalogFault}
    (h : (.error (.invalid source raised) : Except CatalogError α) = .error (.invalid source f)) :
    f = raised := by
  cases h
  rfl

theorem asObject_eq_error_iff : asObject source place j = .error (.invalid source f) ↔
    ¬(j.OrNull fun _ => True) ∧ f = .notObject place j.kindWord := by
  cases j with
  | null => exact ⟨nofun, fun h => absurd .null h.1⟩
  | object members => exact ⟨nofun, fun h => absurd (.object trivial) h.1⟩
  | _ => exact ⟨fun h => ⟨nofun, fault_eq h⟩, fun h => by rw [h.2]; rfl⟩

theorem within_of_asObject (h : asObject source place j = .error (.invalid source f)) :
    Within language role place j f := by
  obtain ⟨hkind, rfl⟩ := asObject_eq_error_iff.mp h
  exact .kind role place hkind

theorem within_of_stringUnit (howns : role.Owns language "stringUnit" .stringUnit)
    (h : stringUnit source place node = .error (.invalid source f)) :
    Within language role place (.object node) f := by
  rcases Sequence.bind_eq_error_iff.mp h with h | ⟨unit, hunit, h⟩
  · exact .of_member howns (by decide) (within_of_asObject h)
  cases unit with
  | nil => cases h
  | cons first rest =>
    dsimp only at h
    split at h
    · cases h
    · rename_i hvalue
      cases h
      have hobject : member "stringUnit" node = .object (first :: rest) := by
        simpa using asObject_eq_ok_iff.mp hunit
      exact .value place howns (mem_of_member hobject nofun) (List.cons_ne_nil first rest) hvalue

/-! ### Axes and cases -/

/-- The fault is in the variations at a place. Where it is an axis that is at fault, its place tells
of the variations and of the axis alone, and otherwise of all axes and cases on the way. -/
def Astray (language place here : Text) (role : Role) (j : Json) (f : CatalogFault) : Prop :=
  Within language role (place ++ ".variations") j f ∨ Within language role here j f

theorem Astray.named (howns : role.Owns language name inner) (hmem : (name, j) ∈ members)
    (h : Astray language place (here ++ ("." ++ name)) inner j f) :
    Astray language place here role (.object members) f :=
  h.imp (.unnamed howns hmem) (.named howns hmem)

theorem Astray.unnamed (howns : role.Owns language name inner) (hmem : (name, j) ∈ members)
    (h : Astray language place here inner j f) :
    Astray language place here role (.object members) f :=
  h.imp (.unnamed howns hmem) (.unnamed howns hmem)

theorem append_pointed {word pointed : Text} (h : pointed = word ++ ".") (place name : Text) :
    place ++ pointed ++ name = place ++ word ++ ("." ++ name) := by
  rw [h]
  simp only [List.append_assoc]

theorem variations_pointed : (".variations." : Text) = ".variations" ++ "." := by decide

-- The induction is that of the reading. In it `here` is the place with the label behind it, of which
-- the dot at the end is left out where there is one; and the members are all those of the object, of
-- which the reading has some left.

mutual

theorem astray_of_flattenAxes (source : Option Path) (language place label here : Text)
    (hhere : here ++ "." = place ++ "." ++ label) {members : Members} : ∀ axes : List (Text × Json),
    axes ⊆ members → ∀ f, flattenAxes source place label axes = .error (.invalid source f) →
      Astray language place here .axes (.object members) f
  | [], _, _, h => nomatch h
  | (axis, cases) :: rest, hsub, f, h => by
    obtain ⟨hmem, hrest⟩ := List.cons_subset.mp hsub
    rcases Sequence.bind_eq_error_iff.mp h with h | ⟨found, -, h⟩
    · exact astray_of_flattenAxis source language place label here hhere axis cases hmem f h
    rcases Sequence.bind_eq_error_iff.mp h with h | ⟨later, -, h⟩
    · exact astray_of_flattenAxes source language place label here hhere rest hrest f h
    · contradiction
termination_by structural axes => axes

theorem astray_of_flattenAxis (source : Option Path) (language place label here : Text)
    (hhere : here ++ "." = place ++ "." ++ label) (axis : Text) {members : Members} :
    ∀ cases : Json, (axis, cases) ∈ members → ∀ f,
      flattenAxis source place label axis cases = .error (.invalid source f) →
        Astray language place here .axes (.object members) f
  | .null, _, _, h => nomatch h
  | .object cases, hmem, f, h => by
    have hlabel : here ++ ("." ++ axis) ++ "." = place ++ "." ++ (label ++ axis ++ ".") := by
      rw [← List.append_assoc here, hhere]
      simp only [List.append_assoc]
    exact .named (.axis axis) hmem
      (astray_of_flattenCases source language place _ _ hlabel cases (List.Subset.refl cases) f h)
  | .bool _, hmem, _, h | .int _, hmem, _, h | .float _, hmem, _, h | .text _, hmem, _, h
  | .list _, hmem, _, h => by
    cases h
    have hplace := append_pointed variations_pointed place axis
    exact .inl (.named (.axis axis) hmem (.kind_of_eq hplace nofun))
termination_by structural cases => cases

theorem astray_of_flattenCases (source : Option Path) (language place label here : Text)
    (hhere : here ++ "." = place ++ "." ++ label) {members : Members} :
    ∀ cases : List (Text × Json), cases ⊆ members → ∀ f,
      flattenCases source place label cases = .error (.invalid source f) →
        Astray language place here .axis (.object members) f
  | [], _, _, h => nomatch h
  | (case, node) :: rest, hsub, f, h => by
    obtain ⟨hmem, hrest⟩ := List.cons_subset.mp hsub
    rcases Sequence.bind_eq_error_iff.mp h with h | ⟨found, -, h⟩
    · have hlabel : here ++ ("." ++ case) = place ++ "." ++ (label ++ case) := by
        rw [← List.append_assoc, hhere, List.append_assoc]
      exact .named (.case case) hmem
        (astray_of_flattenCase source language place _ _ hlabel node f h)
    rcases Sequence.bind_eq_error_iff.mp h with h | ⟨later, -, h⟩
    · exact astray_of_flattenCases source language place label here hhere rest hrest f h
    · contradiction
termination_by structural cases => cases

theorem astray_of_flattenCase (source : Option Path) (language place label here : Text)
    (hhere : here = place ++ "." ++ label) : ∀ (node : Json) (f : CatalogFault),
    flattenCase source place label node = .error (.invalid source f) →
      Astray language place here .case node f
  | .null, _, h => nomatch h
  | .object node, f, h => by
    rcases Sequence.bind_eq_error_iff.mp h with h | ⟨value, -, h⟩
    · exact .inr (within_of_stringUnit .ofCase (hhere ▸ h))
    rcases Sequence.bind_eq_error_iff.mp h with h | ⟨nested, -, h⟩
    · exact astray_of_flattenNested source language place label here hhere node
        (List.Subset.refl node) f h
    · contradiction
  | .bool _, _, h | .int _, _, h | .float _, _, h | .text _, _, h | .list _, _, h => by
    cases h
    exact .inr (hhere ▸ .kind .case _ nofun)
termination_by structural node => node

theorem astray_of_flattenNested (source : Option Path) (language place label here : Text)
    (hhere : here = place ++ "." ++ label) {members : Members} : ∀ node : List (Text × Json),
    node ⊆ members → ∀ f, flattenNested source place label node = .error (.invalid source f) →
      Astray language place here .case (.object members) f
  | [], _, _, h => nomatch h
  | (name, axes) :: rest, hsub, f, h => by
    obtain ⟨hmem, hrest⟩ := List.cons_subset.mp hsub
    rw [flattenNested] at h
    split at h
    · rename_i hname
      subst hname
      exact astray_of_flattenBelow source language place label here hhere axes hmem f h
    · exact astray_of_flattenNested source language place label here hhere rest hrest f h
termination_by structural node => node

theorem astray_of_flattenBelow (source : Option Path) (language place label here : Text)
    (hhere : here = place ++ "." ++ label) {members : Members} : ∀ axes : Json,
    (Text.ofString "variations", axes) ∈ members → ∀ f,
      flattenBelow source place label axes = .error (.invalid source f) →
        Astray language place here .case (.object members) f
  | .null, _, _, h => nomatch h
  | .object axes, hmem, f, h => by
    have hlabel : here ++ "." = place ++ "." ++ (label ++ ".") := by
      rw [hhere, List.append_assoc]
    exact .unnamed .nested hmem
      (astray_of_flattenAxes source language place _ here hlabel axes (List.Subset.refl axes) f h)
  | .bool _, hmem, _, h | .int _, hmem, _, h | .float _, hmem, _, h | .text _, hmem, _, h
  | .list _, hmem, _, h => by
    cases h
    exact .inr (.named .nested hmem (.kind_of_eq (by rw [hhere]; rfl) nofun))
termination_by structural axes => axes

end

/-! ### Entries -/

theorem within_of_variationsOf (howns : role.Owns language "variations" .axes)
    (h : variationsOf source place members = .error (.invalid source f)) :
    Within language role place (.object members) f := by
  rcases Sequence.bind_eq_error_iff.mp h with h | ⟨axes, haxes, h⟩
  · exact .of_member howns (by decide) (within_of_asObject h)
  rcases asObject_eq_ok_iff.mp haxes with ⟨-, rfl⟩ | hobject
  · cases h
  have hplace : place ++ Text.ofString "." = place ++ Text.ofString "." ++ [] :=
    (List.append_nil _).symm
  have hmem := mem_of_member hobject nofun
  have hastray := astray_of_flattenAxes source language place [] place hplace axes
    (List.Subset.refl axes) f h
  exact hastray.elim (.named howns hmem) (.unnamed howns hmem)

theorem argNumOf_eq_error (h : argNumOf source place j = .error (.invalid source f)) :
    ¬j.IsArgNum ∧ f = .argNumNotPositive place := by
  refine ⟨fun hnumber => ?_, ?_⟩
  · obtain ⟨n, hok⟩ : ∃ n, argNumOf source place j = .ok n := argNumOf_ok_iff.mpr hnumber
    cases hok.symm.trans h
  · cases j with
    | null => cases h
    | int n =>
      rw [argNumOf] at h
      split at h
      · exact fault_eq h
      · cases h
    | _ => exact fault_eq h

theorem formatOf_eq_error (h : formatOf source place j = .error (.invalid source f)) :
    ¬j.IsFormat ∧ f = .formatNotText place := by
  refine ⟨fun hformat => ?_, ?_⟩
  · obtain ⟨format, hok⟩ : ∃ format, formatOf source place j = .ok format :=
      formatOf_ok_iff.mpr hformat
    cases hok.symm.trans h
  · unfold formatOf at h
    split at h
    · cases h
    · split at h
      · cases h
      · exact fault_eq h

theorem within_of_substitutionOf {named : Text × Json} (hmem : named ∈ members)
    (hfault : substitutionOf source place named = .error (.invalid source f)) :
    Within language .substitutions (place ++ ".substitutions") (.object members) f := by
  obtain ⟨name, j⟩ := named
  refine .named (.substitution name) hmem ?_
  have hplace : (".substitutions." : Text) = ".substitutions" ++ "." := by decide
  rw [← append_pointed hplace]
  rcases Sequence.bind_eq_error_iff.mp hfault with h | ⟨members, hmembers, h⟩
  · exact within_of_asObject h
  rcases asObject_eq_ok_iff.mp hmembers with ⟨rfl, -⟩ | rfl
  · obtain ⟨s, hok⟩ : ∃ s, substitutionOf source place (name, .null) = .ok s :=
      substitutionOf_ok_iff.mpr .null
    cases hok.symm.trans hfault
  rcases Sequence.bind_eq_error_iff.mp h with h | ⟨argNum, -, h⟩
  · obtain ⟨hnumber, rfl⟩ := argNumOf_eq_error h
    exact .argNum _ (mem_of_member rfl fun hnull => hnumber (hnull ▸ .null)) hnumber
  rcases Sequence.bind_eq_error_iff.mp h with h | ⟨format, -, h⟩
  · obtain ⟨hformat, rfl⟩ := formatOf_eq_error h
    exact .format _ (mem_of_member rfl fun hnull => hformat (hnull ▸ .null)) hformat
  rcases Sequence.bind_eq_error_iff.mp h with h | ⟨variations, -, h⟩
  · exact within_of_variationsOf .ofSubstitution h
  · cases h

theorem within_of_entryOf {named : Text × Json}
    (hfault : entryOf source language named = .error (.invalid source f)) :
    Within language .entry ("strings[" ++ named.1.quoted ++ "]") named.2 f := by
  obtain ⟨key, j⟩ := named
  rcases Sequence.bind_eq_error_iff.mp hfault with h | ⟨members, hmembers, h⟩
  · exact within_of_asObject h
  rcases asObject_eq_ok_iff.mp hmembers with ⟨rfl, -⟩ | rfl
  · obtain ⟨e, hok⟩ : ∃ e, entryOf source language (key, .null) = .ok e := entryOf_ok_iff.mpr .null
    cases hok.symm.trans hfault
  rcases Sequence.bind_eq_error_iff.mp h with h | ⟨localizations, hlocalizations, h⟩
  · exact .of_member .localizations (by decide) (within_of_asObject h)
  rcases asObject_eq_ok_iff.mp hlocalizations with ⟨-, rfl⟩ | hobject
  · cases h
  refine .named .localizations (mem_of_member hobject nofun) ?_
  have hplace : (".localizations." : Text) = ".localizations" ++ "." := by decide
  rcases Sequence.bind_eq_error_iff.mp h with h | ⟨localization, hlocalization, h⟩
  · rw [append_pointed hplace] at h
    exact .of_member .localization rfl (within_of_asObject h)
  cases localization with
  | nil => cases h
  | cons first rest =>
    have hfound : member language localizations = .object (first :: rest) := by
      simpa using asObject_eq_ok_iff.mp hlocalization
    refine .named .localization (mem_of_member hfound nofun) ?_
    dsimp only at h
    rw [append_pointed hplace] at h
    rcases Sequence.bind_eq_error_iff.mp h with h | ⟨value, -, h⟩
    · exact within_of_stringUnit .stringUnit h
    rcases Sequence.bind_eq_error_iff.mp h with h | ⟨variations, -, h⟩
    · exact within_of_variationsOf .variations h
    rcases Sequence.bind_eq_error_iff.mp h with h | ⟨subs, hsubs, h⟩
    · exact .of_member .substitutions (by decide) (within_of_asObject h)
    rcases Sequence.bind_eq_error_iff.mp h with h | ⟨substitutions, -, h⟩
    · obtain ⟨named, hnamed, h⟩ := Sequence.exists_of_mapM_eq_error h
      rcases asObject_eq_ok_iff.mp hsubs with ⟨-, rfl⟩ | hobject
      · exact absurd hnamed List.not_mem_nil
      · exact .named .substitutions (mem_of_member hobject nofun)
          (within_of_substitutionOf hnamed h)
    · cases h

/-! ### Faults of a catalog -/

/-- What is wrong with a value that is no catalog: the value, its source language, what should be
its entries, or something in one of these, where the fault begins with the key of the entry. -/
inductive HasFault (value : Json) : CatalogFault → Prop
  | kind (h : ¬value.OrNull fun _ => True) : HasFault value (.notObject "catalog" value.kindWord)
  | language (h : value.OrNull fun members =>
      ∀ t, member "sourceLanguage" members = .text t → ∀ c ∈ t, isBlank c = true) :
      HasFault value .noSourceLanguage
  | strings {members : Members} (hvalue : value = .object members)
      (h : ¬(member "strings" members).OrNull fun _ => True) :
      HasFault value (.notObject "strings" (member "strings" members).kindWord)
  | entry {members strings : Members} {language key : Text} {j : Json} {f : CatalogFault}
      (hvalue : value = .object members)
      (hlanguage : member "sourceLanguage" members = .text language)
      (hstrings : member "strings" members = .object strings) (hmem : (key, j) ∈ strings)
      (h : Within language .entry ("strings[" ++ key.quoted ++ "]") j f) : HasFault value f

theorem languageOf_eq_error (h : languageOf source members = .error (.invalid source f)) :
    (∀ t, member "sourceLanguage" members = .text t → ∀ c ∈ t, isBlank c = true) ∧
      f = .noSourceLanguage := by
  refine ⟨fun t ht c hc => ?_, ?_⟩
  · by_contra hvisible
    have hok : languageOf source members = .ok t :=
      languageOf_eq_ok_iff.mpr ⟨ht, c, hc, Bool.eq_false_iff.mpr hvisible⟩
    cases hok.symm.trans h
  · unfold languageOf at h
    split at h
    · split at h
      · exact fault_eq h
      · cases h
    · exact fault_eq h

theorem hasFault_of_ofJson {value : Json}
    (hfault : ofJson value source = .error (.invalid source f)) : HasFault value f := by
  rcases Sequence.bind_eq_error_iff.mp hfault with h | ⟨members, hmembers, h⟩
  · obtain ⟨hkind, rfl⟩ := asObject_eq_error_iff.mp h
    exact .kind hkind
  rcases asObject_eq_ok_iff.mp hmembers with ⟨rfl, rfl⟩ | rfl
  · obtain rfl : f = .noSourceLanguage := fault_eq h
    exact .language .null
  rcases Sequence.bind_eq_error_iff.mp h with h | ⟨language, hlanguage, h⟩
  · obtain ⟨hblank, rfl⟩ := languageOf_eq_error h
    exact .language (.object hblank)
  rcases Sequence.bind_eq_error_iff.mp h with h | ⟨strings, hstrings, h⟩
  · obtain ⟨hkind, rfl⟩ := asObject_eq_error_iff.mp h
    exact .strings rfl hkind
  rcases Sequence.bind_eq_error_iff.mp h with h | ⟨entries, -, h⟩
  · obtain ⟨⟨key, j⟩, hmem, h⟩ := Sequence.exists_of_mapM_eq_error h
    rcases asObject_eq_ok_iff.mp hstrings with ⟨-, rfl⟩ | hobject
    · exact absurd hmem List.not_mem_nil
    · exact .entry rfl (languageOf_eq_ok_iff.mp hlanguage).1 hobject hmem (within_of_entryOf h)
  · cases h

end StringCatalog.Catalog
