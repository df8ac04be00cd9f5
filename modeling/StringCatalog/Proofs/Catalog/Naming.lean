import StringCatalog.Catalog.Reader
import StringCatalog.Proofs.Sequence

/-! The file that an error names. Every reader is told the file that its value comes from, and each
of its errors, wherever in the value it is raised, names that file. -/

namespace StringCatalog.Catalog

variable {α β : Type} {source : Option Path} {place label : Text}

/-- An error of the reading is that of a value from this file. -/
def NamesSource (source : Option Path) (r : Except CatalogError α) : Prop :=
  ∀ e, r = .error e → ∃ fault, e = .invalid source fault

namespace NamesSource

theorem ok (a : α) : NamesSource source (.ok a) := nofun

theorem error (fault : CatalogFault) :
    NamesSource source (.error (.invalid source fault) : Except CatalogError α) := by
  intro e h
  exact ⟨fault, (Except.error.inj h).symm⟩

theorem bind {r : Except CatalogError α} {f : α → Except CatalogError β}
    (hr : NamesSource source r) (hf : ∀ a, NamesSource source (f a)) :
    NamesSource source (r >>= f) := by
  intro e h
  rcases Sequence.bind_eq_error_iff.mp h with h | ⟨a, -, h⟩
  · exact hr e h
  · exact hf a e h

theorem mapM {f : α → Except CatalogError β} (hf : ∀ a, NamesSource source (f a)) (xs : List α) :
    NamesSource source (xs.mapM f) := by
  intro e h
  obtain ⟨a, -, h⟩ := Sequence.exists_of_mapM_eq_error h
  exact hf a e h

end NamesSource

/-! ### Nodes -/

theorem namesSource_asObject (j : Json) : NamesSource source (asObject source place j) := by
  cases j with
  | null => exact .ok []
  | object members => exact .ok members
  | _ => exact .error _

theorem namesSource_stringUnit (node : Members) :
    NamesSource source (stringUnit source place node) := by
  refine .bind (namesSource_asObject _) fun unit => ?_
  cases unit with
  | nil => exact .ok none
  | cons first rest =>
    dsimp only
    split
    · exact .ok _
    · exact .error _

/-! ### Axes and cases -/

-- The induction is that of the reading: no call on the way down may lose the file.

mutual

theorem namesSource_flattenAxes (source : Option Path) (place label : Text) :
    ∀ axes : List (Text × Json), NamesSource source (flattenAxes source place label axes)
  | [] => .ok []
  | (axis, cases) :: rest =>
    .bind (namesSource_flattenAxis source place label axis cases) fun _ =>
      .bind (namesSource_flattenAxes source place label rest) fun _ => .ok _
termination_by structural axes => axes

theorem namesSource_flattenAxis (source : Option Path) (place label axis : Text) :
    ∀ cases : Json, NamesSource source (flattenAxis source place label axis cases)
  | .null => .ok []
  | .object cases => namesSource_flattenCases source place (label ++ axis ++ ".") cases
  | .bool _ | .int _ | .float _ | .text _ | .list _ => .error _
termination_by structural cases => cases

theorem namesSource_flattenCases (source : Option Path) (place label : Text) :
    ∀ cases : List (Text × Json), NamesSource source (flattenCases source place label cases)
  | [] => .ok []
  | (case, node) :: rest =>
    .bind (namesSource_flattenCase source place (label ++ case) node) fun _ =>
      .bind (namesSource_flattenCases source place label rest) fun _ => .ok _
termination_by structural cases => cases

theorem namesSource_flattenCase (source : Option Path) (place label : Text) :
    ∀ node : Json, NamesSource source (flattenCase source place label node)
  | .null => .ok []
  | .object node =>
    .bind (namesSource_stringUnit node) fun _ =>
      .bind (namesSource_flattenNested source place label node) fun _ => .ok _
  | .bool _ | .int _ | .float _ | .text _ | .list _ => .error _
termination_by structural node => node

theorem namesSource_flattenNested (source : Option Path) (place label : Text) :
    ∀ node : List (Text × Json), NamesSource source (flattenNested source place label node)
  | [] => .ok []
  | (name, axes) :: rest => by
    unfold flattenNested
    split
    · exact namesSource_flattenBelow source place label axes
    · exact namesSource_flattenNested source place label rest
termination_by structural node => node

theorem namesSource_flattenBelow (source : Option Path) (place label : Text) :
    ∀ axes : Json, NamesSource source (flattenBelow source place label axes)
  | .null => .ok []
  | .object axes => namesSource_flattenAxes source place (label ++ ".") axes
  | .bool _ | .int _ | .float _ | .text _ | .list _ => .error _
termination_by structural axes => axes

end

theorem namesSource_variationsOf (owner : Members) :
    NamesSource source (variationsOf source place owner) :=
  .bind (namesSource_asObject _) (namesSource_flattenAxes source place [])

/-! ### Substitutions and entries -/

theorem namesSource_argNumOf (j : Json) : NamesSource source (argNumOf source place j) := by
  cases j with
  | null => exact .ok none
  | int n =>
    rw [argNumOf]
    split
    · exact .error _
    · exact .ok _
  | _ => exact .error _

theorem namesSource_formatOf (j : Json) : NamesSource source (formatOf source place j) := by
  unfold formatOf
  split
  · exact .ok _
  · split
    · exact .ok _
    · exact .error _

theorem namesSource_substitutionOf (named : Text × Json) :
    NamesSource source (substitutionOf source place named) :=
  .bind (namesSource_asObject _) fun _ => .bind (namesSource_argNumOf _) fun _ =>
    .bind (namesSource_formatOf _) fun _ => .bind (namesSource_variationsOf _) fun _ => .ok _

theorem namesSource_entryOf (language : Text) (named : Text × Json) :
    NamesSource source (entryOf source language named) := by
  refine .bind (namesSource_asObject _) fun members => ?_
  refine .bind (namesSource_asObject _) fun localizations => ?_
  refine .bind (namesSource_asObject _) fun localization => ?_
  cases localization with
  | nil => exact .ok _
  | cons first rest =>
    refine .bind (namesSource_stringUnit _) fun value => ?_
    refine .bind (namesSource_variationsOf _) fun variations => ?_
    refine .bind (namesSource_asObject _) fun subs => ?_
    exact .bind (.mapM namesSource_substitutionOf subs) fun _ => .ok _

theorem namesSource_languageOf (members : Members) :
    NamesSource source (languageOf source members) := by
  unfold languageOf
  split
  · split
    · exact .error _
    · exact .ok _
  · exact .error _

theorem namesSource_ofJson (value : Json) (source : Option Path) :
    NamesSource source (ofJson value source) :=
  .bind (namesSource_asObject _) fun _ => .bind (namesSource_languageOf _) fun language =>
    .bind (namesSource_asObject _) fun strings =>
      .bind (.mapM (namesSource_entryOf language) strings) fun _ => .ok _

end StringCatalog.Catalog
