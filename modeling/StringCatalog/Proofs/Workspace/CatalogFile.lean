import StringCatalog.Proofs.Catalog.Fault
import StringCatalog.Proofs.Workspace.Obstacle

/-! The file of a catalog. Whatever is wrong with it, from a file that is missing to a value deep
within, the error names the file. -/

namespace StringCatalog.FileTree

variable {tree : FileTree} {nesting : Nat} {directory : Location} {p : Path} {e : CatalogError}

/-- Why what is at a path is refused as a catalog, with the error that tells so. -/
inductive Refuses (tree : FileTree) (nesting : Nat) (directory : Location) (p : Path) :
    CatalogError → Prop
  | missing (h : p.fault? ≠ none ∨ tree.find? directory p = none) :
      Refuses tree nesting directory p (.missing p)
  | unread {e : CatalogError} (h : tree.Unread nesting directory p (.catalog e)) :
      Refuses tree nesting directory p e
  | fault {bytes : ByteArray} {text : Text} {value : Json} {fault : CatalogFault}
      (hfind : tree.find? directory p = some (.file bytes)) (hdecode : decode? bytes = some text)
      (hread : Json.ofText nesting text.unifyNewlines = .ok value)
      (hfault : Catalog.HasFault value fault) :
      Refuses tree nesting directory p (.invalid (some p) fault)

/-- Each of these errors names the path, as it is displayed. -/
theorem Refuses.names (h : tree.Refuses nesting directory p e) : p.display <:+: e.message := by
  cases h with
  | missing => exact (List.suffix_append _ _).isInfix
  | unread h =>
    cases h with
    | directory | undecodable | malformed =>
      exact ((List.prefix_append _ _).trans (List.prefix_append _ _)).isInfix
  | fault => exact ((List.prefix_append _ _).trans (List.prefix_append _ _)).isInfix

theorem missing_of_pathExists (h : tree.pathExists directory p = .ok false) :
    p.fault? ≠ none ∨ tree.find? directory p = none := by
  by_contra hfound
  obtain ⟨hfault, hfind⟩ := not_or.mp hfound
  have htrue := pathExists_eq_true_iff.mpr
    ⟨not_not.mp hfault, Option.ne_none_iff_exists'.mp hfind⟩
  cases htrue.symm.trans h

theorem refuses_of_readCatalog (h : tree.readCatalog nesting directory p = .error (.catalog e)) :
    tree.Refuses nesting directory p e := by
  rcases Sequence.bind_eq_error_iff.mp h with h | ⟨found, hexists, h⟩
  · cases (pathExists_eq_error h).1
  cases found with
  | false =>
    obtain rfl := Failure.catalog.inj (Except.error.inj h)
    exact .missing (missing_of_pathExists hexists)
  | true =>
    rcases Sequence.bind_eq_error_iff.mp h with h | ⟨value, hvalue, h⟩
    · exact .unread (unread_of_readJson hexists h)
    · obtain ⟨bytes, text, hfind, hdecode, hread⟩ := exists_of_readJson_eq_ok hvalue
      obtain ⟨e', hjson, he⟩ := Sequence.mapError_eq_error_iff.mp h
      obtain rfl := Failure.catalog.inj he
      -- the error is raised somewhere below, and every reader on the way passes the path on
      obtain ⟨fault, rfl⟩ := Catalog.namesSource_ofJson value (some p) _ hjson
      exact .fault hfind hdecode hread (Catalog.hasFault_of_ofJson hjson)

/-- Where a catalog is refused, the error names the path, whichever of the reasons it has and
however deep in the value the fault lies. -/
theorem readCatalog_error_names (tree : FileTree) (nesting : Nat) (directory : Location) (p : Path)
    (e : CatalogError) (h : tree.readCatalog nesting directory p = .error (.catalog e)) :
    p.display <:+: e.message ∧ tree.Refuses nesting directory p e :=
  have hrefuses := refuses_of_readCatalog h
  ⟨hrefuses.names, hrefuses⟩

/-- A catalog with a number for the cases of an axis that is nested in a case of a substitution. -/
def deepFault : FileTree :=
  ⟨[(["p"], .directory), (["p", "L.json"], .file (String.toUTF8
    ("\x7b\"sourceLanguage\":\"en\",\"strings\":\x7b\"k\":\x7b\"localizations\":\x7b\"en\":\x7b" ++
      "\"substitutions\":\x7b\"n\":\x7b\"variations\":\x7b\"device\":\x7b\"mac\":\x7b" ++
      "\"variations\":\x7b\"plural\":1\x7d\x7d\x7d\x7d\x7d\x7d\x7d\x7d\x7d\x7d\x7d")))]⟩

theorem readCatalog_error_names_deep :
    let p := Path.ofText "../p/L.json"
    ∃ e, deepFault.readCatalog 16 ["p"] p = .error (.catalog e) ∧
      e.message = "../p/L.json: strings['k'].localizations.en.substitutions.n.variations.plural" ++
        " 必须是 object，实际是 int" ∧
      p.display <:+: e.message ∧ deepFault.Refuses 16 ["p"] p e := by
  intro p
  obtain ⟨e, he⟩ : ∃ e, e = CatalogError.invalid (some p) (.notObject
      "strings['k'].localizations.en.substitutions.n.variations.plural" "int") := ⟨_, rfl⟩
  have hmap : (deepFault.readCatalog 16 ["p"] p).map (fun _ => ()) = .error (.catalog e) := by
    rw [he]
    decide +kernel
  have hread : deepFault.readCatalog 16 ["p"] p = .error (.catalog e) := by
    cases h : deepFault.readCatalog 16 ["p"] p with
    | ok c =>
      rw [h] at hmap
      cases hmap
    | error f =>
      rw [h] at hmap
      rw [Except.error.inj hmap]
  exact ⟨e, hread, by rw [he]; decide +kernel, readCatalog_error_names _ _ _ _ _ hread⟩

end StringCatalog.FileTree
