import StringCatalog.Proofs.Catalog.Account
import StringCatalog.Proofs.Swift.Totality
import StringCatalog.Proofs.Workspace.Output

/-! Obstacles: what keeps a step from having a result without being one of the errors that a run
reports. Every obstacle is traced back to the files that the step finds. -/

namespace StringCatalog

/-- The error of a catalog, of the configuration or of a generation. -/
def Failure.IsForeseen : Failure → Prop
  | .catalog _ | .config _ | .generation _ => True
  | _ => False

/-! ### Catalogs -/

theorem Template.scan_ne_tooDeep (text : Text) (subs : SubstitutionMap) :
    scan text subs ≠ .error .tooDeep := by
  unfold scan
  split
  · nofun
  · unfold ofText
    dsimp only
    split <;> nofun

namespace CatalogEntry

variable {e : CatalogEntry}

theorem substitutionMaps_ne_tooDeep : e.substitutionMaps ≠ .error .tooDeep := by
  intro h
  rcases Sequence.bind_eq_error_iff.mp h with hmode | ⟨positional, -, h⟩
  · unfold usesPositions at hmode
    split at hmode
    · contradiction
    · split at hmode <;> contradiction
  · contradiction

theorem toResource_ne_tooDeep : e.toResource ≠ .error .tooDeep := by
  intro h
  rcases Sequence.bind_eq_error_iff.mp h with h | ⟨maps, -, h⟩
  · exact substitutionMaps_ne_tooDeep h
  rcases Sequence.bind_eq_error_iff.mp h with h | ⟨variants, -, h⟩
  · rcases Sequence.bind_eq_error_iff.mp h with h | ⟨maps, -, h⟩
    · exact substitutionMaps_ne_tooDeep h
    · obtain ⟨pair, -, h⟩ := Sequence.exists_of_mapM_eq_error h
      exact Template.scan_ne_tooDeep _ _ h
  rcases Sequence.bind_eq_error_iff.mp h with h | ⟨arguments, -, h⟩
  · obtain ⟨error, -, h⟩ := Sequence.mapError_eq_error_iff.mp h
    contradiction
  rcases Sequence.bind_eq_error_iff.mp h with h | ⟨defaultValue, -, h⟩
  · exact Template.scan_ne_tooDeep _ _ h
  · contradiction

end CatalogEntry

namespace Catalog

variable {c : Catalog} {x : Extraction} {strict skipStale : Bool} {nesting components : Nat}
  {bytes : ByteArray}

/-- Where an extraction fails, it is strict and has a generation error, or an entry has a position
whose numeral is too long. -/
theorem extract_eq_error {failure : GenerationFailure}
    (h : c.extract strict skipStale = .error failure) :
    (strict = true ∧ ∃ e, failure = .generation e) ∨
      failure = .numeralTooLong ∧ ∃ e ∈ c.entries, ¬e.HasShortNumerals := by
  rcases Sequence.bind_eq_error_iff.mp h with h | ⟨found, -, h⟩
  · obtain ⟨e, he, h⟩ := Sequence.exists_of_mapM_eq_error h
    unfold extractEntry at h
    split at h
    · contradiction
    · split at h
      · contradiction
      · split at h
        · exact .inl ⟨‹_›, _, (Except.error.inj h).symm⟩
        · contradiction
      · rename_i hgeneration hresource
        cases h
        cases failure with
        | generation error => exact absurd rfl (hgeneration error)
        | numeralTooLong =>
          refine .inr ⟨rfl, e, he, fun hshort => ?_⟩
          obtain ⟨error, h⟩ := CatalogEntry.toResource_eq_error hshort hresource
          contradiction
        | tooDeep => exact absurd hresource CatalogEntry.toResource_ne_tooDeep
  · contradiction

/-- Resources that lie too deep come from entries whose keys have too many components. -/
theorem exists_deep_entry (h : c.extract strict skipStale = .ok x) {rs : List Resource}
    (hrs : rs ⊆ x.resources) (hdeep : NamespaceTree.isTooDeep components rs [] = true) :
    ∃ e ∈ c.entries, components < (Resource.keyComponents e.key).length := by
  obtain ⟨r, hr, hlong⟩ := List.any_eq_true.mp hdeep
  obtain ⟨e, he⟩ := exists_entry_of_mem_resources h (hrs hr)
  obtain ⟨e', he', hkey⟩ := List.mem_map.mp (key_mem_of_mem_resources h (hrs hr))
  refine ⟨e', he', ?_⟩
  rw [hkey, ← (Swift.keyed_of_toResource he).components]
  simpa using hlong

/-- A catalog is what the bytes of a file come to, where so many values may be nested. -/
def IsReadFrom (c : Catalog) (nesting : Nat) (bytes : ByteArray) : Prop :=
  ∃ text value path, FileTree.decode? bytes = some text ∧
    Json.ofText nesting text.unifyNewlines = .ok value ∧ ofJson value path = .ok c

/-- What keeps the resources of a catalog from being found: a numeral or lists and objects beyond
what can be read, a position that is too long, or a key with too many components. -/
inductive Obstacle (nesting components : Nat) (bytes : ByteArray) : Failure → Prop
  | numeral {text : Text} (decoded : FileTree.decode? bytes = some text)
      (read : Json.ofText nesting text.unifyNewlines = .error .numeralTooLong) :
      Obstacle nesting components bytes .numeralTooLong
  | nesting {text : Text} (decoded : FileTree.decode? bytes = some text)
      (read : Json.ofText nesting text.unifyNewlines = .error .tooDeep) :
      Obstacle nesting components bytes .tooDeep
  | position {c : Catalog} {e : CatalogEntry} (read : c.IsReadFrom nesting bytes)
      (entry : e ∈ c.entries) (long : ¬e.HasShortNumerals) :
      Obstacle nesting components bytes .numeralTooLong
  | components {c : Catalog} {e : CatalogEntry} (read : c.IsReadFrom nesting bytes)
      (entry : e ∈ c.entries) (deep : components < (Resource.keyComponents e.key).length) :
      Obstacle nesting components bytes .tooDeep

theorem Obstacle.not_isForeseen {f : Failure} (h : Obstacle nesting components bytes f) :
    ¬f.IsForeseen := by
  cases h <;> exact id

theorem IsReadFrom.ne_malformed (h : c.IsReadFrom nesting bytes) {text : Text}
    (hdecode : FileTree.decode? bytes = some text) :
    Json.ofText nesting text.unifyNewlines ≠ .error .malformed := by
  obtain ⟨text', value, path, hdecode', hvalue, -⟩ := h
  obtain rfl := Option.some.inj (hdecode.symm.trans hdecode')
  rw [hvalue]
  nofun

theorem Obstacle.ne_malformed {f : Failure} (h : Obstacle nesting components bytes f)
    {text : Text}
    (hdecode : FileTree.decode? bytes = some text) :
    Json.ofText nesting text.unifyNewlines ≠ .error .malformed := by
  cases h with
  | numeral decoded read | nesting decoded read =>
    obtain rfl := Option.some.inj (hdecode.symm.trans decoded)
    rw [read]
    nofun
  | position read _ _ | components read _ _ => exact read.ne_malformed hdecode

end Catalog

namespace FileTree

variable {tree : FileTree} {nesting : Nat} {place : Location} {p : Path} {f : Failure}

theorem pathExists_eq_error (h : tree.pathExists place p = .error f) :
    f = .file ⟨.nameTooLong, p⟩ ∧ tree.locate place p = .error .nameTooLong := by
  obtain ⟨-, hlocate, hf⟩ := pathExists_eq_error_iff.mp h
  exact ⟨hf, hlocate⟩

/-- What is at a path that leads to something keeps its text from being read if it is a directory or
not in UTF-8. -/
theorem readText_eq_error (hexists : tree.pathExists place p = .ok true)
    (h : tree.readText place p = .error f) :
    f = .file ⟨.isDirectory, p⟩ ∧ tree.find? place p = some .directory ∨
      f = .undecodable ∧ ∃ bytes, tree.find? place p = some (.file bytes) ∧
        decode? bytes = none := by
  obtain ⟨-, node, hfind⟩ := pathExists_eq_true_iff.mp hexists
  obtain ⟨hlocate, hat⟩ := find?_eq_some_iff.mp hfind
  simp only [readText, hlocate, hat] at h
  cases node with
  | directory => exact .inl ⟨(Except.error.inj h).symm, hfind⟩
  | file bytes =>
    dsimp only at h
    cases hdecode : decode? bytes with
    | none =>
      rw [hdecode] at h
      exact .inr ⟨(Except.error.inj h).symm, bytes, hfind, hdecode⟩
    | some text =>
      rw [hdecode] at h
      contradiction

theorem exists_isReadFrom {c : Catalog} (h : tree.readCatalog nesting place p = .ok c) :
    ∃ bytes, tree.find? place p = some (.file bytes) ∧ c.IsReadFrom nesting bytes := by
  obtain ⟨found, -, h⟩ := Sequence.bind_eq_ok_iff.mp h
  cases found with
  | false => contradiction
  | true =>
    obtain ⟨value, hjson, hcatalog⟩ := Sequence.bind_eq_ok_iff.mp h
    obtain ⟨bytes, text, hfind, hdecode, hread⟩ := exists_of_readJson_eq_ok hjson
    exact ⟨bytes, hfind, text, value, _, hdecode, hread, Sequence.mapError_eq_ok_iff.mp hcatalog⟩

/-- Why what is at a path is not read as JSON, with the failure that it comes to. -/
inductive Unread (tree : FileTree) (nesting : Nat) (place : Location) (p : Path) :
    Failure → Prop
  | directory (hfind : tree.find? place p = some .directory) :
      Unread tree nesting place p (.catalog (.unreadable p (FileError.message ⟨.isDirectory, p⟩)))
  | undecodable {bytes : ByteArray} (hfind : tree.find? place p = some (.file bytes))
      (hdecode : decode? bytes = none) :
      Unread tree nesting place p (.catalog (.unreadable p "not in UTF-8"))
  | malformed {bytes : ByteArray} {text : Text} (hfind : tree.find? place p = some (.file bytes))
      (hdecode : decode? bytes = some text)
      (hread : Json.ofText nesting text.unifyNewlines = .error .malformed) :
      Unread tree nesting place p (.catalog (.unreadable p "not in JSON"))
  | numeral {bytes : ByteArray} {text : Text} (hfind : tree.find? place p = some (.file bytes))
      (hdecode : decode? bytes = some text)
      (hread : Json.ofText nesting text.unifyNewlines = .error .numeralTooLong) :
      Unread tree nesting place p .numeralTooLong
  | nesting {bytes : ByteArray} {text : Text} (hfind : tree.find? place p = some (.file bytes))
      (hdecode : decode? bytes = some text)
      (hread : Json.ofText nesting text.unifyNewlines = .error .tooDeep) :
      Unread tree nesting place p .tooDeep

theorem unread_of_readJson (hexists : tree.pathExists place p = .ok true)
    (h : tree.readJson nesting place p = .error f) : tree.Unread nesting place p f := by
  unfold readJson at h
  cases htext : tree.readText place p with
  | error failure =>
    rw [htext] at h
    rcases readText_eq_error hexists htext with ⟨rfl, hfind⟩ | ⟨rfl, bytes, hfind, hdecode⟩
    · obtain rfl := Except.error.inj h
      exact .directory hfind
    · obtain rfl := Except.error.inj h
      exact .undecodable hfind hdecode
  | ok text =>
    obtain ⟨bytes, old, hfind, hdecode, rfl⟩ := readText_eq_ok_iff.mp htext
    rw [htext] at h
    dsimp only at h
    split at h <;> rename_i hread <;> cases h
    · exact .malformed hfind hdecode hread
    · exact .numeral hfind hdecode hread
    · exact .nesting hfind hdecode hread

/-- A catalog that is not read has an error, or its path is too long, or its file is an obstacle. -/
theorem readCatalog_eq_error (components : Nat)
    (h : tree.readCatalog nesting place p = .error f) :
    (∃ e, f = .catalog e) ∨
      f = .file ⟨.nameTooLong, p⟩ ∧ tree.locate place p = .error .nameTooLong ∨
      ∃ bytes, tree.find? place p = some (.file bytes) ∧
        Catalog.Obstacle nesting components bytes f := by
  rcases Sequence.bind_eq_error_iff.mp h with h | ⟨found, hexists, h⟩
  · exact .inr (.inl (pathExists_eq_error h))
  cases found with
  | false => exact .inl ⟨_, (Except.error.inj h).symm⟩
  | true =>
    rcases Sequence.bind_eq_error_iff.mp h with h | ⟨value, -, h⟩
    · cases unread_of_readJson hexists h with
      | directory | undecodable | malformed => exact .inl ⟨_, rfl⟩
      | numeral hfind hdecode hread => exact .inr (.inr ⟨_, hfind, .numeral hdecode hread⟩)
      | nesting hfind hdecode hread => exact .inr (.inr ⟨_, hfind, .nesting hdecode hread⟩)
    · obtain ⟨e, -, rfl⟩ := Sequence.mapError_eq_error_iff.mp h
      exact .inl ⟨e, rfl⟩

/-! ### Configurations -/

variable {env : Environment} {root : Path}

/-- What keeps a configuration from being read: a path that is too long or leads to a directory, a
file that is not in UTF-8, a document for which its reader fails in a way of its own, a numeral that
is too long, or a text that is no path. -/
inductive ConfigObstacle (tree : FileTree) (env : Environment) (root p : Path) : Failure → Prop
  | longPath (long : tree.locate env.place p = .error .nameTooLong) :
      ConfigObstacle tree env root p (.file ⟨.nameTooLong, p⟩)
  | directory (found : tree.find? env.place p = some .directory) :
      ConfigObstacle tree env root p (.file ⟨.isDirectory, p⟩)
  | bytes {bytes : ByteArray} (found : tree.find? env.place p = some (.file bytes))
      (undecodable : decode? bytes = none) : ConfigObstacle tree env root p .undecodable
  | document {text kind : Text} (found : tree.readText env.place p = .ok text)
      (read : env.readDocument text = .error (.unforeseen kind)) :
      ConfigObstacle tree env root p (.unforeseen kind)
  | numeral {members : Config.Members} (found : tree.readMembers env p = .ok members)
      (read : Config.ofMembers env.homeOf root members = .error .numeralTooLong) :
      ConfigObstacle tree env root p .numeralTooLong
  | path {members : Config.Members} {fault : PathFault}
      (found : tree.readMembers env p = .ok members)
      (read : Config.ofMembers env.homeOf root members = .error (.path fault)) :
      ConfigObstacle tree env root p (.path fault)

theorem ConfigObstacle.not_isForeseen (h : ConfigObstacle tree env root p f) : ¬f.IsForeseen := by
  cases h <;> exact id

theorem readMembers_eq_error (h : tree.readMembers env p = .error f) :
    (∃ e, f = .config e) ∨ ConfigObstacle tree env root p f := by
  rcases Sequence.bind_eq_error_iff.mp h with h | ⟨found, hexists, h⟩
  · obtain ⟨rfl, hlocate⟩ := pathExists_eq_error h
    exact .inr (.longPath hlocate)
  cases found with
  | false => exact .inl ⟨_, (Except.error.inj h).symm⟩
  | true =>
    rcases Sequence.bind_eq_error_iff.mp h with h | ⟨text, htext, h⟩
    · rcases readText_eq_error hexists h with ⟨rfl, hfind⟩ | ⟨rfl, bytes, hfind, hdecode⟩
      · exact .inr (.directory hfind)
      · exact .inr (.bytes hfind hdecode)
    · split at h <;> cases h
      · exact .inl ⟨_, rfl⟩
      · exact .inl ⟨_, rfl⟩
      · exact .inr (.document htext ‹_›)

theorem readConfig_eq_error {file : Path} (project : Option Path)
    (hfile : Environment.resolve env.directory file = .ok p)
    (hproject : (project.getD p.parent).IsResolved)
    (h : tree.readConfig env file project = .error f) :
    (∃ e, f = .config e) ∨ ConfigObstacle tree env (project.getD p.parent) p f := by
  have hroot : Environment.resolve env.directory (project.getD p.parent) =
      .ok (project.getD p.parent) :=
    Sequence.mapError_eq_ok_iff.mpr (hproject.resolve _)
  rcases Sequence.bind_eq_error_iff.mp h with h | ⟨p', hp', h⟩
  · rw [hfile] at h
    contradiction
  obtain rfl := Except.ok.inj (hfile.symm.trans hp')
  rcases Sequence.bind_eq_error_iff.mp h with h | ⟨root, hroot', h⟩
  · rw [hroot] at h
    contradiction
  obtain rfl := Except.ok.inj (hroot.symm.trans hroot')
  rcases Sequence.bind_eq_error_iff.mp h with h | ⟨members, hmembers, h⟩
  · exact readMembers_eq_error h
  · split at h <;> cases h
    · exact .inl ⟨_, rfl⟩
    · exact .inr (.numeral hmembers ‹_›)
    · exact .inr (.path hmembers ‹_›)

end FileTree

/-! ### Source files -/

namespace FileTree

variable {kind : Text → Prop} {before tree after : FileTree} {place : Location}

/-- Every file of the later tree is one of the earlier tree, or has the bytes of a text of some
kind. -/
def Descends (kind : Text → Prop) (before after : FileTree) : Prop :=
  ∀ place bytes, after.at? place = some (.file bytes) →
    before.at? place = some (.file bytes) ∨ ∃ text, kind text ∧ encode? text = some bytes

theorem ne_nil_of_file {bytes : ByteArray} (h : tree.at? place = some (.file bytes)) :
    place ≠ [] := by
  have hnot : tree.at? place ≠ some .directory := by
    rw [h]
    nofun
  exact ne_nil_of_at? hnot

namespace Descends

theorem refl (kind : Text → Prop) (tree : FileTree) : Descends kind tree tree :=
  fun _ _ => .inl

/-- New directories are no files. -/
theorem of_frame (h : Descends kind before tree) {made : List Location}
    (hframe : Frame made [] tree after) : Descends kind before after := by
  intro place bytes hat
  rcases hframe.elsewhere place List.not_mem_nil with hsame | ⟨-, hdirectory, -⟩
  · exact h place bytes (hsame ▸ hat)
  · rw [hat] at hdirectory
    cases hdirectory

theorem remove (h : Descends kind before tree) (place : Location) :
    Descends kind before (tree.remove place) := by
  intro other bytes hat
  by_cases hother : other = place
  · subst hother
    rw [at?_remove_self (ne_nil_of_file hat)] at hat
    contradiction
  · rw [at?_remove_of_ne hother] at hat
    exact h other bytes hat

theorem put_file (h : Descends kind before tree) (place : Location) {text : Text}
    {bytes : ByteArray} (hkind : kind text) (hencode : encode? text = some bytes) :
    Descends kind before (tree.put place (.file bytes)) := by
  intro other bytes' hat
  by_cases hother : other = place
  · subst hother
    rw [at?_put_self (ne_nil_of_file hat)] at hat
    cases hat
    exact .inr ⟨text, hkind, hencode⟩
  · rw [at?_put_of_ne hother] at hat
    exact h other bytes' hat

end Descends

end FileTree

namespace FileJob

variable {kind : Text → Prop} {before tree : FileTree} {directory : Location} {p : Path}
  {text : Text} {dryRun : Bool}

/-- What keeps a text from being written to a file: a file there that is not in UTF-8, half of a pair
in the text, or too many missing directories. -/
inductive Obstacle (before : FileTree) (directory : Location) (p : Path) (text : Text)
    (dryRun : Bool) : Failure → Prop
  | old {bytes : ByteArray} (found : before.at? (p.place directory) = some (.file bytes))
      (undecodable : FileTree.decode? bytes = none) :
      Obstacle before directory p text dryRun .undecodable
  | text (wet : dryRun = false) (unencodable : FileTree.encode? text = none) :
      Obstacle before directory p text dryRun .unencodable
  | directories (wet : dryRun = false) (deep : deepest ≤ p.parent.parts.length) :
      Obstacle before directory p text dryRun .tooDeep

theorem Obstacle.not_isForeseen {f : Failure} (h : Obstacle before directory p text dryRun f) :
    ¬f.IsForeseen := by
  cases h <;> exact id

theorem ends_makeDirectory_error (place : Location) (p : Path) (tree : FileTree) :
    Ends (makeDirectory place p) tree (either (fun _ _ => True) fun f _ => ∃ e, f = .file e) := by
  unfold makeDirectory
  refine .get_bind ?_
  cases tree.at? place with
  | none => exact .bind (.set (.pure trivial))
  | some node =>
    cases node with
    | file bytes => exact .throw ⟨_, rfl⟩
    | directory => exact .pure trivial

/-- No more directories are made than a path has names. -/
theorem ends_makeDirectories_error (directory : Location) (around : Nat) (p : Path)
    (tree : FileTree) :
    Ends (makeDirectories directory around p) tree (either (fun _ _ => True)
      fun f _ => (∃ e, f = .file e) ∨ f = .tooDeep ∧ around ≤ p.parts.length) := by
  induction around generalizing p with
  | zero => exact .throw (.inr ⟨rfl, Nat.zero_le _⟩)
  | succ around ih =>
    have hmake : ∀ place tree, Ends (makeDirectory place p) tree (either (fun _ _ => True)
        fun f _ => (∃ e, f = .file e) ∨ f = .tooDeep ∧ around + 1 ≤ p.parts.length) := by
      intro place tree
      refine (ends_makeDirectory_error place p tree).mono fun r _ h => ?_
      cases r with
      | ok => trivial
      | error f => exact .inl h
    unfold makeDirectories
    refine .get_bind ?_
    cases hlocate : tree.locate directory p with
    | ok place => exact hmake place tree
    | error fault =>
      cases fault with
      | notFound =>
        have hparts := List.length_pos_of_ne_nil (FileTree.parts_ne_nil_of_locate hlocate)
        have hparent : p.parent.parts.length = p.parts.length - 1 := List.length_dropLast
        refine .bind ((ih p.parent).mono fun r between h => ?_)
        cases r with
        | error f => exact h.imp_right fun hdeep => ⟨hdeep.1, by omega⟩
        | ok parent =>
          refine .get_bind ?_
          cases between.enter parent [p.name] with
          | error fault => exact .throw (.inl ⟨_, rfl⟩)
          | ok place => exact hmake place between
      | _ => exact .throw (.inl ⟨_, rfl⟩)

theorem ends_replaceFile_descends (h : FileTree.Descends kind before tree) (hkind : kind text) :
    Ends (replaceFile directory p text) tree (either (fun _ => FileTree.Descends kind before)
      fun f _ => (∃ e, f = .file e) ∨ f = .unencodable ∧ FileTree.encode? text = none) := by
  unfold replaceFile
  refine .get_bind ?_
  cases tree.locate directory (temporary p) with
  | error fault => exact .throw (.inl ⟨_, rfl⟩)
  | ok aside =>
    dsimp only
    split
    · exact .throw (.inl ⟨_, rfl⟩)
    · refine .bind (.set ?_)
      cases hencode : FileTree.encode? text with
      | none => exact .throw (.inr ⟨rfl, rfl⟩)
      | some bytes =>
        unfold moveTo
        refine .get_bind ?_
        cases (tree.remove aside).locate directory p with
        | error fault => exact .throw (.inl ⟨_, rfl⟩)
        | ok place =>
          dsimp only
          split
          · exact .throw (.inl ⟨_, rfl⟩)
          · split
            · exact .throw (.inl ⟨_, rfl⟩)
            · exact .set ((h.remove aside).put_file place hkind hencode)

/-- A file that cannot be compared to a text has been there from the beginning. -/
theorem holdsText_eq_error (h : FileTree.Descends kind before tree) {f : Failure}
    (herror : holdsText tree directory p text = .error f) :
    (∃ e, f = .file e) ∨ Obstacle before directory p text dryRun f := by
  rcases Sequence.bind_eq_error_iff.mp herror with herror | ⟨found, hexists, herror⟩
  · exact .inl ⟨_, (FileTree.pathExists_eq_error herror).1⟩
  cases found with
  | false => contradiction
  | true =>
    cases hread : tree.readText directory p with
    | ok old => simp [hread, Except.map] at herror
    | error f' =>
      obtain rfl : f' = f := by simpa [hread, Except.map] using herror
      rcases FileTree.readText_eq_error hexists hread with ⟨rfl, -⟩ | ⟨rfl, bytes, hfind, hbytes⟩
      · exact .inl ⟨_, rfl⟩
      · rcases h _ _ (FileTree.find?_eq_some_iff.mp hfind).2 with hbefore | ⟨text', -, hencode⟩
        · exact .inr (.old hbefore hbytes)
        · rw [FileTree.decode?_of_encode? hencode] at hbytes
          contradiction

/-- To write a file leaves only files that were there and the one that is written. It fails for a
fault of the files or for an obstacle. -/
theorem ends_write_descends (h : FileTree.Descends kind before tree) (hkind : kind text)
    (hp : p.IsResolved) :
    Ends (write directory p text dryRun) tree (either (fun _ => FileTree.Descends kind before)
      fun f _ => (∃ e, f = .file e) ∨ Obstacle before directory p text dryRun f) := by
  have hrefuse : ∀ {p : Path}, p.IsResolved → refuseFault p = pure () := by
    intro p hp
    rw [refuseFault, hp.fault?_eq_none]
  unfold write
  refine .get_bind (.bind (.lift ?_))
  cases hheld : holdsText tree directory p text with
  | error f => exact holdsText_eq_error h hheld
  | ok held =>
    cases held with
    | true => exact .pure h
    | false =>
      dsimp only [either]
      rw [if_neg Bool.false_ne_true]
      cases dryRun with
      | true => exact .pure h
      | false =>
        rw [if_neg Bool.false_ne_true, hrefuse hp.parent, hrefuse hp]
        refine .bind (.pure (.bind (((ends_makeDirectories directory deepest p.parent tree).and
          (ends_makeDirectories_error directory deepest p.parent tree)).mono
            fun r between hmade => ?_)))
        obtain ⟨⟨hframe, -⟩, herror⟩ := hmade
        cases r with
        | error f =>
          refine herror.imp_right fun hdeep => ?_
          obtain ⟨rfl, hdeep⟩ := hdeep
          exact .directories rfl hdeep
        | ok made =>
          refine .bind (.pure (.bind ((ends_replaceFile_descends (h.of_frame hframe) hkind).mono
            fun r after hreplaced => ?_)))
          cases r with
          | ok => exact .pure hreplaced
          | error f =>
            refine hreplaced.imp_right fun hencode => ?_
            obtain ⟨rfl, hencode⟩ := hencode
            exact .text rfl hencode

end FileJob

end StringCatalog
