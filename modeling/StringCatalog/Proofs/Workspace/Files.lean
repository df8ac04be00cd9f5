import StringCatalog.Proofs.Json.Nesting
import StringCatalog.Proofs.Workspace.FileTree
import StringCatalog.Workspace.Files

/-! What is read from a file depends on its bytes alone. -/

namespace StringCatalog.FileTree

variable {tree tree' : FileTree} {deepest : Nat} {directory : Location} {p : Path} {text : Text}

theorem ofString_of_toString? {s : String} (h : text.toString? = some s) :
    Text.ofString s = text := by
  obtain ⟨chars, hchars, rfl⟩ := Option.map_eq_some_iff.mp h
  rw [Text.ofString, String.toList_ofList, Text.ofChars]
  clear h
  induction text generalizing chars with
  | nil =>
    cases hchars
    rfl
  | cons c text ih =>
    cases c with
    | half index => simp [CodePoint.char?] at hchars
    | char c =>
      simp only [List.mapM_cons, CodePoint.char?, Option.bind_eq_bind, Option.bind_some,
        Option.bind_eq_some_iff] at hchars
      obtain ⟨rest, hrest, h⟩ := hchars
      cases h
      rw [List.map_cons, ih rest hrest]

/-- A text is read back from its bytes. -/
theorem decode?_of_encode? {bytes : ByteArray} (h : encode? text = some bytes) :
    decode? bytes = some text := by
  obtain ⟨s, hs, rfl⟩ := Option.map_eq_some_iff.mp h
  have hread : String.fromUTF8? s.toUTF8 = some s := dif_pos s.isValidUTF8
  rw [decode?, hread, Option.map_some, ofString_of_toString? hs]

theorem readText_eq_ok_iff : tree.readText directory p = .ok text ↔ ∃ bytes old,
    tree.find? directory p = some (.file bytes) ∧ decode? bytes = some old ∧
      old.unifyNewlines = text := by
  unfold readText find?
  cases tree.locate directory p with
  | error fault => simp
  | ok place =>
    cases hat : tree.at? place with
    | none => simp [hat]
    | some node =>
      cases node with
      | directory => simp [hat]
      | file bytes =>
        cases hdecode : decode? bytes with
        | none => simp [hat, hdecode]
        | some old => simp [hat, hdecode]

theorem pathExists_eq_true_iff : tree.pathExists directory p = .ok true ↔
    p.fault? = none ∧ ∃ node, tree.find? directory p = some node := by
  unfold pathExists find?
  cases p.fault? with
  | some fault => simp
  | none =>
    cases tree.locate directory p with
    | error fault => cases fault <;> simp
    | ok place => simp [Option.isSome_iff_exists]

theorem pathExists_eq_error_iff {e : Failure} : tree.pathExists directory p = .error e ↔
    p.fault? = none ∧ tree.locate directory p = .error .nameTooLong ∧
      e = .file ⟨.nameTooLong, p⟩ := by
  unfold pathExists
  cases p.fault? with
  | some fault => simp
  | none =>
    cases tree.locate directory p with
    | error fault => cases fault <;> simp [eq_comm]
    | ok place => simp

/-- Where a path led to something that was not replaced, it does so still, also in and out of
directories. -/
theorem Frame.pathExists_eq_true {made replaced : List Location} {before after : FileTree}
    (h : Frame made replaced before after) (hplace : p.place directory ∉ replaced)
    (hexists : before.pathExists directory p = .ok true) :
    after.pathExists directory p = .ok true := by
  obtain ⟨hfault, node, hfind⟩ := pathExists_eq_true_iff.mp hexists
  obtain ⟨hlocate, hat⟩ := find?_eq_some_iff.mp hfind
  refine pathExists_eq_true_iff.mpr ⟨hfault, node, find?_eq_some_iff.mpr
    ⟨locate_mono h.directories hlocate, ?_⟩⟩
  rcases h.elsewhere _ hplace with hsame | ⟨hnone, -⟩
  · rw [hsame, hat]
  · rw [hat] at hnone
    contradiction

/-- Where a path leads to nothing, there was nothing. -/
theorem Frame.pathExists_eq_false {made replaced : List Location} {before after : FileTree}
    (h : Frame made replaced before after) (hp : p.IsResolved) (hplace : p.parts ∉ replaced)
    (hexists : after.pathExists directory p = .ok false) :
    before.pathExists directory p = .ok false := by
  rw [← hp.place directory] at hplace
  cases hbefore : before.pathExists directory p with
  | ok found =>
    cases found with
    | true =>
      rw [h.pathExists_eq_true hplace hbefore] at hexists
      contradiction
    | false => rfl
  | error e =>
    obtain ⟨hfault, hlocate, -⟩ := pathExists_eq_error_iff.mp hbefore
    have hafter := pathExists_eq_error_iff.mpr
      ⟨hfault, locate_nameTooLong_mono h.directories hlocate, rfl⟩
    rw [hafter] at hexists
    contradiction

/-- A file is read the same way in every tree that has it. -/
theorem readText_congr (hfile : ∀ bytes, tree.find? directory p = some (.file bytes) →
      tree'.find? directory p = some (.file bytes))
    (h : tree.readText directory p = .ok text) : tree'.readText directory p = .ok text := by
  obtain ⟨bytes, old, hfind, hdecode, hold⟩ := readText_eq_ok_iff.mp h
  exact readText_eq_ok_iff.mpr ⟨bytes, old, hfile bytes hfind, hdecode, hold⟩

theorem exists_readText_of_readJson {value : Json}
    (h : tree.readJson deepest directory p = .ok value) :
    ∃ text, tree.readText directory p = .ok text := by
  unfold readJson at h
  split at h
  · contradiction
  · contradiction
  · contradiction
  · exact ⟨_, by assumption⟩

theorem exists_of_readJson_eq_ok {value : Json}
    (h : tree.readJson deepest directory p = .ok value) :
    ∃ bytes text, tree.find? directory p = some (.file bytes) ∧ decode? bytes = some text ∧
      Json.ofText deepest text.unifyNewlines = .ok value := by
  obtain ⟨_, htext⟩ := exists_readText_of_readJson h
  obtain ⟨bytes, text, hfind, hbytes, rfl⟩ := readText_eq_ok_iff.mp htext
  refine ⟨bytes, text, hfind, hbytes, ?_⟩
  rw [readJson, htext] at h
  dsimp only at h
  split at h
  · rename_i hread
    rw [hread, Except.ok.inj h]
  all_goals contradiction

/-- A catalog is read the same way in every tree that has its file. -/
theorem readCatalog_congr (hfile : ∀ bytes, tree.find? directory p = some (.file bytes) →
      tree'.find? directory p = some (.file bytes))
    {c : Catalog} (h : tree.readCatalog deepest directory p = .ok c) :
    tree'.readCatalog deepest directory p = .ok c := by
  obtain ⟨found, hexists, h⟩ := Sequence.bind_eq_ok_iff.mp h
  cases found with
  | false => contradiction
  | true =>
    obtain ⟨value, hjson, hcatalog⟩ := Sequence.bind_eq_ok_iff.mp h
    obtain ⟨text, htext⟩ := exists_readText_of_readJson hjson
    have htext' := readText_congr hfile htext
    have hjson' : tree'.readJson deepest directory p = .ok value := by
      rw [readJson, htext']
      rwa [readJson, htext] at hjson
    obtain ⟨bytes, _, hfind, -⟩ := readText_eq_ok_iff.mp htext
    have hexists' : tree'.pathExists directory p = .ok true :=
      pathExists_eq_true_iff.mpr
        ⟨(pathExists_eq_true_iff.mp hexists).1, _, hfile bytes hfind⟩
    exact Sequence.bind_eq_ok_iff.mpr ⟨true, hexists',
      Sequence.bind_eq_ok_iff.mpr ⟨value, hjson', hcatalog⟩⟩

theorem readJson_of_le {more : Nat} (h : deepest ≤ more) (tree : FileTree) (directory : Location)
    (p : Path) : tree.readJson deepest directory p = .error .tooDeep ∨
      tree.readJson deepest directory p = tree.readJson more directory p := by
  unfold readJson
  split
  · exact .inr rfl
  · exact .inr rfl
  · exact .inr rfl
  · rename_i text _
    rcases Json.isCramped_ofText h text with hdeep | hsame
    · rw [hdeep]
      exact .inl rfl
    · rw [hsame]
      exact .inr rfl

/-- A catalog is read the same way where more lists and objects may be nested, unless it is nested
too deeply for the first reading. -/
theorem readCatalog_of_le {more : Nat} (h : deepest ≤ more) (tree : FileTree)
    (directory : Location) (p : Path) : tree.readCatalog deepest directory p = .error .tooDeep ∨
      tree.readCatalog deepest directory p = tree.readCatalog more directory p := by
  unfold readCatalog
  cases tree.pathExists directory p with
  | error e => exact .inr rfl
  | ok found =>
    cases found with
    | false => exact .inr rfl
    | true =>
      rcases readJson_of_le h tree directory p with hdeep | hsame
      · exact .inl (Sequence.bind_eq_error_iff.mpr
          (.inr ⟨true, rfl, Sequence.bind_eq_error_iff.mpr (.inl hdeep)⟩))
      · rw [hsame]
        exact .inr rfl

/-- A configuration is read the same way in every tree that has its file. -/
theorem readMembers_congr {env : Environment}
    (hfile : ∀ bytes, tree.find? env.place p = some (.file bytes) →
      tree'.find? env.place p = some (.file bytes))
    {members : List (Value × Value)} (h : tree.readMembers env p = .ok members) :
    tree'.readMembers env p = .ok members := by
  obtain ⟨found, hexists, h⟩ := Sequence.bind_eq_ok_iff.mp h
  cases found with
  | false => contradiction
  | true =>
    obtain ⟨text, htext, h⟩ := Sequence.bind_eq_ok_iff.mp h
    obtain ⟨bytes, _, hfind, -⟩ := readText_eq_ok_iff.mp htext
    have hexists' : tree'.pathExists env.place p = .ok true :=
      pathExists_eq_true_iff.mpr ⟨(pathExists_eq_true_iff.mp hexists).1, _, hfile bytes hfind⟩
    exact Sequence.bind_eq_ok_iff.mpr ⟨true, hexists',
      Sequence.bind_eq_ok_iff.mpr ⟨text, readText_congr hfile htext, h⟩⟩

theorem readConfig_congr {env : Environment} {root : Option Path} {config : Config}
    (hfile : ∀ q, Environment.resolve env.directory p = .ok q → ∀ bytes,
      tree.find? env.place q = some (.file bytes) → tree'.find? env.place q = some (.file bytes))
    (h : tree.readConfig env p root = .ok config) : tree'.readConfig env p root = .ok config := by
  obtain ⟨q, hq, h⟩ := Sequence.bind_eq_ok_iff.mp h
  obtain ⟨root', hroot, h⟩ := Sequence.bind_eq_ok_iff.mp h
  obtain ⟨members, hmembers, h⟩ := Sequence.bind_eq_ok_iff.mp h
  exact Sequence.bind_eq_ok_iff.mpr ⟨q, hq, Sequence.bind_eq_ok_iff.mpr ⟨root', hroot,
    Sequence.bind_eq_ok_iff.mpr ⟨members, readMembers_congr (hfile q hq) hmembers, h⟩⟩⟩

end StringCatalog.FileTree
