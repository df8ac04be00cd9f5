import StringCatalog.Proofs.Config

/-! The type name of a configuration. It is words between dots, of which only the first one is sure
to be a name: the others may be empty or begin with a digit. -/

namespace StringCatalog

namespace Config

/-- A letter, a digit or an underscore. -/
def isWordPart (c : CodePoint) : Bool := isNameStart c || isAsciiDigit c

/-- A word that may be the name of a type: no digit comes first. -/
def IsWord (t : Text) : Prop :=
  ∃ c rest, t = c :: rest ∧ isNameStart c = true ∧ ∀ d ∈ rest, isWordPart d = true

theorem isWord_iff {t : Text} (h : ∀ c ∈ t, isWordPart c = true) :
    IsWord t ↔ ∃ c rest, t = c :: rest ∧ isAsciiDigit c = false := by
  constructor
  · rintro ⟨c, rest, rfl, hc, -⟩
    refine ⟨c, rest, rfl, Bool.eq_false_iff.mpr fun hdigit => ?_⟩
    simp only [isNameStart, isAsciiDigit, Bool.or_eq_true, Bool.and_eq_true, decide_eq_true_eq,
      beq_iff_eq, Nat.ble_eq] at hc hdigit
    omega
  · rintro ⟨c, rest, rfl, hdigit⟩
    have hc := h c List.mem_cons_self
    rw [isWordPart, hdigit, Bool.or_false] at hc
    exact ⟨c, rest, rfl, hc, fun d hd => h d (List.mem_cons_of_mem c hd)⟩

theorem isNamePart_iff {c : CodePoint} :
    isNamePart c = true ↔ isWordPart c = true ∨ c = .char '.' := by
  simp [isNamePart, isWordPart]

theorem ne_dot_of_isWordPart {c : CodePoint} (h : isWordPart c = true) : c ≠ .char '.' := by
  rintro rfl
  contradiction

/-- Type names are words between dots, of which the first one begins with no digit. -/
theorem isTypeName_iff {name : Text} : isTypeName name = true ↔
    ∃ first later, Text.splitAt '.' name = first :: later ∧ IsWord first ∧
      ∀ part ∈ later, ∀ c ∈ part, isWordPart c = true := by
  constructor
  · intro h
    cases name with
    | nil => contradiction
    | cons c rest =>
      obtain ⟨hc, hrest⟩ := (Bool.and_eq_true _ _).mp h
      obtain ⟨part, later, hsplit⟩ := List.exists_cons_of_ne_nil
        (Text.splitWhere_ne_nil (· == .char '.') rest)
      -- what is not a dot in the parts of the rest is of a word
      have hword : ∀ part' ∈ part :: later, ∀ d ∈ part', isWordPart d = true := by
        intro part' hpart' d hd
        obtain ⟨hmem, hdot⟩ := Text.mem_of_mem_splitWhere (hsplit ▸ hpart') hd
        refine (isNamePart_iff.mp (List.all_eq_true.mp hrest d hmem)).resolve_right fun heq => ?_
        simp [heq] at hdot
      have hdot : ¬(c == .char '.') = true := by
        simpa using ne_dot_of_isWordPart (by simp [isWordPart, hc])
      have hwhole : Text.splitAt '.' (c :: rest) = (c :: part) :: later := by
        rw [Text.splitAt, Text.splitWhere, if_neg hdot, hsplit]
      exact ⟨c :: part, later, hwhole, ⟨c, part, rfl, hc, hword part List.mem_cons_self⟩,
        fun part' hpart' => hword part' (List.mem_cons_of_mem part hpart')⟩
  · rintro ⟨first, later, hsplit, ⟨c, rest, rfl, hc, hrest⟩, hlater⟩
    have hname := Text.join_splitAt '.' name
    rw [hsplit, Text.join_cons, List.cons_append] at hname
    rw [← hname, isTypeName, hc, Bool.true_and, List.all_eq_true]
    intro d hd
    rw [isNamePart_iff]
    rcases List.mem_append.mp hd with hfirst | hothers
    · exact .inl (hrest d hfirst)
    · obtain ⟨part, hpart, hd⟩ := List.mem_flatMap.mp hothers
      rcases List.mem_append.mp hd with hdot | hd
      · exact .inr (List.mem_singleton.mp hdot)
      · exact .inl (hlater part hpart d hd)

theorem isBlank_of_isNamePart {c : CodePoint} (h : isNamePart c = true) : isBlank c = false := by
  have hrange : 46 ≤ c.toNat ∧ c.toNat ≤ 122 := by
    rcases isNamePart_iff.mp h with hword | rfl
    · simp only [isWordPart, isNameStart, isAsciiDigit, Bool.or_eq_true, Bool.and_eq_true,
        decide_eq_true_eq, beq_iff_eq, Nat.ble_eq] at hword
      omega
    · decide
  simp only [isBlank, Bool.or_eq_false_iff, Bool.and_eq_false_iff, decide_eq_false_iff_not,
    beq_eq_false_iff_ne]
  omega

/-- A type name is read as it is written. -/
theorem textOr_of_isTypeName {name : Text} (h : isTypeName name = true) (other : Text) :
    textOr other (.text name) = .ok name := by
  cases name with
  | nil => contradiction
  | cons c rest =>
    obtain ⟨hc, hrest⟩ := (Bool.and_eq_true _ _).mp h
    have hparts : ∀ d ∈ c :: rest, isNamePart d = true := by
      rintro d (_ | ⟨_, hd⟩)
      · simp [isNamePart, hc]
      · exact List.all_eq_true.mp hrest d hd
    have htrim : Text.trim (c :: rest) = c :: rest :=
      Text.trimBy_self fun d hd => isBlank_of_isNamePart (hparts d hd)
    simp only [textOr, Value.isWritable, Value.display, htrim, if_pos]

/-- The members of a configuration that has nothing but its two paths and a type name. -/
def membersNamed (name : Text) : Members :=
  [(.text "input", .text "L.xcstrings"), (.text "output", .text "L.swift"),
    (.text "type_name", .text name)]

/-- Every type name is that of a configuration. -/
theorem exists_ofMembers_membersNamed {name : Text} (h : isTypeName name = true) :
    ∃ config, ofMembers (fun _ => none) ⟨"/", []⟩ (membersNamed name) = .ok config ∧
      config.typeName = name := by
  have hname : typeNameOf (membersNamed name) = .ok name := by
    have hfield : field "type_name" (membersNamed name) = .text name := rfl
    rw [typeNameOf, hfield, textOr_of_isTypeName h]
    exact if_pos h
  have hinput : resolvePath (fun _ => none) ⟨"/", []⟩ "L.xcstrings" =
      .ok ⟨"/", ["L.xcstrings"]⟩ := by decide +kernel
  have houtput : resolvePath (fun _ => none) ⟨"/", []⟩ "L.swift" = .ok ⟨"/", ["L.swift"]⟩ := by
    decide +kernel
  refine ⟨⟨⟨"/", []⟩, ⟨⟨"/", ["L.xcstrings"]⟩, ⟨"/", ["L.swift"]⟩⟩, none, name, .default, []⟩, ?_,
    rfl⟩
  simp only [ofMembers, Sequence.bind_eq_ok_iff]
  exact ⟨"L.xcstrings", rfl, "L.swift", rfl, none, rfl, name, hname, .default, rfl, [], rfl,
    _, hinput, _, houtput, rfl⟩

/-- The type names of configurations are words between dots, of which only the first is sure to be
the name of a type. The others are so as well if none of them is empty or begins with a digit. -/
theorem typeName_iff (name : Text) :
    (∃ homeOf root members config, ofMembers homeOf root members = .ok config ∧
        config.typeName = name) ↔
      ∃ first later, Text.splitAt '.' name = first :: later ∧ IsWord first ∧
        (∀ part ∈ later, ∀ c ∈ part, isWordPart c = true) ∧
        ((∀ part ∈ first :: later, IsWord part) ↔
          ∀ part ∈ later, ∃ c rest, part = c :: rest ∧ isAsciiDigit c = false) := by
  constructor
  · rintro ⟨homeOf, root, members, config, hconfig, rfl⟩
    obtain ⟨first, later, hsplit, hfirst, hlater⟩ :=
      isTypeName_iff.mp (isTypeName_ofMembers hconfig)
    refine ⟨first, later, hsplit, hfirst, hlater, ?_⟩
    rw [List.forall_mem_cons, and_iff_right hfirst]
    exact forall₂_congr fun part hpart => isWord_iff (hlater part hpart)
  · rintro ⟨first, later, hsplit, hfirst, hlater, -⟩
    obtain ⟨config, hconfig, hname⟩ :=
      exists_ofMembers_membersNamed (isTypeName_iff.mpr ⟨first, later, hsplit, hfirst, hlater⟩)
    exact ⟨_, _, _, config, hconfig, hname⟩

/-- Two dots after each other are let through. -/
theorem exists_typeName_no_words :
    ∃ config, ofMembers (fun _ => none) ⟨"/", []⟩ (membersNamed "A..B") = .ok config ∧
      ∃ part ∈ Text.splitAt '.' config.typeName, ¬IsWord part := by
  have htype : isTypeName "A..B" = true := by decide
  obtain ⟨config, hconfig, hname⟩ := exists_ofMembers_membersNamed htype
  refine ⟨config, hconfig, [], ?_, ?_⟩
  · rw [hname]
    decide
  · rintro ⟨c, rest, hempty, -⟩
    contradiction

end Config

end StringCatalog
