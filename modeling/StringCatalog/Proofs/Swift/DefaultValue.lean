import StringCatalog.Proofs.Format.Scan
import StringCatalog.Proofs.Format.Slots
import StringCatalog.Proofs.Swift.LiteralReader

/-! The literal of a default value. It is read as one literal, in which the text stands with its
escaped percent signs as single ones and with references to arguments for its placeholders. -/

namespace StringCatalog

theorem rendered_escape (s : Text) :
    rendered (.char '%' :: .char '%' :: s) = .char '%' :: rendered s := by
  have hpart : ("%%" : Text) ≠ [] := by decide
  exact Text.replace_append hpart "%" s

theorem rendered_cons {c : CodePoint} {s : Text}
    (h : ∀ s', c = .char '%' → s = .char '%' :: s' → False) :
    rendered (c :: s) = c :: rendered s := by
  refine Text.replace_cons (fun hprefix => ?_) "%"
  obtain ⟨hc, s', hs⟩ := List.cons_prefix_cons.mp hprefix
  exact h s' hc.symm hs.symm

namespace Swift

/-! ### The parts of a literal that shows a template -/

theorem isName_nameAt {slot : Int} (h : 0 ≤ slot) : isName (Argument.nameAt slot) = true := by
  obtain ⟨n, rfl⟩ := Int.eq_ofNat_of_zero_le h
  have hdigits : (Text.ofNat n).all (fun c => isSmallLetter c || isAsciiDigit c) = true :=
    List.all_eq_true.mpr fun c hc => by simp [Text.isAsciiDigit_of_mem_ofNat hc]
  have hname : Argument.nameAt n = .char 'a' :: .char 'r' :: .char 'g' :: Text.ofNat n := rfl
  rw [hname, isName, List.all_cons, List.all_cons, hdigits]
  decide

/-- The parts of a literal that shows a template. -/
def partsOf : Template → List Slotted → List LiteralPart
  | [], _ => []
  | .literal text :: rest, slots => (rendered text).map .char ++ partsOf rest slots
  | .placeholder _ :: rest, (_, slot) :: slots =>
    .reference (Argument.nameAt slot) :: partsOf rest slots
  | .placeholder _ :: rest, [] => partsOf rest []

theorem interpolate_eq (delimiter : Text) (t : Template) (slots : List Slotted) :
    interpolate delimiter t slots = (partsOf t slots).flatMap (·.written delimiter) := by
  induction t, slots using interpolate.induct with
  | case1 => rfl
  | case2 text rest slots ih =>
    rw [interpolate, partsOf, ih, List.flatMap_append, List.flatMap_map]
    rfl
  | case3 p rest q slot slots ih =>
    rw [interpolate, partsOf, ih, List.flatMap_cons, LiteralPart.written_reference]
    simp [Text.ofString, Text.ofChars]
  | case4 p rest ih => rw [interpolate, partsOf, ih]

/-- The delimiter is chosen for the characters that it must not meet. -/
theorem verbatim_partsOf (t : Template) (slots : List Slotted) :
    (partsOf t slots).flatMap LiteralPart.verbatim = t.renderedLiterals.flatten := by
  induction t, slots using partsOf.induct with
  | case1 => rfl
  | case2 text rest slots ih =>
    rw [partsOf, List.flatMap_append, ih, List.flatMap_map]
    simp [LiteralPart.verbatim, Template.renderedLiterals]
  | case3 p rest q slot slots ih =>
    rw [partsOf, List.flatMap_cons, ih]
    rfl
  | case4 p rest ih =>
    rw [partsOf, ih]
    rfl

theorem isLegal_partsOf {t : Template} {slots : List Slotted} (h : ∀ s ∈ slots, 1 ≤ s.2) :
    ∀ part ∈ partsOf t slots, part.IsLegal := by
  induction t, slots using partsOf.induct with
  | case1 => simp [partsOf]
  | case2 text rest slots ih =>
    intro part hpart
    rcases List.mem_append.mp hpart with htext | hrest
    · obtain ⟨c, -, rfl⟩ := List.mem_map.mp htext
      trivial
    · exact ih h part hrest
  | case3 p rest q slot slots ih =>
    intro part hpart
    rcases List.mem_cons.mp hpart with rfl | hrest
    · have := h (q, slot) List.mem_cons_self
      exact isName_nameAt (by omega)
    · exact ih (fun s hs => h s (List.mem_cons_of_mem _ hs)) part hrest
  | case4 p rest ih => exact ih h

theorem filterMap_name?_partsOf {t : Template} {slots : List Slotted}
    (h : slots.map (·.1) = t.placeholders) :
    (partsOf t slots).filterMap LiteralPart.name? = slots.map fun s => Argument.nameAt s.2 := by
  induction t, slots using partsOf.induct with
  | case1 slots =>
    rw [List.map_eq_nil_iff.mp h]
    rfl
  | case2 text rest slots ih =>
    have htext : ((rendered text).map LiteralPart.char).filterMap LiteralPart.name? = [] := by
      simp [List.filterMap_eq_nil_iff, LiteralPart.name?]
    rw [partsOf, List.filterMap_append, htext, ih h]
    rfl
  | case3 p rest q slot slots ih =>
    rw [partsOf, List.map_cons, ← ih (List.cons.inj h).2]
    rfl
  | case4 p rest ih => contradiction

/-- The literal of a template exists if its slots do not collide. -/
theorem exists_defaultValueLiteral {t : Template} {key : Text} {slotted : List Slotted}
    (hslots : t.slots key = .ok slotted) (minimum : Text) :
    ∃ literal, defaultValueLiteral t minimum = .ok literal := by
  rw [defaultValueLiteral, Template.slots_congr hslots]
  exact ⟨_, rfl⟩

/-- The literal of a template with positive slots is read back as the parts that show the
template. -/
theorem readLiteral_partsOf {t : Template} {key : Text} {slotted : List Slotted}
    (hslots : t.slots key = .ok slotted) (hpos : ∀ s ∈ slotted, 1 ≤ s.2) (n : Nat) :
    ∃ literal, defaultValueLiteral t (signs n) = .ok literal ∧
      readLiteral literal = some (partsOf t slotted, []) := by
  obtain ⟨m, hm, -, hunbroken, -⟩ := rawDelimiter_signs t.renderedLiterals.flatten n
  rw [← verbatim_partsOf t slotted] at hunbroken
  refine ⟨_, ?_, readLiteral_written (isLegal_partsOf hpos) hunbroken []⟩
  simp only [defaultValueLiteral, hm, Template.slots_congr hslots, interpolate_eq]
  simp [bind, Except.bind, Text.ofString, Text.ofChars]

/-! ### The parts as the text shows them -/

/-- What a text shows: one percent sign for each escape, the argument in its slot for each
specifier, and every other character as it is. -/
def shown : List Token → List Slotted → List LiteralPart
  | [], _ => []
  | .escape :: ts, slots => .char '%' :: shown ts slots
  | .char c :: ts, slots => .char c :: shown ts slots
  | .specifier _ :: ts, (_, slot) :: slots => .reference (Argument.nameAt slot) :: shown ts slots
  | .specifier _ :: ts, [] => .reference [] :: shown ts []

theorem partsOf_prepend_escape (t : Template) (slots : List Slotted) :
    partsOf (t.prepend Token.escape.text) slots = .char '%' :: partsOf t slots := by
  have hescape : ∀ s, rendered (Token.escape.text ++ s) = .char '%' :: rendered s := rendered_escape
  cases t with
  | nil => rfl
  | cons segment rest =>
    cases segment with
    | literal text => simp [Template.prepend, partsOf, hescape]
    | placeholder p => rfl

theorem partsOf_prepend_char {c : CodePoint} {t : Template}
    (h : ∀ s, c = .char '%' → t.text = .char '%' :: s → False) (slots : List Slotted) :
    partsOf (t.prepend (Token.char c).text) slots = .char c :: partsOf t slots := by
  have hsingle : rendered [c] = [c] := rendered_cons (by simp)
  cases t with
  | nil => simp [Template.prepend, Token.text, partsOf, hsingle]
  | cons segment rest =>
    cases segment with
    | placeholder p => simp [Template.prepend, Token.text, partsOf, hsingle]
    | literal text =>
      have hcons : rendered (c :: text) = c :: rendered text := rendered_cons fun s hc hs =>
        h (s ++ Template.text rest) hc (by simp [Template.text, Segment.text, hs])
      simp [Template.prepend, Token.text, partsOf, hcons]

/-- The parts that show the template of a text are what the text shows. -/
theorem partsOf_ofTokens {s : Text} {slots : List Slotted}
    (h : slots.map (·.1) = (Template.ofTokens (Token.ofText s)).placeholders) :
    partsOf (Template.ofTokens (Token.ofText s)) slots = shown (Token.ofText s) slots := by
  induction s using Token.ofText.induct generalizing slots with
  | case1 => simp [Template.ofTokens, partsOf, shown]
  | case2 s ih =>
    rw [Token.ofText_escape, Template.ofTokens_escape] at h ⊢
    rw [Template.placeholders_prepend] at h
    rw [partsOf_prepend_escape, ih h, shown]
  | case3 c s hescape found rest hread ih =>
    rw [Token.ofText_specifier hread, Template.ofTokens] at h ⊢
    cases slots with
    | nil => contradiction
    | cons slotted slots =>
      rw [partsOf, shown, ih (List.cons.inj h).2]
  | case4 c s hescape hread ih =>
    have htext : (Template.ofTokens (Token.ofText s)).text = s := by
      rw [Template.text_ofTokens, Token.flatMap_text_ofText]
    rw [Token.ofText_char hescape hread, Template.ofTokens_char] at h ⊢
    rw [Template.placeholders_prepend] at h
    rw [partsOf_prepend_char (by rwa [htext]), ih h, shown]

/-- The literal of a scanned text whose slots do not collide. With any run of number signs asked for
as its delimiter, it is read without an illegal escape and up to its last character, and it stands
for what the text shows when its markers are expanded. -/
theorem readLiteral_defaultValueLiteral {text key : Text} {subs : SubstitutionMap} {t : Template}
    {slotted : List Slotted} (hscan : Template.scan text subs = .ok t)
    (hslots : t.slots key = .ok slotted) (n : Nat) :
    ∃ expanded literal, subs.expand text = .ok expanded ∧ slotted.map (·.1) = t.placeholders ∧
      defaultValueLiteral t (signs n) = .ok literal ∧
        readLiteral literal = some (shown (Token.ofText expanded) slotted, []) := by
  obtain ⟨expanded, hexpand, rfl⟩ := Template.scan_eq_ok hscan
  have hpos := Template.slots_pos hslots fun p hp => Template.position_pos hp
  have hplaceholders := Template.map_fst_slots hslots
  obtain ⟨literal, hliteral, hread⟩ := readLiteral_partsOf hslots hpos n
  rw [partsOf_ofTokens hplaceholders] at hread
  exact ⟨expanded, literal, hexpand, hplaceholders, hliteral, hread⟩

theorem readLiteral_defaultValueLiteral_items : ∃ t slotted,
    Template.scan "%#@n@: 100%% of \"## %@" [("n", "%d items")] = .ok t ∧
    t.slots [] = .ok slotted ∧
    defaultValueLiteral t (signs 1) =
      .ok "###\"\\###(arg1) items: 100% of \"## \\###(arg2)\"###" ∧
    readLiteral "###\"\\###(arg1) items: 100% of \"## \\###(arg2)\"###" =
      some (.reference "arg1" :: ((" items: 100% of \"## " : Text).map .char ++
        [.reference "arg2"]), []) := by
  have hscan : Template.scan "%#@n@: 100%% of \"## %@" [("n", "%d items")] =
      .ok [.placeholder ⟨.int, "%d", none⟩, .literal " items: 100%% of \"## ",
        .placeholder ⟨.object, "%@", none⟩] := by decide +kernel
  have hslots : Template.slots [.placeholder ⟨.int, "%d", none⟩,
      .literal " items: 100%% of \"## ", .placeholder ⟨.object, "%@", none⟩] [] =
      .ok [(⟨.int, "%d", none⟩, 1), (⟨.object, "%@", none⟩, 2)] := rfl
  have hwritten : defaultValueLiteral [.placeholder ⟨.int, "%d", none⟩,
      .literal " items: 100%% of \"## ", .placeholder ⟨.object, "%@", none⟩] (signs 1) =
      .ok "###\"\\###(arg1) items: 100% of \"## \\###(arg2)\"###" := by
    decide +kernel
  have hexpanded : SubstitutionMap.expand [("n", "%d items")] "%#@n@: 100%% of \"## %@" =
      .ok "%d items: 100%% of \"## %@" := by
    decide +kernel
  obtain ⟨expanded, literal, hexpand, -, hliteral, hread⟩ :=
    readLiteral_defaultValueLiteral hscan hslots 1
  obtain rfl := Except.ok.inj (hexpand.symm.trans hexpanded)
  obtain rfl := Except.ok.inj (hliteral.symm.trans hwritten)
  refine ⟨_, _, hscan, hslots, hwritten, hread.trans ?_⟩
  decide +kernel

end Swift

end StringCatalog
