import StringCatalog.Proofs.Format.Occurrence
import StringCatalog.Proofs.Format.Positional
import StringCatalog.Proofs.Format.Slots

/-! Placeholders without a number and with it. A text in which every placeholder is given the number
of its slot is scanned into the same literals and placeholders, and the arguments stay the same. -/

namespace StringCatalog

namespace Text

theorem isNumeral_ofNat {n : Nat} (h : 0 < n) : (ofNat n).IsNumeral :=
  ⟨fun _ => isAsciiDigit_of_mem_ofNat, exists_nonzero_of_pos h⟩

/-- The texts are the same up to a percent sign in both, or to their ends. -/
inductive SameAhead : Text → Text → Prop
  | nil : SameAhead [] []
  | percent (s t : Text) : SameAhead (.char '%' :: s) (.char '%' :: t)
  | cons (c : CodePoint) {s t : Text} (h : SameAhead s t) : SameAhead (c :: s) (c :: t)

theorem SameAhead.symm {s t : Text} (h : SameAhead s t) : SameAhead t s := by
  induction h with
  | nil => exact .nil
  | percent s t => exact .percent t s
  | cons c _ ih => exact .cons c ih

theorem SameAhead.exists_append {s t : Text} (h : SameAhead s t) {part rest : Text}
    (hs : s = part ++ rest) (hpart : CodePoint.char '%' ∉ part) : ∃ rest', t = part ++ rest' := by
  induction h generalizing part with
  | nil =>
    have hnil := (List.append_eq_nil_iff.mp hs.symm).1
    exact ⟨[], by simp [hnil]⟩
  | percent s t =>
    cases part with
    | nil => exact ⟨_, rfl⟩
    | cons c part =>
      have hc := (List.cons.inj hs).1
      exact absurd (hc ▸ List.mem_cons_self) hpart
  | @cons c s t _ ih =>
    cases part with
    | nil => exact ⟨_, rfl⟩
    | cons d part =>
      obtain ⟨rfl, hrest⟩ := List.cons.inj hs
      obtain ⟨rest', rfl⟩ := ih hrest fun hmem => hpart (List.mem_cons_of_mem _ hmem)
      exact ⟨rest', rfl⟩

end Text

namespace Specifier

/-- What is read of a text is read behind it alone, whatever stands there. -/
theorem read?_text_append {s rest : Text} {found : Specifier} (h : read? s = some (found, rest))
    (more : Text) : read? (found.text ++ more) = some (found, more) := by
  obtain ⟨hs, hwf⟩ := read?_eq_some h
  obtain ⟨other, hother⟩ := hwf.exists_read? []
  have hextend := read?_extend hother rest
  rw [List.append_nil, ← hs, h] at hextend
  cases hextend
  have hmore := read?_extend hother more
  rwa [List.append_nil] at hmore

/-- Reading looks no further than to the next percent sign. -/
theorem read?_of_sameAhead {s t rest : Text} {found : Specifier} (h : s.SameAhead t)
    (hread : read? (.char '%' :: s) = some (found, rest)) :
    ∃ rest', read? (.char '%' :: t) = some (found, rest') := by
  obtain ⟨hs, hwf⟩ := read?_eq_some hread
  rw [text_eq_cons_body, List.cons_append] at hs
  obtain ⟨rest', rfl⟩ := h.exists_append (List.cons.inj hs).2 hwf.percent_notMem
  exact ⟨rest', read?_text_append hread rest'⟩

def withNumeral (s : Specifier) (digits : Text) : Specifier := { s with numeral := some digits }

theorem text_withNumeral {s : Specifier} (h : s.numeral = none) (digits : Text) :
    (s.withNumeral digits).text = .char '%' :: (digits ++ Text.ofString "$" ++ s.text.drop 1) := by
  rw [text_eq_cons_body, body_eq, text_eq_cons_body, body_eq, h]
  rfl

theorem WellFormed.withNumeral {s : Specifier} (h : s.WellFormed) {digits : Text}
    (hdigits : digits.IsNumeral) : (s.withNumeral digits).WellFormed where
  digits := by
    rintro _ ⟨⟩
    exact hdigits.digits
  nonzero := by
    rintro _ ⟨⟩
    exact hdigits.nonzero
  flag := h.flag
  width := h.width
  precision := h.precision
  conversion := h.conversion

/-- What stands behind the position is read by itself. -/
theorem read?_text_congr {s t : Specifier} (hs : s.WellFormed) (ht : t.WellFormed)
    (hafter : t.afterPosition = s.afterPosition) (more : Text) :
    read? (t.text ++ more) = (read? (s.text ++ more)).map fun found =>
      ({ found.1 with numeral := t.numeral }, found.2) := by
  rw [text_eq_cons_body, List.cons_append, read?_percent, ht.readPosition_body, hafter,
    text_eq_cons_body, List.cons_append, read?_percent, hs.readPosition_body, Option.map_map]
  rfl

theorem read?_withNumeral {s rest : Text} {found : Specifier} (h : read? s = some (found, rest))
    {digits : Text} (hdigits : digits.IsNumeral) (more : Text) :
    read? ((found.withNumeral digits).text ++ more) = some (found.withNumeral digits, more) := by
  have hwf := (read?_eq_some h).2
  rw [read?_text_congr hwf (hwf.withNumeral hdigits) rfl, read?_text_append h]
  rfl

end Specifier

theorem Piece.mem_specifiers_cons {c : CodePoint} {s : Text} {found : Specifier} :
    found ∈ specifiers (split (c :: s)) ↔
      (∃ rest, Specifier.read? (c :: s) = some (found, rest)) ∨ found ∈ specifiers (split s) := by
  rw [specifiers_split, specifiers_split, List.tails_cons, List.filterMap_cons]
  cases hread : Specifier.read? (c :: s) with
  | none => simp
  | some pair =>
    obtain ⟨first, rest⟩ := pair
    simp [eq_comm]

namespace Token

/-- The tokens with a number for each specifier that has none, counted from the given one. -/
def numberFrom : Nat → List Token → List Token
  | _, [] => []
  | n, .specifier s :: rest =>
    match s.numeral with
    | some _ => .specifier s :: numberFrom n rest
    | none => .specifier (s.withNumeral (Text.ofNat n)) :: numberFrom (n + 1) rest
  | n, token :: rest => token :: numberFrom n rest

theorem numberFrom_some {s : Specifier} {digits : Text} (h : s.numeral = some digits) (n : Nat)
    (rest : List Token) :
    numberFrom n (.specifier s :: rest) = .specifier s :: numberFrom n rest := by
  rw [numberFrom, h]

theorem numberFrom_none {s : Specifier} (h : s.numeral = none) (n : Nat) (rest : List Token) :
    numberFrom n (.specifier s :: rest) =
      .specifier (s.withNumeral (Text.ofNat n)) :: numberFrom (n + 1) rest := by
  rw [numberFrom, h]

/-- The text with a number for each specifier that has none. -/
def numberedText (n : Nat) (s : Text) : Text := (numberFrom n (ofText s)).flatMap text

theorem numberedText_escape (n : Nat) (s : Text) :
    numberedText n (.char '%' :: .char '%' :: s) = .char '%' :: .char '%' :: numberedText n s := by
  rw [numberedText, ofText_escape]
  rfl

theorem numberedText_char {c : CodePoint} {s : Text}
    (hescape : ∀ s', c = .char '%' → s = .char '%' :: s' → False)
    (h : Specifier.read? (c :: s) = none) (n : Nat) :
    numberedText n (c :: s) = c :: numberedText n s := by
  rw [numberedText, ofText_char hescape h]
  rfl

theorem numberedText_some {s rest : Text} {found : Specifier} {digits : Text}
    (h : Specifier.read? s = some (found, rest)) (hdigits : found.numeral = some digits) (n : Nat) :
    numberedText n s = found.text ++ numberedText n rest := by
  rw [numberedText, ofText_specifier h, numberFrom_some hdigits]
  rfl

theorem numberedText_none {s rest : Text} {found : Specifier}
    (h : Specifier.read? s = some (found, rest)) (hnone : found.numeral = none) (n : Nat) :
    numberedText n s =
      (found.withNumeral (Text.ofNat n)).text ++ numberedText (n + 1) rest := by
  rw [numberedText, ofText_specifier h, numberFrom_none hnone]
  rfl

theorem sameAhead_numberedText (n : Nat) (s : Text) : s.SameAhead (numberedText n s) := by
  induction s using ofText.induct generalizing n with
  | case1 => simpa [numberedText, numberFrom] using Text.SameAhead.nil
  | case2 s ih =>
    rw [numberedText_escape]
    exact .percent _ _
  | case3 c s hescape found rest hread ih =>
    obtain rfl := Specifier.eq_percent_of_read?_some hread
    cases hnumeral : found.numeral with
    | some digits =>
      rw [numberedText_some hread hnumeral]
      exact .percent _ _
    | none =>
      rw [numberedText_none hread hnumeral]
      exact .percent _ _
  | case4 c s hescape hread ih =>
    rw [numberedText_char hescape hread]
    exact .cons c (ih n)

/-- The numbers are read where they were put, and everything else as before. -/
theorem ofText_numberedText {n : Nat} (hn : 0 < n) (s : Text) :
    ofText (numberedText n s) = numberFrom n (ofText s) := by
  induction s using ofText.induct generalizing n with
  | case1 => simp [numberedText, numberFrom]
  | case2 s ih =>
    rw [numberedText_escape, ofText_escape, ih hn, ofText_escape]
    rfl
  | case3 c s hescape found rest hread ih =>
    rw [ofText_specifier hread]
    cases hnumeral : found.numeral with
    | some digits =>
      rw [numberedText_some hread hnumeral, numberFrom_some hnumeral,
        ofText_specifier (Specifier.read?_text_append hread _), ih hn]
    | none =>
      have hread' := Specifier.read?_withNumeral hread (Text.isNumeral_ofNat hn)
        (numberedText (n + 1) rest)
      rw [numberedText_none hread hnumeral, numberFrom_none hnumeral, ofText_specifier hread',
        ih (Nat.succ_pos n)]
  | case4 c s hescape hread ih =>
    -- numbers behind the next percent sign do not make a specifier of what was none
    have hahead := sameAhead_numberedText n s
    have hescape' : ∀ s', c = .char '%' → numberedText n s = .char '%' :: s' → False := by
      intro s' hc hs'
      rw [hs'] at hahead
      cases hahead with
      | percent t _ => exact hescape t hc rfl
      | cons _ _ => exact hescape _ hc rfl
    have hread' : Specifier.read? (c :: numberedText n s) = none := by
      by_contra hsome
      obtain ⟨⟨found, rest⟩, hfound⟩ := Option.ne_none_iff_exists'.mp hsome
      obtain rfl := Specifier.eq_percent_of_read?_some hfound
      obtain ⟨rest', hrest'⟩ := Specifier.read?_of_sameAhead hahead.symm hfound
      rw [hread] at hrest'
      contradiction
    rw [numberedText_char hescape hread, ofText_char hescape' hread', ih hn,
      ofText_char hescape hread]
    rfl

/-- Every numeral in the text with numbers is one of the text itself, or a number that was put. -/
theorem numeral_of_mem_numberedText {n : Nat} (hn : 0 < n) {s : Text} {found : Specifier}
    (h : found ∈ Piece.specifiers (Piece.split (numberedText n s))) :
    found ∈ Piece.specifiers (Piece.split s) ∨
      ∃ k < n + s.length, found.numeral = some (Text.ofNat k) := by
  induction s using ofText.induct generalizing n with
  | case1 => simp [numberedText, numberFrom, Piece.split, Piece.splitFrom, Piece.specifiers] at h
  | case2 s ih =>
    rw [numberedText_escape, Piece.mem_specifiers_cons, Piece.mem_specifiers_cons,
      Specifier.read?_percent_percent] at h
    rw [Piece.mem_specifiers_cons, Piece.mem_specifiers_cons]
    rcases h with ⟨rest, hnone⟩ | ⟨rest, hfound⟩ | hmem
    · contradiction
    · -- the specifier in the escape is no token, so it was not numbered
      have hahead := (sameAhead_numberedText n s).symm
      exact .inl (.inr (.inl (Specifier.read?_of_sameAhead hahead hfound)))
    · rcases ih hn hmem with hold | ⟨k, hk, hput⟩
      · exact .inl (.inr (.inr hold))
      · simp only [List.length_cons]
        exact .inr ⟨k, by omega, hput⟩
  | case3 c s hescape first rest hread ih =>
    have hlength := congrArg List.length (Specifier.read?_eq_some hread).1
    simp only [List.length_append, Specifier.text_eq_cons_body, List.length_cons] at hlength
    rw [Piece.split_of_read?_some hread, List.length_cons]
    cases hnumeral : first.numeral with
    | some digits =>
      have hread' := Specifier.read?_text_append hread (numberedText n rest)
      rw [numberedText_some hread hnumeral, Piece.split_of_read?_some hread'] at h
      rcases List.mem_cons.mp h with rfl | hmem
      · exact .inl List.mem_cons_self
      · rcases ih hn hmem with hold | ⟨k, hk, hput⟩
        · exact .inl (List.mem_cons_of_mem _ hold)
        · exact .inr ⟨k, by omega, hput⟩
    | none =>
      have hread' := Specifier.read?_withNumeral hread (Text.isNumeral_ofNat hn)
        (numberedText (n + 1) rest)
      rw [numberedText_none hread hnumeral, Piece.split_of_read?_some hread'] at h
      rcases List.mem_cons.mp h with rfl | hmem
      · exact .inr ⟨n, by omega, rfl⟩
      · rcases ih (Nat.succ_pos n) hmem with hold | ⟨k, hk, hput⟩
        · exact .inl (List.mem_cons_of_mem _ hold)
        · exact .inr ⟨k, by omega, hput⟩
  | case4 c s hescape hread ih =>
    rw [numberedText_char hescape hread, Piece.mem_specifiers_cons] at h
    rw [Piece.mem_specifiers_cons]
    rcases h with ⟨rest, hfound⟩ | hmem
    · obtain rfl := Specifier.eq_percent_of_read?_some hfound
      have hahead := (sameAhead_numberedText n s).symm
      exact .inl (.inl (Specifier.read?_of_sameAhead hahead hfound))
    · rcases ih hn hmem with hold | ⟨k, hk, hput⟩
      · exact .inl (.inr hold)
      · rw [List.length_cons]
        exact .inr ⟨k, by omega, hput⟩

end Token

/-- The placeholder with the slot for its number, in front of everything behind its percent sign. A
number that it has stays. -/
def Placeholder.numbered (p : Placeholder) (slot : Int) : Placeholder :=
  match p.position with
  | some _ => p
  | none => ⟨p.kind, .char '%' :: (Text.ofInt slot ++ "$" ++ p.specifier.drop 1), some slot⟩

theorem Placeholder.kind_numbered (p : Placeholder) (slot : Int) :
    (p.numbered slot).kind = p.kind := by
  unfold Placeholder.numbered
  split <;> rfl

/-- The segments are one literal, or two placeholders of one kind. -/
inductive Segment.SameButNumber : Segment → Segment → Prop
  | literal (text : Text) : SameButNumber (.literal text) (.literal text)
  | placeholder {p q : Placeholder} (kind : q.kind = p.kind) :
      SameButNumber (.placeholder p) (.placeholder q)

namespace Template

/-- The template with a slot for each placeholder in turn, as its number if it has none. -/
def numbered : Template → List Int → Template
  | .placeholder p :: rest, slot :: slots => .placeholder (p.numbered slot) :: numbered rest slots
  | segment :: rest, slots => segment :: numbered rest slots
  | [], _ => []

theorem numbered_placeholder (p : Placeholder) (slot : Int) (rest : Template) (slots : List Int) :
    numbered (.placeholder p :: rest) (slot :: slots) =
      .placeholder (p.numbered slot) :: numbered rest slots := rfl

theorem numbered_literal (text : Text) (rest : Template) (slots : List Int) :
    numbered (.literal text :: rest) slots = .literal text :: numbered rest slots := by
  cases slots <;> rfl

theorem numbered_prepend (part : Text) (t : Template) (slots : List Int) :
    (prepend part t).numbered slots = prepend part (t.numbered slots) := by
  match t, slots with
  | [], _ => exact numbered_literal part [] _
  | .literal x :: t, _ => rw [prepend, numbered_literal, numbered_literal, prepend]
  | .placeholder p :: t, [] => rfl
  | .placeholder p :: t, slot :: slots => rfl

theorem sameButNumber_numbered (t : Template) (slots : List Int) :
    List.Forall₂ Segment.SameButNumber t (t.numbered slots) := by
  induction t generalizing slots with
  | nil => exact .nil
  | cons segment t ih =>
    match segment, slots with
    | .literal text, _ =>
      rw [numbered_literal]
      exact .cons (.literal text) (ih _)
    | .placeholder p, [] => exact .cons (.placeholder rfl) (ih [])
    | .placeholder p, slot :: slots =>
      exact .cons (.placeholder (p.kind_numbered slot)) (ih slots)

theorem placeholderOf_withNumeral {s : Specifier} (h : s.numeral = none) (n : Nat) :
    placeholderOf (s.withNumeral (Text.ofNat n)) = (placeholderOf s).numbered n := by
  have hposition : (s.withNumeral (Text.ofNat n)).position = some n :=
    congrArg some (Text.toNat_ofNat n)
  have hnone : (placeholderOf s).position = none := by
    rw [placeholderOf, Specifier.position, h]
    rfl
  rw [Placeholder.numbered, hnone, placeholderOf, hposition, Specifier.text_withNumeral h]
  rfl

/-- To number the specifiers among the tokens is to number the placeholders by their slots. -/
theorem ofTokens_numberFrom (n : Nat) (tokens : List Token) :
    ofTokens (Token.numberFrom (n + 1) tokens) =
      (ofTokens tokens).numbered ((claims n (ofTokens tokens).placeholders).map (·.2)) := by
  induction tokens generalizing n with
  | nil => rfl
  | cons token tokens ih =>
    cases token with
    | escape =>
      rw [ofTokens_escape, placeholders_prepend, numbered_prepend, ← ih, ← ofTokens_escape]
      rfl
    | char c =>
      rw [ofTokens_char, placeholders_prepend, numbered_prepend, ← ih, ← ofTokens_char]
      rfl
    | specifier s =>
      have hplaceholders : (ofTokens (.specifier s :: tokens)).placeholders =
          placeholderOf s :: (ofTokens tokens).placeholders := rfl
      rw [hplaceholders, ofTokens]
      cases hnumeral : s.numeral with
      | some digits =>
        have hposition : (placeholderOf s).position = some (Int.ofNat (Text.toNat digits)) := by
          rw [placeholderOf, Specifier.position, hnumeral]
          rfl
        rw [Token.numberFrom_some hnumeral, claims_some hposition, List.map_cons,
          numbered_placeholder, ofTokens, ih, Placeholder.numbered, hposition]
      | none =>
        have hposition : (placeholderOf s).position = none := by
          rw [placeholderOf, Specifier.position, hnumeral]
          rfl
        rw [Token.numberFrom_none hnumeral, claims_none hposition, List.map_cons,
          numbered_placeholder, ofTokens, ih, placeholderOf_withNumeral hnumeral]
        rfl

theorem placeholders_numbered (n : Nat) (t : Template) :
    (t.numbered ((claims n t.placeholders).map (·.2))).placeholders =
      (claims n t.placeholders).map fun s => s.1.numbered s.2 := by
  induction t generalizing n with
  | nil => rfl
  | cons segment t ih =>
    cases segment with
    | literal text =>
      rw [numbered_literal]
      exact ih n
    | placeholder p =>
      have hplaceholders : placeholders (.placeholder p :: t) = p :: placeholders t := rfl
      rw [hplaceholders]
      cases hp : p.position with
      | some slot =>
        rw [claims_some hp, List.map_cons, List.map_cons, numbered_placeholder, ← ih]
        rfl
      | none =>
        rw [claims_none hp, List.map_cons, List.map_cons, numbered_placeholder, ← ih]
        rfl

theorem position_numbered {n : Nat} {ps : List Placeholder} {s : Slotted} (h : s ∈ claims n ps) :
    (s.1.numbered s.2).position = some s.2 := by
  unfold Placeholder.numbered
  split
  · rename_i slot hslot
    rw [hslot, slot_of_mem_claims h slot hslot]
  · rfl

variable {text : Text} {t : Template} {key : Text} {slotted : List Slotted}

theorem slots_numbered (h : t.slots key = .ok slotted) (key' : Text) :
    (t.numbered (slotted.map (·.2))).slots key' =
      .ok (slotted.map fun s => (s.1.numbered s.2, s.2)) := by
  obtain rfl := eq_claims_of_slots h
  have hplaceholders := placeholders_numbered 0 t
  rw [slots_of_numbered, hplaceholders, List.map_map]
  · refine congrArg Except.ok (List.map_congr_left fun s hs => ?_)
    simp only [Function.comp_apply, position_numbered hs, Option.getD_some]
  · rw [hplaceholders]
    intro p hp
    obtain ⟨s, hs, rfl⟩ := List.mem_map.mp hp
    rw [position_numbered hs]
    rfl

theorem reconcile_numbered (h : t.slots key = .ok slotted) (key' : Text) :
    Argument.reconcile [t.numbered (slotted.map (·.2))] key' = Argument.reconcile [t] key' := by
  have hnumbered := slots_numbered h key'
  have hslots := slots_congr h key'
  simp only [Argument.reconcile, List.mapM_cons, List.mapM_nil, hnumbered, hslots]
  simp only [bind, Except.bind, pure, Except.pure, List.flatten_cons, List.flatten_nil,
    List.append_nil, List.map_map]
  simp only [Function.comp_def, Placeholder.kind_numbered]

/-- A text whose placeholders have slots, and the same text where every placeholder without a number
has its slot for the number: it is scanned into the same literals in the same places and into
placeholders of the same kinds, each with its slot for the number, and the arguments are the same.
The length of the text is a number whose numeral is not too long, as that of every text that can be
held; then the same is true of the slots by place, of which there are no more than characters. -/
theorem scan_numbered (hlength : (Text.ofNat text.length).length ≤ longestNumeral)
    (hscan : scan text [] = .ok t) (hslots : t.slots key = .ok slotted) :
    t.text = text ∧
    scan (t.numbered (slotted.map (·.2))).text [] = .ok (t.numbered (slotted.map (·.2))) ∧
    List.Forall₂ Segment.SameButNumber t (t.numbered (slotted.map (·.2))) ∧
    (t.numbered (slotted.map (·.2))).placeholders.map (·.position) = slotted.map (some ·.2) ∧
    ∀ key', Argument.reconcile [t.numbered (slotted.map (·.2))] key' =
      Argument.reconcile [t] key' := by
  have hpositions := hasPositions_of_scan_eq_ok hscan
  obtain rfl := Except.ok.inj ((scan_of_hasPositions hpositions).symm.trans hscan)
  have htokens : ofTokens (Token.numberFrom 1 (Token.ofText text)) =
      (ofTokens (Token.ofText text)).numbered (slotted.map (·.2)) := by
    rw [eq_claims_of_slots hslots]
    exact ofTokens_numberFrom 0 _
  have htext : (ofTokens (Token.numberFrom 1 (Token.ofText text))).text =
      Token.numberedText 1 text := text_ofTokens _
  have hnumbered : (Token.numberedText 1 text).HasPositions := by
    refine Text.hasPositions_iff.mpr fun s hs => ?_
    rcases Token.numeral_of_mem_numberedText Nat.one_pos hs with hold | ⟨k, hk, hput⟩
    · exact Text.hasPositions_iff.mp hpositions s hold
    · refine isOverlong_eq_false fun digits hdigits => ?_
      rw [hput] at hdigits
      cases hdigits
      exact Nat.le_trans (Text.length_ofNat_mono (Nat.lt_one_add_iff.mp hk)) hlength
  refine ⟨?_, ?_, sameButNumber_numbered _ _, ?_, reconcile_numbered hslots⟩
  · rw [text_ofTokens, Token.flatMap_text_ofText]
  · rw [← htokens, htext, scan_of_hasPositions hnumbered, Token.ofText_numberedText Nat.one_pos]
  · rw [eq_claims_of_slots hslots, placeholders_numbered, List.map_map]
    exact List.map_congr_left fun s hs => position_numbered hs

theorem scan_numbered_escaped :
    (Text.ofNat ("%%d %@%3$d, %c%" : Text).length).length ≤ longestNumeral ∧
    ∃ t slotted, scan "%%d %@%3$d, %c%" [] = .ok t ∧ t.slots "k" = .ok slotted ∧
      scan "%%d %1$@%3$d, %2$c%" [] = .ok [.literal "%%d ", .placeholder ⟨.object, "%1$@", some 1⟩,
        .placeholder ⟨.int, "%3$d", some 3⟩, .literal ", ", .placeholder ⟨.char, "%2$c", some 2⟩,
        .literal "%"] ∧
      Argument.reconcile [[.literal "%%d ", .placeholder ⟨.object, "%1$@", some 1⟩,
        .placeholder ⟨.int, "%3$d", some 3⟩, .literal ", ", .placeholder ⟨.char, "%2$c", some 2⟩,
        .literal "%"]] "k" = Argument.reconcile [t] "k" := by
  have hlength : (Text.ofNat ("%%d %@%3$d, %c%" : Text).length).length ≤ longestNumeral := by decide
  have hscan : scan "%%d %@%3$d, %c%" [] = .ok [.literal "%%d ",
      .placeholder ⟨.object, "%@", none⟩, .placeholder ⟨.int, "%3$d", some 3⟩, .literal ", ",
      .placeholder ⟨.char, "%c", none⟩, .literal "%"] := by decide +kernel
  have hslots : slots [.literal "%%d ", .placeholder ⟨.object, "%@", none⟩,
      .placeholder ⟨.int, "%3$d", some 3⟩, .literal ", ", .placeholder ⟨.char, "%c", none⟩,
      .literal "%"] "k" = .ok [(⟨.object, "%@", none⟩, 1), (⟨.int, "%3$d", some 3⟩, 3),
        (⟨.char, "%c", none⟩, 2)] := rfl
  obtain ⟨-, hnumbered, -, -, hreconcile⟩ := scan_numbered hlength hscan hslots
  exact ⟨hlength, _, _, hscan, hslots, hnumbered, hreconcile "k"⟩

end Template

end StringCatalog
