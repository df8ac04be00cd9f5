import StringCatalog.Proofs.Sequence
import StringCatalog.Proofs.Swift.DefaultValue
import StringCatalog.Proofs.Text.Lines

/-! Literals of texts. Each character is written on its own, so such a literal is read back as its
text, with a delimiter and without one. One without stands on one line, as the literal of a default
value does. -/

namespace StringCatalog

/-- Replacing a single character goes character by character. -/
theorem Text.replace_singleton (c : CodePoint) (new text : Text) :
    replace [c] new text = text.flatMap fun d => if d = c then new else [d] := by
  induction text with
  | nil => rfl
  | cons d text ih =>
    rw [List.flatMap_cons, ← ih]
    by_cases hd : d = c
    · rw [if_pos hd, hd]
      exact replace_append (List.cons_ne_nil c []) new text
    · have hfree : ¬[c] <+: d :: text := fun h => hd (List.cons_prefix_cons.mp h).1.symm
      rw [if_neg hd, replace_cons hfree]
      rfl

namespace Swift

/-- A character inside a literal without a delimiter. -/
def plainChar (c : CodePoint) : Text :=
  if c = .char '\\' then [.char '\\', .char '\\']
  else if c = .char '"' then [.char '\\', .char '"']
  else escapeChar [] false c

theorem stringLiteral_nil (text : Text) :
    stringLiteral text [] = .char '"' :: (text.flatMap plainChar ++ [.char '"']) := by
  have hchar : ∀ c : CodePoint,
      ((if c = .char '\\' then [CodePoint.char '\\', .char '\\'] else [c]).flatMap fun d =>
        if d = .char '"' then [CodePoint.char '\\', .char '"'] else [d]).flatMap
          (escapeChar [] false) = plainChar c := by
    intro c
    unfold plainChar
    by_cases hbackslash : c = .char '\\'
    · rw [if_pos hbackslash, if_pos hbackslash]
      rfl
    · rw [if_neg hbackslash, if_neg hbackslash, List.flatMap_singleton]
      by_cases hquote : c = .char '"'
      · rw [if_pos hquote, if_pos hquote]
        rfl
      · rw [if_neg hquote, if_neg hquote, List.flatMap_singleton]
  have hbody : escape (Text.replace "\"" "\\\"" (Text.replace "\\" "\\\\" text)) [] false =
      text.flatMap plainChar := by
    have hbackslash : Text.replace "\\" "\\\\" text = text.flatMap fun c =>
        if c = .char '\\' then [CodePoint.char '\\', .char '\\'] else [c] :=
      Text.replace_singleton _ _ text
    have hquote : ∀ s, Text.replace "\"" "\\\"" s = s.flatMap fun c =>
        if c = .char '"' then [CodePoint.char '\\', .char '"'] else [c] :=
      Text.replace_singleton _ _
    rw [escape, hquote, hbackslash, List.flatMap_assoc, List.flatMap_assoc]
    refine congrArg (text.flatMap ·) (funext fun c => ?_)
    rw [← List.flatMap_assoc]
    exact hchar c
  rw [stringLiteral, hbody]
  rfl

/-- A character is read back in front of any text. -/
theorem readBody_plainChar (c : CodePoint) (s : Text) :
    readBody [] (plainChar c ++ s) =
      (readBody [] s).map fun (parts, behind) => (.char c :: parts, behind) := by
  unfold plainChar
  by_cases hbackslash : c = .char '\\'
  · have hescape : readEscape [] (.char '\\' :: s) = some (.char (.char '\\'), s) := rfl
    rw [if_pos hbackslash, hbackslash]
    exact readBody_escape hescape
  · rw [if_neg hbackslash]
    by_cases hquote : c = .char '"'
    · have hescape : readEscape [] (.char '"' :: s) = some (.char (.char '"'), s) := rfl
      rw [if_pos hquote, hquote]
      exact readBody_escape hescape
    · rw [if_neg hquote]
      cases hescape : needsEscaping c false with
      | true =>
        obtain ⟨d, rfl⟩ := exists_char_of_needsEscaping hescape
        have hread := readBody_escape (readEscape_escapeCode [] d s)
        rw [escapeChar, if_pos hescape]
        exact hread
      | false =>
        rw [escapeChar, if_neg (by simp [hescape])]
        exact readBody_char (fun h => absurd h hquote) (fun h => absurd h hbackslash)
          (isLiteralBreak_of_not_needsEscaping hescape)

/-- A literal without a delimiter is read back as its text, whatever follows it. -/
theorem readLiteral_stringLiteral (text behind : Text) :
    readLiteral (stringLiteral text [] ++ behind) = some (text.map .char, behind) := by
  have hbody : ∀ s : Text, readBody [] (s.flatMap plainChar ++ .char '"' :: behind) =
      some (s.map .char, behind) := by
    intro s
    induction s with
    | nil => exact readBody_end [] behind
    | cons c s ih =>
      rw [List.flatMap_cons, List.append_assoc, readBody_plainChar, ih]
      rfl
  rw [stringLiteral_nil, List.cons_append, List.append_assoc]
  exact hbody text

/-! ### Literals with a delimiter -/

theorem stringLiteral_cons (text : Text) (c : CodePoint) (minimum : Text) :
    stringLiteral text (c :: minimum) = rawDelimiter text (c :: minimum) ++ .char '"' ::
      (escape text (rawDelimiter text (c :: minimum)) false ++
        .char '"' :: rawDelimiter text (c :: minimum)) := by
  simp [stringLiteral, Text.ofString, Text.ofChars]

/-- A literal with a delimiter is written character by character with the shortest run of number
signs that the text does not break. -/
theorem stringLiteral_signs_succ (text : Text) (n : Nat) :
    ∃ m, n + 1 ≤ m ∧ breaksDelimiter text (signs m) = false ∧
      stringLiteral text (signs (n + 1)) = signs m ++ .char '"' ::
        ((text.map LiteralPart.char).flatMap (·.written (signs m)) ++ .char '"' :: signs m) := by
  obtain ⟨m, hm, hle, hunbroken, -⟩ := rawDelimiter_signs text (n + 1)
  refine ⟨m, hle, hunbroken, ?_⟩
  rw [signs_succ] at hm ⊢
  rw [stringLiteral_cons, hm, List.flatMap_map]
  rfl

/-- A literal is read back as its text, whatever follows it: neither an escape that is not known nor
an interpolation is met, and the literal ends where it was written to its end. The number signs in
front of it are those that were asked for, or more of them, and there are none where none were asked
for. -/
theorem readLiteral_stringLiteral_signs (text behind : Text) (n : Nat) :
    ∃ m, n ≤ m ∧ (n = 0 → m = 0) ∧
      (stringLiteral text (signs n)).takeWhile (· == .char '#') = signs m ∧
      readLiteral (stringLiteral text (signs n) ++ behind) = some (text.map .char, behind) := by
  cases n with
  | zero =>
    have hplain : stringLiteral text (signs 0) = stringLiteral text [] := rfl
    refine ⟨0, Nat.le_refl 0, fun _ => rfl, ?_, ?_⟩
    · rw [hplain, stringLiteral_nil]
      exact takeWhile_signs 0 _
    · rw [hplain]
      exact readLiteral_stringLiteral text behind
  | succ n =>
    obtain ⟨m, hle, hunbroken, hwritten⟩ := stringLiteral_signs_succ text n
    have hverbatim : (text.map LiteralPart.char).flatMap LiteralPart.verbatim = text := by
      simp [List.flatMap_map, LiteralPart.verbatim]
    have hlegal : ∀ part ∈ text.map LiteralPart.char, part.IsLegal := by
      intro part hpart
      obtain ⟨c, -, rfl⟩ := List.mem_map.mp hpart
      trivial
    refine ⟨m, hle, fun h => absurd h (Nat.succ_ne_zero n), ?_, ?_⟩
    · rw [hwritten, takeWhile_signs]
    · have hread := readLiteral_written hlegal (by rw [hverbatim]; exact hunbroken) behind
      rw [hwritten]
      simpa only [List.append_assoc, List.cons_append] using hread

example : stringLiteral "a\"#\\b\t" (signs 1) = "##\"a\"#\\b\\##t\"##" := by decide +kernel

/-! ### Literals stand on one line -/

theorem isLineBreak_of_not_needsEscaping {c : CodePoint} (h : needsEscaping c false = false) :
    isLineBreak c = false := by
  have hbreak := isLiteralBreak_of_not_needsEscaping h
  rw [needsEscaping, hbreak, Bool.false_or, Bool.and_false, Bool.not_false] at h
  have hprintable : ¬(c.toNat < 0x20 ∨ c.toNat = 0x7F) := by
    intro hcontrol
    simp [hcontrol] at h
  simp only [isLiteralBreak, Bool.or_eq_false_iff, Bool.and_eq_false_iff, decide_eq_false_iff_not,
    beq_eq_false_iff_ne] at hbreak
  simp only [isLineBreak, Bool.or_eq_false_iff, Bool.and_eq_false_iff, decide_eq_false_iff_not,
    beq_eq_false_iff_ne]
  omega

theorem isLine_toDigits (n : Nat) : (Text.ofChars (Nat.toDigits 16 n)).IsLine := by
  have hdigit : ∀ d < 16, isLineBreak (.char (Nat.digitChar d)) = false := by decide
  intro c hc
  obtain ⟨d, hd, rfl⟩ := Text.exists_digitChar_of_mem hc
  exact hdigit d hd

theorem isLine_escapeCode (c : CodePoint) : (escapeCode c).IsLine := by
  have hopen : Text.IsLine "u\x7b" := by decide
  have hclose : Text.IsLine "\x7d" := by decide
  unfold escapeCode
  split_ifs
  · decide
  · decide
  · decide
  · decide
  · rw [Text.hexOfNat_one]
    exact (hopen.append (isLine_toDigits c.toNat)).append hclose

theorem isLine_escapeChar {delimiter : Text} (h : delimiter.IsLine) (c : CodePoint) :
    (escapeChar delimiter false c).IsLine := by
  unfold escapeChar
  split
  · exact (h.append (isLine_escapeCode c)).cons (by decide)
  · rename_i hplain
    exact Text.IsLine.nil.cons (isLineBreak_of_not_needsEscaping (by simpa using hplain))

theorem isLine_stringLiteral (text : Text) : (stringLiteral text []).IsLine := by
  have hquote : Text.IsLine [.char '"'] := by decide
  have hchar : ∀ c ∈ text, (plainChar c).IsLine := by
    intro c _
    unfold plainChar
    split_ifs
    · decide
    · decide
    · exact isLine_escapeChar Text.IsLine.nil c
  rw [stringLiteral_nil]
  exact ((Text.IsLine.flatMap hchar).append hquote).cons (by decide)

theorem isLine_of_isName {name : Text} (h : isName name = true) : name.IsLine := by
  have hsmall : ∀ c, isSmallLetter c = true → isLineBreak c = false := by
    intro c hc
    simp only [isSmallLetter, Bool.and_eq_true, Nat.ble_eq] at hc
    exact isLineBreak_of_printable (by omega) (by omega)
  have hdigit : ∀ c, isAsciiDigit c = true → isLineBreak c = false := by
    intro c hc
    simp only [isAsciiDigit, Bool.and_eq_true, Nat.ble_eq] at hc
    exact isLineBreak_of_printable (by omega) (by omega)
  cases name with
  | nil => contradiction
  | cons c rest =>
    simp only [isName, Bool.and_eq_true, List.all_eq_true, Bool.or_eq_true] at h
    refine Text.IsLine.cons (fun d hd => ?_) (hsmall c h.1)
    rcases h.2 d hd with hd | hd
    · exact hsmall d hd
    · exact hdigit d hd

theorem isLine_written {delimiter : Text} (h : delimiter.IsLine) {part : LiteralPart}
    (hpart : part.IsLegal) : (part.written delimiter).IsLine := by
  cases part with
  | char c => exact isLine_escapeChar h c
  | reference name =>
    have hclose : Text.IsLine [.char ')'] := by decide
    have hname := isLine_of_isName hpart
    rw [LiteralPart.written_reference]
    exact (h.append ((hname.append hclose).cons (by decide))).cons (by decide)

/-- The literal of a default value with positive slots stands on one line. -/
theorem isLine_defaultValueLiteral {t : Template} {slotted : List Slotted} {literal : Text}
    (hslots : t.slots [] = .ok slotted) (hpos : ∀ s ∈ slotted, 1 ≤ s.2) {n : Nat}
    (h : defaultValueLiteral t (signs n) = .ok literal) : literal.IsLine := by
  have hquote : Text.IsLine "\"" := by decide
  obtain ⟨m, hm, -⟩ := rawDelimiter_signs t.renderedLiterals.flatten n
  have hdelimiter : (signs m).IsLine := Text.IsLine.copies m (by decide)
  obtain ⟨slotted', hslots', h⟩ := Sequence.bind_eq_ok_iff.mp h
  obtain rfl := Except.ok.inj (hslots'.symm.trans hslots)
  rw [hm, interpolate_eq] at h
  cases h
  have hinside : Text.IsLine ((partsOf t slotted').flatMap (·.written (signs m))) :=
    Text.IsLine.flatMap fun part hpart =>
      isLine_written hdelimiter (isLegal_partsOf hpos part hpart)
  exact (((hdelimiter.append hquote).append hinside).append hquote).append hdelimiter

end Swift

end StringCatalog
