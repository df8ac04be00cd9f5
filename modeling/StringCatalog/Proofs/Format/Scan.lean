import StringCatalog.Proofs.Format.Token

/-! The scan of a text: it gives the template of the tokens, whose segments make up the text, and no
escaped percent sign begins a placeholder. -/

namespace StringCatalog

/-- The number of percent signs at the end of a text. -/
def Text.trailingPercents (text : Text) : Nat :=
  (text.reverse.takeWhile (· == .char '%')).length

namespace SpecifierMatch

/-- The specifiers that are found from left to right are those that begin at any index. -/
theorem mem_specifiers_iff {text : Text} {s : Specifier} :
    s ∈ Piece.specifiers (Piece.split text) ↔
      ∃ index m, at? text index = some m ∧ m.specifier = s := by
  rw [Piece.specifiers_split, List.mem_filterMap]
  constructor
  · rintro ⟨tail, hmem, hread⟩
    obtain ⟨found, hfound, rfl⟩ := Option.map_eq_some_iff.mp hread
    have htail := List.suffix_iff_eq_drop.mp ((List.mem_tails _ _).mp hmem)
    refine ⟨(text.length - tail.length : Nat), ⟨found.1, text.length - tail.length⟩, ?_, rfl⟩
    rw [at?, Int.toNat_natCast, ← htail, hfound]
    rfl
  · rintro ⟨index, m, hat, rfl⟩
    obtain ⟨found, hfound, rfl⟩ := Option.map_eq_some_iff.mp hat
    exact ⟨text.drop index.toNat, (List.mem_tails _ _).mpr (List.drop_suffix _ _), by simp [hfound]⟩

/-- The numeral of a specifier is no longer than the text that it is in. -/
theorem length_numeral_le {text digits : Text} {index : Int} {m : SpecifierMatch}
    (h : at? text index = some m) (hdigits : m.specifier.numeral = some digits) :
    digits.length ≤ text.length := by
  obtain ⟨⟨found, rest⟩, hread, rfl⟩ := Option.map_eq_some_iff.mp h
  have hlength := congrArg List.length (Specifier.read?_eq_some hread).1
  simp only at hdigits
  simp only [Specifier.text_eq_cons_body, Specifier.body, hdigits, Specifier.numeralText,
    List.length_append, List.length_cons, List.length_drop] at hlength
  omega

end SpecifierMatch

/-- The specifiers among the tokens of a text are found in it from left to right. -/
theorem Token.mem_specifiers_of_mem_ofText {text : Text} {s : Specifier}
    (h : .specifier s ∈ Token.ofText text) : s ∈ Piece.specifiers (Piece.split text) := by
  obtain ⟨passed, rest, htokens⟩ := List.append_of_mem h
  obtain ⟨-, tail, hread⟩ := Template.read?_of_mem_tokens htokens (Template.Settled.nil text)
  rw [SpecifierMatch.mem_specifiers_iff]
  refine ⟨(passed.flatMap Token.text).length, ⟨s, (passed.flatMap Token.text).length⟩, ?_, rfl⟩
  rw [SpecifierMatch.at?, Int.toNat_natCast, hread]
  rfl

namespace Template

/-- A text in which every position has a value has a template. -/
theorem ofText_eq_ok {text : Text}
    (h : ∀ index m, SpecifierMatch.at? text index = some m → m.specifier.isOverlong = false) :
    ofText text = .ok (ofTokens (Token.ofText text)) := by
  have hnone : (Piece.specifiers (Piece.split text)).any Specifier.isOverlong = false := by
    rw [List.any_eq_false]
    intro s hs
    obtain ⟨index, m, hat, rfl⟩ := SpecifierMatch.mem_specifiers_iff.mp hs
    simp [h index m hat]
  rw [ofText_eq, hnone]
  rfl

/-- A text whose only specifier is at its end, behind a character other than a percent sign. -/
theorem ofText_of_split {text before : Text} {c : CodePoint} {s : Specifier}
    (h : Piece.split text = (before ++ [c]).map .char ++ [.specifier s]) (hc : c ≠ .char '%')
    (hs : s.isOverlong = false) :
    ofText text = .ok [.literal (before ++ [c]), .placeholder (placeholderOf s)] := by
  have hspecifiers : Piece.specifiers (Piece.split text) = [s] := by
    rw [h, Piece.specifiers, List.filterMap_append, List.filterMap_map]
    simp
  have heven := endsInLonePercent_of_ne hc before.reverse
  unfold ofText
  dsimp only
  rw [hspecifiers, h, ofPieces_chars, List.append_nil, List.reverse_append, List.reverse_singleton,
    List.singleton_append, ofPieces, heven]
  simp [hs, flush, ofPieces]

theorem isOverlong_eq_false {s : Specifier}
    (h : ∀ digits ∈ s.numeral, digits.length ≤ longestNumeral) : s.isOverlong = false := by
  unfold Specifier.isOverlong
  split
  · rename_i digits hdigits
    have := h digits hdigits
    rw [Bool.eq_false_iff, ne_eq, Nat.blt_eq]
    omega
  · rfl

theorem eq_ofTokens_of_ofText_eq_ok {text : Text} {t : Template} (h : ofText text = .ok t) :
    t = ofTokens (Token.ofText text) := by
  rw [ofText_eq] at h
  split at h
  · contradiction
  · exact (Except.ok.inj h).symm

/-- In a text that has a template, the numeral of no specifier among the tokens is too long. -/
theorem isOverlong_of_ofText_eq_ok {text : Text} {t : Template} {s : Specifier}
    (h : ofText text = .ok t) (hs : .specifier s ∈ Token.ofText text) : s.isOverlong = false := by
  have hmem := Token.mem_specifiers_of_mem_ofText hs
  rw [ofText_eq] at h
  split at h
  · contradiction
  · rename_i hnone
    by_contra hlong
    exact hnone (List.any_eq_true.mpr ⟨s, hmem, by simpa using hlong⟩)

/-- A scan that succeeds gives the tokens of the text with its markers expanded. -/
theorem scan_eq_ok {text : Text} {subs : SubstitutionMap} {t : Template}
    (h : scan text subs = .ok t) :
    ∃ expanded, subs.expand text = .ok expanded ∧ t = ofTokens (Token.ofText expanded) := by
  unfold scan at h
  split at h
  · contradiction
  · rename_i expanded hexpand
    exact ⟨expanded, hexpand, eq_ofTokens_of_ofText_eq_ok h⟩

/-- The positions that a text gives are positive. -/
theorem position_pos {text : Text} {p : Placeholder}
    (h : p ∈ (ofTokens (Token.ofText text)).placeholders) : ∀ n ∈ p.position, 1 ≤ n := by
  obtain ⟨segment, hsegment, hp⟩ := List.mem_filterMap.mp h
  cases segment with
  | literal text => contradiction
  | placeholder q =>
    cases hp
    obtain ⟨before, after, hplace⟩ := List.append_of_mem hsegment
    obtain ⟨passed, s, rest, htokens, rfl, -⟩ := exists_token_of_placeholder hplace
    have hmem : .specifier s ∈ Token.ofText text := by simp [htokens]
    intro n hn
    obtain ⟨position, hposition, rfl⟩ := Option.map_eq_some_iff.mp hn
    have := (Token.wellFormed_of_mem_ofText hmem).position_pos hposition
    exact Int.ofNat_le.mpr this

/-- The scan of a text whose positions have numerals that are not too long: it gives the template of
the tokens of the text, in which all segments together are the text, no literal is empty, and no two
literals are neighbours. Every placeholder is the specifier at its index, and the number of percent
signs before it is even. -/
theorem scan_eq_ofTokens (text : Text)
    (h : ∀ index m digits, SpecifierMatch.at? text index = some m →
      m.specifier.numeral = some digits → digits.length ≤ longestNumeral) :
    ∃ t, scan text [] = .ok t ∧ t = ofTokens (Token.ofText text) ∧ t.text = text ∧
      .literal [] ∉ t ∧ (∀ before a b after, t ≠ before ++ .literal a :: .literal b :: after) ∧
      ∀ (before : Template) p after, t = before ++ .placeholder p :: after →
        (∃ m, SpecifierMatch.at? text before.text.length = some m ∧ p = placeholderOf m.specifier) ∧
          before.text.trailingPercents % 2 = 0 := by
  have hshort : ∀ index m, SpecifierMatch.at? text index = some m →
      m.specifier.isOverlong = false :=
    fun index m hat => isOverlong_eq_false fun digits hdigits => h index m digits hat hdigits
  have hnormal := normal_ofTokens (Token.ofText text)
  refine ⟨ofTokens (Token.ofText text), ofText_eq_ok hshort, rfl, ?_, hnormal.nonempty,
    hnormal.separate, ?_⟩
  · rw [text_ofTokens, Token.flatMap_text_ofText]
  · intro before p after hplace
    obtain ⟨passed, s, rest, htokens, rfl, hpassed⟩ := exists_token_of_placeholder hplace
    obtain ⟨heven, tail, hread⟩ := read?_of_mem_tokens htokens (Settled.nil text)
    rw [hpassed] at heven hread
    refine ⟨⟨⟨s, before.text.length⟩, ?_, rfl⟩, ?_⟩
    · simp [SpecifierMatch.at?, hread]
    · simpa [endsInLonePercent, Text.trailingPercents] using heven

theorem scan_escapes_and_placeholders :
    (∀ index m digits, SpecifierMatch.at? "%%d %%%2$@%" index = some m →
      m.specifier.numeral = some digits → digits.length ≤ longestNumeral) ∧
    scan "%%d %%%2$@%" [] =
      .ok [.literal "%%d %%", .placeholder ⟨.object, "%2$@", some 2⟩, .literal "%"] := by
  have h : ∀ index m digits, SpecifierMatch.at? "%%d %%%2$@%" index = some m →
      m.specifier.numeral = some digits → digits.length ≤ longestNumeral := by
    intro index m digits hat hdigits
    have := SpecifierMatch.length_numeral_le hat hdigits
    exact Nat.le_trans this (by decide)
  obtain ⟨t, hscan, htokens, -⟩ := scan_eq_ofTokens "%%d %%%2$@%" h
  refine ⟨h, ?_⟩
  rw [hscan, htokens]
  decide +kernel

end Template

end StringCatalog
