import StringCatalog.Format.Occurrence
import StringCatalog.Proofs.Format.Grammar
import StringCatalog.Proofs.Format.Scan
import StringCatalog.Proofs.Sequence

/-! Where specifiers are found: at one index, from left to right, or as a whole text. All three find
the texts of the grammar that stand there, as no two of them overlap. -/

namespace StringCatalog

namespace Specifier

/-- No specifier begins inside of another one. -/
theorem read?_drop_eq_none {s rest : Text} {found : Specifier} (h : read? s = some (found, rest))
    {i : Nat} (hpos : 0 < i) (hlt : i < found.text.length) : read? (s.drop i) = none := by
  obtain ⟨hs, hwf⟩ := read?_eq_some h
  obtain ⟨n, rfl⟩ := Nat.exists_eq_add_one.mpr hpos
  have hn : n < found.body.length := by simpa [text_eq_cons_body] using hlt
  have hdrop : s.drop (n + 1) = found.body[n] :: (found.body.drop (n + 1) ++ rest) := by
    rw [hs, text_eq_cons_body, List.cons_append, List.drop_succ_cons,
      List.drop_append_of_le_length (Nat.le_of_lt hn), List.drop_eq_getElem_cons hn,
      List.cons_append]
  have hne : found.body[n] ≠ .char '%' := fun heq =>
    hwf.percent_notMem (heq ▸ List.getElem_mem hn)
  rw [hdrop, read?_of_ne_percent hne]

end Specifier

namespace SpecifierMatch

theorem at?_eq_some_iff {text : Text} {index : Int} {m : SpecifierMatch} :
    at? text index = some m ↔ m.start = index.toNat ∧
      ∃ rest, Specifier.read? (text.drop index.toNat) = some (m.specifier, rest) := by
  rw [at?, Option.map_eq_some_iff]
  constructor
  · rintro ⟨⟨found, rest⟩, hread, rfl⟩
    exact ⟨rfl, rest, hread⟩
  · rintro ⟨hstart, rest, hread⟩
    exact ⟨(m.specifier, rest), hread, by rw [← hstart]⟩

/-- The specifiers of the pieces of a text are those that begin at any index of it. -/
theorem mem_ofPieces_split {s : Text} {base : Nat} {m : SpecifierMatch} :
    m ∈ ofPieces base (Piece.split s) ↔
      ∃ i rest, m.start = base + i ∧ Specifier.read? (s.drop i) = some (m.specifier, rest) := by
  induction s using Piece.split_induction generalizing base with
  | nil => simp [Piece.split, Piece.splitFrom, ofPieces, Specifier.read?]
  | char c s hread ih =>
    rw [Piece.split_of_read?_none hread, ofPieces, ih]
    constructor
    · rintro ⟨i, rest, hstart, hfound⟩
      exact ⟨i + 1, rest, by omega, hfound⟩
    · rintro ⟨i, rest, hstart, hfound⟩
      cases i with
      | zero => simp [hread] at hfound
      | succ i => exact ⟨i, rest, by omega, hfound⟩
  | specifier s found rest hread ih =>
    have hbehind : ∀ i, s.drop (found.text.length + i) = rest.drop i := by
      intro i
      rw [(Specifier.read?_eq_some hread).1, ← List.drop_drop, List.drop_left]
    rw [Piece.split_of_read?_some hread, ofPieces, List.mem_cons, ih]
    constructor
    · rintro (rfl | ⟨i, tail, hstart, hfound⟩)
      · exact ⟨0, rest, rfl, hread⟩
      · exact ⟨found.text.length + i, tail, by omega, by rw [hbehind, hfound]⟩
    · rintro ⟨i, tail, hstart, hfound⟩
      rcases Nat.eq_zero_or_pos i with rfl | hpos
      · rw [List.drop_zero, hread] at hfound
        cases hfound
        rw [Nat.add_zero] at hstart
        exact Or.inl (by rw [← hstart])
      · have hle : found.text.length ≤ i := by
          by_contra hlt
          rw [Specifier.read?_drop_eq_none hread hpos (Nat.lt_of_not_le hlt)] at hfound
          contradiction
        obtain ⟨j, rfl⟩ := Nat.exists_eq_add_of_le hle
        rw [hbehind] at hfound
        exact Or.inr ⟨j, tail, by omega, hfound⟩

theorem le_start_of_mem_ofPieces {pieces : List Piece} {base : Nat} {m : SpecifierMatch}
    (h : m ∈ ofPieces base pieces) : base ≤ m.start := by
  induction pieces generalizing base with
  | nil => contradiction
  | cons piece pieces ih =>
    cases piece with
    | char c => exact Nat.le_of_succ_le (ih h)
    | specifier s =>
      rcases List.mem_cons.mp h with rfl | hrest
      · exact Nat.le_refl base
      · exact Nat.le_trans (Nat.le_add_right base _) (ih hrest)

/-- The matches are in the order of their places. -/
theorem pairwise_ofPieces (base : Nat) (pieces : List Piece) :
    (ofPieces base pieces).Pairwise (·.start < ·.start) := by
  induction pieces generalizing base with
  | nil => exact .nil
  | cons piece pieces ih =>
    cases piece with
    | char c => exact ih (base + 1)
    | specifier s =>
      refine .cons (fun m hm => ?_) (ih (base + s.text.length))
      have hle := le_start_of_mem_ofPieces hm
      rw [Specifier.text_eq_cons_body, List.length_cons] at hle
      show base < m.start
      omega

theorem mem_all_iff {text : Text} {m : SpecifierMatch} :
    m ∈ all text ↔ ∃ index : Nat, at? text index = some m := by
  rw [all, mem_ofPieces_split]
  constructor
  · rintro ⟨i, rest, hstart, hread⟩
    exact ⟨i, at?_eq_some_iff.mpr ⟨by simpa using hstart, rest, hread⟩⟩
  · rintro ⟨i, hat⟩
    obtain ⟨hstart, rest, hread⟩ := at?_eq_some_iff.mp hat
    exact ⟨i, rest, by simpa using hstart, hread⟩

end SpecifierMatch

namespace Text

/-- The positions in a text have a value: no numeral of a text of the grammar in it is too long. -/
def HasPositions (text : Text) : Prop :=
  ∀ part : Text, part.IsSpecifier → part <:+: text →
    ∀ digits ∈ part.numeral?, digits.length ≤ longestNumeral

/-- There is no room for a long numeral in a short text. -/
theorem hasPositions_of_length_le {text : Text} (h : text.length ≤ longestNumeral) :
    text.HasPositions := by
  intro part _ hinfix digits hdigits
  rw [Option.mem_def, numeral?] at hdigits
  split at hdigits
  · cases hdigits
    calc ((part.drop 1).takeWhile (· != .char '$')).length
        ≤ (part.drop 1).length := (List.takeWhile_prefix _).length_le
      _ ≤ part.length := (List.drop_suffix 1 part).length_le
      _ ≤ text.length := hinfix.length_le
      _ ≤ longestNumeral := h
  · contradiction

end Text

namespace Occurrence

/-- The occurrence is of a text of the grammar that stands at the index: the value of its numeral is
the position, and the kind is that of its last letter. -/
structure StandsAt (o : Occurrence) (text : Text) (index : Nat) : Prop where
  grammar : o.text.IsSpecifier
  here : o.text <+: text.drop index
  position : o.position = o.text.numeral?.map Text.toNat
  kind : ArgumentKind.ofConversion? o.text = some o.kind
  start : o.start = index
  stop : o.stop = index + o.text.length

/-- What a match at an index shows is what stands there. -/
theorem standsAt_iff {o : Occurrence} {text : Text} {index : Int} :
    o.StandsAt text index.toNat ↔ ∃ m, SpecifierMatch.at? text index = some m ∧ ofMatch m = o := by
  constructor
  · rintro ⟨hgrammar, ⟨rest, hrest⟩, hposition, hkind, hstart, hstop⟩
    obtain ⟨s, htext, hread⟩ := (Text.isSpecifier_iff_read? rest).mp hgrammar
    have hnumeral := (Specifier.read?_eq_some hread).2.numeral?_text
    have hconversion := s.ofConversion?_text
    rw [htext] at hnumeral hconversion
    rw [hrest] at hread
    refine ⟨⟨s, index.toNat⟩, SpecifierMatch.at?_eq_some_iff.mpr ⟨rfl, rest, hread⟩, ?_⟩
    have hsame : s.kind = o.kind := Option.some.inj (hconversion.symm.trans hkind)
    rw [hnumeral] at hposition
    rw [← hstart] at hstop
    simp only [ofMatch, SpecifierMatch.stop, Specifier.position, htext, ← hposition, hsame,
      ← hstart, ← hstop]
  · rintro ⟨m, hat, rfl⟩
    obtain ⟨hstart, rest, hread⟩ := SpecifierMatch.at?_eq_some_iff.mp hat
    obtain ⟨hdrop, hwf⟩ := Specifier.read?_eq_some hread
    exact {
      grammar := Text.isSpecifier_iff.mpr ⟨m.specifier, hwf, rfl⟩
      here := ⟨rest, hdrop.symm⟩
      position := congrArg (Option.map Text.toNat) hwf.numeral?_text.symm
      kind := m.specifier.ofConversion?_text
      start := hstart
      stop := by rw [← hstart]; rfl }

section

variable {text : Text} (hpositions : text.HasPositions)

include hpositions

/-- A match in a text whose positions have values is told of. -/
theorem tell_eq_ok {index : Int} {m : SpecifierMatch}
    (hat : SpecifierMatch.at? text index = some m) : tell m = .ok (ofMatch m) := by
  have hstands : (ofMatch m).StandsAt text index.toNat := standsAt_iff.mpr ⟨m, hat, rfl⟩
  obtain ⟨-, rest, hread⟩ := SpecifierMatch.at?_eq_some_iff.mp hat
  have hnumeral := (Specifier.read?_eq_some hread).2.numeral?_text
  have hinfix : m.specifier.text <:+: text :=
    hstands.here.isInfix.trans (List.drop_suffix _ _).isInfix
  have hlength := hpositions m.specifier.text hstands.grammar hinfix
  rw [hnumeral] at hlength
  rw [tell, if_neg (by rw [Template.isOverlong_eq_false hlength]; decide)]

theorem at?_spec (index : Int) :
    ∃ found, at? text index = .ok found ∧ ∀ o, found = some o ↔ o.StandsAt text index.toNat := by
  refine ⟨(SpecifierMatch.at? text index).map ofMatch, ?_, fun o => ?_⟩
  · unfold at?
    split
    · rename_i m hat
      rw [tell_eq_ok hpositions hat, hat]
      rfl
    · rename_i hat
      rw [hat]
      rfl
  · rw [Option.map_eq_some_iff, standsAt_iff]

theorem all_spec : ∃ os, all text = .ok os ∧ os.Pairwise (·.start < ·.start) ∧
    ∀ o, o ∈ os ↔ ∃ index, o.StandsAt text index := by
  refine ⟨(SpecifierMatch.all text).map ofMatch, ?_, ?_, fun o => ?_⟩
  · have htell : ∀ m ∈ SpecifierMatch.all text, tell m = .ok (ofMatch m) := fun m hm => by
      obtain ⟨index, hat⟩ := SpecifierMatch.mem_all_iff.mp hm
      exact tell_eq_ok hpositions hat
    exact Sequence.mapM_eq_ok_iff.mpr
      (List.forall₂_map_right_iff.mpr (List.forall₂_same.mpr htell))
  · exact List.pairwise_map.mpr (SpecifierMatch.pairwise_ofPieces 0 (Piece.split text))
  · rw [List.mem_map]
    constructor
    · rintro ⟨m, hm, hshown⟩
      obtain ⟨index, hat⟩ := SpecifierMatch.mem_all_iff.mp hm
      exact ⟨index, standsAt_iff.mpr ⟨m, hat, hshown⟩⟩
    · rintro ⟨index, hstands⟩
      have hplace : o.StandsAt text (index : Int).toNat := hstands
      obtain ⟨m, hat, hshown⟩ := standsAt_iff.mp hplace
      exact ⟨m, SpecifierMatch.mem_all_iff.mpr ⟨index, hat⟩, hshown⟩

end

end Occurrence

namespace Text

/-- The positions in a text have values if those of the specifiers found in it have. -/
theorem hasPositions_iff {text : Text} : text.HasPositions ↔
    ∀ s ∈ Piece.specifiers (Piece.split text), s.isOverlong = false := by
  constructor
  · intro h s hs
    obtain ⟨index, m, hat, rfl⟩ := SpecifierMatch.mem_specifiers_iff.mp hs
    have htell := Occurrence.tell_eq_ok h hat
    unfold Occurrence.tell at htell
    split at htell
    · contradiction
    · rename_i hshort
      exact Bool.eq_false_iff.mpr hshort
  · rintro h part hpart ⟨before, after, rfl⟩ digits hdigits
    obtain ⟨s, rfl, hread⟩ := (isSpecifier_iff_read? after).mp hpart
    have hat : SpecifierMatch.at? (before ++ s.text ++ after) before.length =
        some ⟨s, before.length⟩ := by
      refine SpecifierMatch.at?_eq_some_iff.mpr ⟨rfl, after, ?_⟩
      rw [Int.toNat_natCast, List.append_assoc, List.drop_left, hread]
    have hshort := h s (SpecifierMatch.mem_specifiers_iff.mpr ⟨_, _, hat, rfl⟩)
    rw [(Specifier.read?_eq_some hread).2.numeral?_text, Option.mem_def] at hdigits
    rw [Specifier.isOverlong, hdigits, ← Bool.not_eq_true, Nat.blt_eq] at hshort
    exact Nat.not_lt.mp hshort

/-- A text without percent signs gives no position. -/
theorem hasPositions_of_percent_notMem {text : Text} (h : CodePoint.char '%' ∉ text) :
    text.HasPositions := by
  rintro part ⟨-, -, -, -, -⟩ hinside
  exact absurd (hinside.subset List.mem_cons_self) h

end Text

namespace Template

theorem scan_of_hasPositions {text : Text} (h : text.HasPositions) :
    scan text [] = .ok (ofTokens (Token.ofText text)) :=
  ofText_eq_ok fun _ m hat =>
    Text.hasPositions_iff.mp h _ (SpecifierMatch.mem_specifiers_iff.mpr ⟨_, m, hat, rfl⟩)

theorem scan_of_not_hasPositions {text : Text} (h : ¬text.HasPositions) :
    scan text [] = .error .numeralTooLong := by
  rw [Text.hasPositions_iff] at h
  push Not at h
  obtain ⟨s, hs, hoverlong⟩ := h
  show ofText text = _
  rw [ofText_eq, if_pos (List.any_eq_true.mpr ⟨s, hs, by simpa using hoverlong⟩)]

theorem hasPositions_of_scan_eq_ok {text : Text} {t : Template} (h : scan text [] = .ok t) :
    text.HasPositions := by
  by_contra hnot
  rw [scan_of_not_hasPositions hnot] at h
  contradiction

end Template

namespace Specifier

theorem ofText?_eq_some_iff {text : Text} {s : Specifier} :
    ofText? text = some s ↔ read? text = some (s, []) := by
  unfold ofText?
  split
  · rename_i whole hread
    simp [hread]
  · rename_i hnot
    simpa using hnot s

/-- The texts that have a kind are those of the grammar. -/
theorem kindOf?_isSome_iff {text : Text} : (kindOf? text).isSome ↔ text.IsSpecifier := by
  rw [kindOf?, Option.isSome_map, Option.isSome_iff_exists, Text.isSpecifier_iff_read? []]
  simp only [ofText?_eq_some_iff, List.append_nil]
  constructor
  · rintro ⟨s, hread⟩
    have hs := (read?_eq_some hread).1
    rw [List.append_nil] at hs
    exact ⟨s, hs.symm, hread⟩
  · rintro ⟨s, -, hread⟩
    exact ⟨s, hread⟩

end Specifier

namespace Occurrence

/-- No text of the grammar begins another one. In a text whose positions have values, at most one
begins at each index, and it is found there. Those found from left to right are all that stand at
any index. A whole text has a kind exactly if it is one of the grammar, and it is the kind of what
is found at its beginning. -/
theorem found_iff {text : Text} (hpositions : text.HasPositions) :
    (∀ s t : Text, s.IsSpecifier → t.IsSpecifier → s <+: t → s = t) ∧
    (∀ (index : Nat) (s t : Text), s.IsSpecifier → t.IsSpecifier → s <+: text.drop index →
      t <+: text.drop index → s = t) ∧
    (∀ index : Int, ∃ found, at? text index = .ok found ∧
      ∀ o, found = some o ↔ o.StandsAt text index.toNat) ∧
    (∃ os, all text = .ok os ∧ os.Pairwise (·.start < ·.start) ∧
      ∀ o, o ∈ os ↔ ∃ index, o.StandsAt text index) ∧
    ((Specifier.kindOf? text).isSome ↔ text.IsSpecifier) ∧
    ∀ kind, Specifier.kindOf? text = some kind →
      ∃ o, at? text 0 = .ok (some o) ∧ o.text = text ∧ o.kind = kind := by
  refine ⟨fun s t hs ht hbegins => hs.eq_of_prefix ht hbegins (List.prefix_refl t),
    fun index s t hs ht => hs.eq_of_prefix ht, at?_spec hpositions, all_spec hpositions,
    Specifier.kindOf?_isSome_iff, fun kind hkind => ?_⟩
  obtain ⟨s, hwhole, rfl⟩ := Option.map_eq_some_iff.mp hkind
  have hread := Specifier.ofText?_eq_some_iff.mp hwhole
  have htext := (Specifier.read?_eq_some hread).1
  have hat : SpecifierMatch.at? text 0 = some ⟨s, 0⟩ :=
    SpecifierMatch.at?_eq_some_iff.mpr ⟨rfl, [], hread⟩
  refine ⟨ofMatch ⟨s, 0⟩, ?_, ?_, rfl⟩
  · rw [at?, hat]
    exact congrArg (Except.map some) (tell_eq_ok hpositions hat)
  · rw [List.append_nil] at htext
    exact htext.symm

theorem found_iff_zeros :
    Text.HasPositions "%%0d%01$00.2f%0$d" ∧
    all "%%0d%01$00.2f%0$d" =
      .ok [⟨"%0d", none, .int, 1, 4⟩, ⟨"%01$00.2f", some 1, .double, 4, 13⟩] ∧
    ∀ o : Occurrence, (∃ index, o.StandsAt "%%0d%01$00.2f%0$d" index) ↔
      o = ⟨"%0d", none, .int, 1, 4⟩ ∨ o = ⟨"%01$00.2f", some 1, .double, 4, 13⟩ := by
  have hpositions : Text.HasPositions "%%0d%01$00.2f%0$d" :=
    Text.hasPositions_of_length_le (by decide)
  have hall : all "%%0d%01$00.2f%0$d" =
      .ok [⟨"%0d", none, .int, 1, 4⟩, ⟨"%01$00.2f", some 1, .double, 4, 13⟩] := by decide +kernel
  obtain ⟨-, -, -, ⟨os, hos, -, hmem⟩, -⟩ := found_iff hpositions
  obtain rfl := Except.ok.inj (hall.symm.trans hos)
  refine ⟨hpositions, hall, fun o => ?_⟩
  rw [← hmem o, List.mem_cons, List.mem_singleton]

end Occurrence

end StringCatalog
