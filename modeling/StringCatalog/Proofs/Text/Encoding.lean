import StringCatalog.Proofs.Text.Basic
import StringCatalog.Text.Quoted

/-! Texts that have a form in UTF-8. Words of the program, numerals and quoted texts have one, so a
line has one exactly if the texts in it that are shown as they are do. -/

namespace StringCatalog

/-- No half of a pair is shown as itself. -/
theorem isPrintable_half (index : Fin 0x800) : isPrintable (.half index) = false := by
  have houtside : ∀ range ∈ printables.ranges, range.2 < 0xD800 ∨ 0xDFFF < range.1 := by
    decide +kernel
  refine List.any_eq_false.mpr fun range hrange => ?_
  have hindex := index.isLt
  rcases houtside range hrange with hbelow | habove
  · simp only [CodePoint.toNat, Bool.and_eq_true, Nat.ble_eq]
    omega
  · simp only [CodePoint.toNat, Bool.and_eq_true, Nat.ble_eq]
    omega

namespace Text

variable {s t : Text} {c : CodePoint}

@[simp]
theorem isEncodable_nil : isEncodable [] = true := rfl

@[simp]
theorem isEncodable_cons : isEncodable (c :: t) = (c.char?.isSome && t.isEncodable) := rfl

@[simp]
theorem isEncodable_append : isEncodable (s ++ t) = (s.isEncodable && t.isEncodable) :=
  List.all_append

@[simp]
theorem isEncodable_ofChars (chars : List Char) : isEncodable (ofChars chars) = true := by
  simp [isEncodable, ofChars, CodePoint.char?]

@[simp]
theorem isEncodable_ofString (s : String) : isEncodable (ofString s) = true :=
  isEncodable_ofChars _

@[simp]
theorem isEncodable_ofNat (n : Nat) : isEncodable (ofNat n) = true := isEncodable_ofChars _

theorem isEncodable_join {separator : Text} {parts : List Text}
    (hseparator : separator.isEncodable = true) :
    (join separator parts).isEncodable = true ↔ ∀ part ∈ parts, part.isEncodable = true := by
  induction parts with
  | nil => simp [join]
  | cons part parts ih =>
    rw [List.forall_mem_cons, ← ih]
    cases parts with
    | nil => simp [join]
    | cons next rest => simp [join, hseparator]

theorem isEncodable_hexOfNat (width n : Nat) : (hexOfNat width n).isEncodable = true := by
  have hzeros : (copies (width - (ofChars (Nat.toDigits 16 n)).length) '0').isEncodable = true :=
    List.all_eq_true.mpr fun c hc => by rw [List.eq_of_mem_replicate hc]; rfl
  simp [hexOfNat, padStart, hzeros]

theorem isEncodable_quotedChar (mark : Char) (c : CodePoint) :
    (quotedChar mark c).isEncodable = true := by
  have hnumber : ∀ (letter : Char) (width n : Nat),
      isEncodable ('\\' :: letter :: hexOfNat width n) = true := by
    intro letter width n
    simp [CodePoint.char?, isEncodable_hexOfNat]
  have hself : isPrintable c = true → isEncodable [c] = true := by
    intro h
    cases c with
    | char c => rfl
    | half index => cases (isPrintable_half index).symm.trans h
  unfold quotedChar
  split
  case isTrue h => rcases h with rfl | rfl <;> rfl
  case isFalse =>
    repeat' split
    all_goals first | exact isEncodable_ofString _ | exact hself ‹_› | exact hnumber _ _ _

/-- A quoted text has a form in UTF-8, whatever it quotes. -/
@[simp]
theorem isEncodable_quoted (t : Text) : t.quoted.isEncodable = true := by
  obtain ⟨mark, hmark⟩ : ∃ mark : Char, quotationMark t = mark := by
    unfold quotationMark
    split <;> exact ⟨_, rfl⟩
  have hinside : isEncodable (t.flatMap (quotedChar mark)) = true := by
    refine List.all_eq_true.mpr fun c hc => ?_
    obtain ⟨d, -, hc⟩ := List.mem_flatMap.mp hc
    exact List.all_eq_true.mp (isEncodable_quotedChar mark d) c hc
  rw [quoted, hmark]
  simp [hinside, CodePoint.char?]

@[simp]
theorem isEncodable_quotedList (ts : List Text) : (quotedList ts).isEncodable = true := by
  have hitems : (join ", " (ts.map quoted)).isEncodable = true :=
    (isEncodable_join (isEncodable_ofString _)).mpr
      (List.forall_mem_map.mpr fun t _ => isEncodable_quoted t)
  simp [quotedList, bracketed, hitems]

end Text

end StringCatalog
