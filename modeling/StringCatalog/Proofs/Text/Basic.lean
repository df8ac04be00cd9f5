import Mathlib.Data.List.Infix
import Mathlib.Data.List.TakeWhile
import StringCatalog.Text.Digit

/-! Facts about code points and texts: the number of a code point identifies it, a numeral is read
back as its number, a test for a substring finds what it should, and replacement goes from left to
right. -/

namespace StringCatalog

namespace CodePoint

theorem toNat_injective {a b : CodePoint} (h : a.toNat = b.toNat) : a = b := by
  have range : ∀ c : Char, c.toNat < 0xD800 ∨ 0xDFFF < c.toNat := fun c => by
    rcases c.valid with hlow | hhigh
    · exact Or.inl hlow
    · exact Or.inr hhigh.1
  cases a with
  | char c =>
    cases b with
    | char d => rw [Char.toNat_inj.mp h]
    | half j =>
      have := range c
      have := j.isLt
      simp only [toNat] at h
      omega
  | half i =>
    cases b with
    | char d =>
      have := range d
      have := i.isLt
      simp only [toNat] at h
      omega
    | half j =>
      simp only [toNat, Nat.add_left_cancel_iff] at h
      rw [Fin.ext h]

end CodePoint

/-- A digit other than zero has a number above that of zero. -/
theorem lt_toNat_of_isAsciiDigit {c : CodePoint} (hc : isAsciiDigit c = true)
    (hzero : c ≠ .char '0') : 48 < c.toNat := by
  have hne : c.toNat ≠ 48 := fun h => hzero (CodePoint.toNat_injective h)
  simp only [isAsciiDigit, Bool.and_eq_true, Nat.ble_eq] at hc
  omega

namespace Text

/-! ### Numerals -/

/-- A numeral keeps the value that it has so far, or gets a greater one. -/
theorem le_foldl_digits (digits : Text) (n : Nat) :
    n ≤ digits.foldl (fun n c => 10 * n + (c.toNat - 48)) n := by
  induction digits generalizing n with
  | nil => exact Nat.le_refl n
  | cons c rest ih =>
    have := ih (10 * n + (c.toNat - 48))
    simp only [List.foldl_cons]
    omega

/-- A numeral with a digit other than zero denotes a positive number. -/
theorem toNat_pos {digits : Text} (hdigits : ∀ c ∈ digits, isAsciiDigit c = true)
    (hnonzero : ∃ c ∈ digits, c ≠ .char '0') : 0 < toNat digits := by
  obtain ⟨c, hmem, hzero⟩ := hnonzero
  obtain ⟨before, after, rfl⟩ := List.append_of_mem hmem
  have hc := lt_toNat_of_isAsciiDigit (hdigits c hmem) hzero
  rw [toNat, List.foldl_append, List.foldl_cons]
  have := le_foldl_digits after
    (10 * before.foldl (fun n c => 10 * n + (c.toNat - 48)) 0 + (c.toNat - 48))
  omega

/-- A decimal numeral consists of digits. -/
theorem isAsciiDigit_of_mem_ofNat {n : Nat} {c : CodePoint} (h : c ∈ ofNat n) :
    isAsciiDigit c = true := by
  obtain ⟨d, hd, rfl⟩ := List.mem_map.mp h
  have hdigit := Nat.isDigit_of_mem_toDigits (by decide) (by decide) hd
  simp only [Char.isDigit, Bool.and_eq_true, decide_eq_true_eq] at hdigit
  simp only [isAsciiDigit, CodePoint.toNat, Bool.and_eq_true, Nat.ble_eq]
  exact ⟨UInt32.le_iff_toNat_le.mp hdigit.1, UInt32.le_iff_toNat_le.mp hdigit.2⟩

/-- A decimal numeral is read back as its number. -/
theorem toNat_ofNat (n : Nat) : toNat (ofNat n) = n := by
  have hvalue := Nat.ofDigitChars_ten_toDigits (n := n)
  unfold Nat.ofDigitChars at hvalue
  rw [toNat, ofNat, ofChars, List.foldl_map]
  exact hvalue

theorem ofNat_injective {m n : Nat} (h : ofNat m = ofNat n) : m = n := by
  rw [← toNat_ofNat m, h, toNat_ofNat]

theorem toNat_eq_zero {digits : Text} (h : ∀ c ∈ digits, c = .char '0') : toNat digits = 0 := by
  rw [List.eq_replicate_of_mem h, toNat]
  induction digits.length with
  | zero => rfl
  | succ n ih => exact ih

theorem exists_nonzero_of_pos {n : Nat} (h : 0 < n) : ∃ c ∈ ofNat n, c ≠ .char '0' := by
  by_contra hzeros
  push Not at hzeros
  have hvalue := toNat_eq_zero hzeros
  rw [toNat_ofNat] at hvalue
  omega

theorem length_ofNat_mono {m n : Nat} (h : m ≤ n) : (ofNat m).length ≤ (ofNat n).length := by
  simp only [ofNat, ofChars, List.length_map]
  have hn := (Nat.length_toDigits_le_iff (by decide) Nat.length_toDigits_pos).mp
    (Nat.le_refl (Nat.toDigits 10 n).length)
  exact (Nat.length_toDigits_le_iff (by decide) Nat.length_toDigits_pos).mpr
    (Nat.lt_of_le_of_lt h hn)

theorem hexDigit?_digitChar :
    ∀ d < 16, hexDigit? (.char (Nat.digitChar d)) = some d := by
  decide

/-- A hexadecimal numeral consists of hexadecimal digits. -/
theorem exists_digitChar_of_mem {n : Nat} {c : CodePoint} (h : c ∈ ofChars (Nat.toDigits 16 n)) :
    ∃ d < 16, c = .char (Nat.digitChar d) := by
  induction n using Nat.strong_induction_on with
  | _ n ih =>
  by_cases hlow : n < 16
  · rw [Nat.toDigits_of_lt_base hlow] at h
    exact ⟨n, hlow, List.mem_singleton.mp h⟩
  · rw [Nat.toDigits_of_base_le (by decide) (by omega), ofChars, List.map_append] at h
    rcases List.mem_append.mp h with hfirst | hlast
    · exact ih (n / 16) (by omega) hfirst
    · exact ⟨n % 16, Nat.mod_lt n (by decide), List.mem_singleton.mp hlast⟩

/-- A hexadecimal numeral is read back as its number. -/
theorem hexNat?_toDigits (n : Nat) : hexNat? (ofChars (Nat.toDigits 16 n)) = some n := by
  induction n using Nat.strong_induction_on with
  | _ n ih =>
  by_cases hlow : n < 16
  · rw [Nat.toDigits_of_lt_base hlow]
    simp [hexNat?, ofChars, hexDigit?_digitChar n hlow]
  · have hlast := hexDigit?_digitChar (n % 16) (Nat.mod_lt n (by decide))
    have hfirst := ih (n / 16) (by omega)
    rw [Nat.toDigits_of_base_le (by decide) (by omega)]
    simp only [hexNat?, ofChars, List.map_append, List.foldlM_append] at hfirst ⊢
    rw [hfirst]
    simp [hlast]
    omega

theorem hexOfNat_one (n : Nat) : hexOfNat 1 n = ofChars (Nat.toDigits 16 n) := by
  have hlength : 0 < (Nat.toDigits 16 n).length := Nat.length_toDigits_pos
  have hpad : 1 - (ofChars (Nat.toDigits 16 n)).length = 0 := by
    simp only [ofChars, List.length_map]
    omega
  simp [hexOfNat, padStart, hpad, copies]

/-! ### Substrings -/

theorem hasInfix_iff {part text : Text} : hasInfix part text = true ↔ part <:+: text := by
  induction text with
  | nil => simp [hasInfix]
  | cons c text ih =>
    rw [hasInfix, Bool.or_eq_true, ih, List.isPrefixOf_iff_prefix, List.infix_cons_iff]

theorem replaceFrom_eq_drop (part new : Text) (n : Nat) (text : Text) :
    replaceFrom part new n text = replace part new (text.drop n) := by
  induction text generalizing n with
  | nil => cases n <;> rfl
  | cons c text ih =>
    cases n with
    | zero => rfl
    | succ n => exact ih n

/-- An occurrence at the beginning is replaced, and what follows it is looked at afresh. -/
theorem replace_append {part : Text} (hpart : part ≠ []) (new text : Text) :
    replace part new (part ++ text) = new ++ replace part new text := by
  obtain ⟨c, rest, rfl⟩ := List.exists_cons_of_ne_nil hpart
  have hfound : (c :: rest).isPrefixOf (c :: (rest ++ text)) = true :=
    List.isPrefixOf_iff_prefix.mpr (List.prefix_append (c :: rest) text)
  rw [List.cons_append, replace, replaceFrom, if_pos hfound, replaceFrom_eq_drop]
  simp

/-- A character at which no occurrence begins stays. -/
theorem replace_cons {part : Text} {c : CodePoint} {text : Text} (h : ¬part <+: c :: text)
    (new : Text) : replace part new (c :: text) = c :: replace part new text := by
  rw [replace, replaceFrom, if_neg (mt List.isPrefixOf_iff_prefix.mp h)]
  rfl

/-- A text in which no occurrence begins stays, whatever follows it. -/
theorem replace_append_of_not_prefix {part t s : Text}
    (h : ∀ i < t.length, ¬part <+: (t ++ s).drop i) (new : Text) :
    replace part new (t ++ s) = t ++ replace part new s := by
  induction t with
  | nil => rfl
  | cons c t ih =>
    have hfirst : ¬part <+: c :: (t ++ s) := h 0 (by simp)
    have hrest : ∀ i < t.length, ¬part <+: (t ++ s).drop i := fun i hi =>
      h (i + 1) (Nat.succ_lt_succ hi)
    rw [List.cons_append, replace_cons hfirst, ih hrest, List.cons_append]

/-! ### Prefixes and parts -/

theorem isPrefixOf?_append (part text : Text) : part.isPrefixOf? (part ++ text) = some text :=
  List.isPrefixOf?_eq_some_iff_append_eq.mpr rfl

theorem isPrefixOf?_eq_none {part text : Text} (h : ¬part <+: text) :
    part.isPrefixOf? text = none := by
  rw [Option.eq_none_iff_forall_ne_some]
  intro rest hrest
  exact h ⟨rest, List.isPrefixOf?_eq_some_iff_append_eq.mp hrest⟩

/-- A text without characters of the class is its own only part. -/
theorem splitWhere_self {p : CodePoint → Bool} {part : Text} (h : ∀ c ∈ part, p c = false) :
    splitWhere p part = [part] := by
  induction part with
  | nil => rfl
  | cons c part ih =>
    have hrest := ih fun d hd => h d (List.mem_cons_of_mem c hd)
    rw [splitWhere, h c List.mem_cons_self, hrest]
    rfl

/-- The first part ends where the first character of the class stands. -/
theorem splitWhere_append {p : CodePoint → Bool} {part : Text} (h : ∀ c ∈ part, p c = false)
    {c : CodePoint} (hc : p c = true) (text : Text) :
    splitWhere p (part ++ c :: text) = part :: splitWhere p text := by
  induction part with
  | nil =>
    rw [List.nil_append, splitWhere, if_pos hc]
  | cons d part ih =>
    have hrest := ih fun d' hd' => h d' (List.mem_cons_of_mem d hd')
    rw [List.cons_append, splitWhere, h d List.mem_cons_self, hrest]
    rfl

theorem splitWhere_ne_nil (p : CodePoint → Bool) (text : Text) : splitWhere p text ≠ [] := by
  cases text with
  | nil => simp [splitWhere]
  | cons c text =>
    rw [splitWhere]
    split
    · simp
    · split <;> simp

/-- The parts between separators have the characters of the text, but for the separators. -/
theorem mem_of_mem_splitWhere {p : CodePoint → Bool} {text part : Text} {c : CodePoint}
    (hpart : part ∈ splitWhere p text) (hc : c ∈ part) : c ∈ text ∧ p c = false := by
  induction text generalizing part with
  | nil =>
    obtain rfl := List.mem_singleton.mp hpart
    contradiction
  | cons d text ih =>
    rw [splitWhere] at hpart
    split at hpart
    · rcases List.mem_cons.mp hpart with rfl | hlater
      · contradiction
      · exact (ih hlater hc).imp_left (List.mem_cons_of_mem d)
    · rename_i hd
      obtain ⟨first, later, hsplit⟩ := List.exists_cons_of_ne_nil (splitWhere_ne_nil p text)
      rw [hsplit] at hpart ih
      rcases List.mem_cons.mp hpart with rfl | hlater
      · rcases List.mem_cons.mp hc with rfl | hc
        · exact ⟨List.mem_cons_self, by simpa using hd⟩
        · exact (ih List.mem_cons_self hc).imp_left (List.mem_cons_of_mem d)
      · exact (ih (List.mem_cons_of_mem first hlater) hc).imp_left (List.mem_cons_of_mem d)

/-- A character of the class ends a part, whatever stands before it. -/
theorem splitWhere_append_cons {p : CodePoint → Bool} {c : CodePoint} (hc : p c = true)
    (s t : Text) : splitWhere p (s ++ c :: t) = splitWhere p s ++ splitWhere p t := by
  induction s with
  | nil =>
    have hfirst : splitWhere p (c :: t) = [] :: splitWhere p t := by rw [splitWhere, if_pos hc]
    exact hfirst
  | cons d s ih =>
    rw [List.cons_append, splitWhere, splitWhere, ih]
    split
    · rfl
    · obtain ⟨part, parts, hsplit⟩ := List.exists_cons_of_ne_nil (splitWhere_ne_nil p s)
      rw [hsplit]
      rfl

/-- Texts that are joined by a character of the class are split one by one. -/
theorem splitWhere_join {p : CodePoint → Bool} {c : CodePoint} (hc : p c = true)
    {parts : List Text} (h : parts ≠ []) : splitWhere p (join [c] parts) = parts.flatMap (splitWhere p) := by
  induction parts with
  | nil => contradiction
  | cons part parts ih =>
    cases parts with
    | nil => simp [join]
    | cons next parts =>
      have hjoin : join [c] (part :: next :: parts) = part ++ c :: join [c] (next :: parts) := by
        simp [join]
      rw [hjoin, splitWhere_append_cons hc, ih (List.cons_ne_nil next parts)]
      rfl

/-- Texts without a character of the class are their own parts. -/
theorem flatMap_splitWhere {p : CodePoint → Bool} {parts : List Text}
    (h : ∀ part ∈ parts, ∀ c ∈ part, p c = false) :
    parts.flatMap (splitWhere p) = parts := by
  induction parts with
  | nil => rfl
  | cons part parts ih =>
    rw [List.flatMap_cons, splitWhere_self (h part List.mem_cons_self),
      ih fun q hq => h q (List.mem_cons_of_mem part hq), List.singleton_append]

/-- The parts behind the first one all have the separator before them. -/
theorem join_cons (separator part : Text) (parts : List Text) :
    join separator (part :: parts) = part ++ parts.flatMap (separator ++ ·) := by
  induction parts generalizing part with
  | nil => simp [join]
  | cons next parts ih =>
    have hjoin : join separator (part :: next :: parts) =
        part ++ separator ++ join separator (next :: parts) := by simp [join]
    rw [hjoin, ih, List.flatMap_cons, List.append_assoc, List.append_assoc]

/-- The parts between separators, joined again, are the text. -/
theorem join_splitAt (separator : CodePoint) (text : Text) :
    join [separator] (splitAt separator text) = text := by
  unfold splitAt
  induction text with
  | nil => rfl
  | cons c text ih =>
    obtain ⟨part, parts, hsplit⟩ := List.exists_cons_of_ne_nil
      (splitWhere_ne_nil (· == separator) text)
    rw [hsplit, join_cons] at ih
    by_cases hc : c = separator
    · subst hc
      rw [splitWhere, if_pos (by simp), hsplit, join_cons, List.flatMap_cons, List.append_assoc, ih]
      rfl
    · rw [splitWhere, if_neg (by simpa using hc), hsplit, join_cons, List.cons_append, ih]

/-- What follows the last separator is the last part. -/
theorem getLast?_splitAt (separator : CodePoint) (text : Text) :
    (splitAt separator text).getLast? = some (afterLast separator text) := by
  by_cases hmem : separator ∈ text
  · obtain ⟨after, before, hreverse, hafter⟩ :=
      List.eq_append_cons_of_mem (List.mem_reverse.mpr hmem)
    have hclear : ∀ c ∈ after.reverse, (c == separator) = false := by
      intro c hc
      have hne : c ≠ separator := fun heq => hafter (heq ▸ List.mem_reverse.mp hc)
      simpa using hne
    have hkept : ∀ c ∈ after, (c != separator) = true := by
      intro c hc
      simp [bne, hclear c (List.mem_reverse.mpr hc)]
    have htext : text = before.reverse ++ separator :: after.reverse := by
      rw [← List.reverse_reverse text, hreverse]
      simp
    rw [afterLast, hreverse, List.takeWhile_append_of_pos hkept, List.takeWhile_cons_of_neg (by simp),
      List.append_nil, htext, splitAt, splitWhere_append_cons (by simp), splitWhere_self hclear]
    simp
  · have hclear : ∀ c ∈ text, (c == separator) = false := by
      intro c hc
      have hne : c ≠ separator := fun heq => hmem (heq ▸ hc)
      simpa using hne
    have hkept : text.reverse.takeWhile (· != separator) = text.reverse := by
      refine List.takeWhile_eq_self_iff.mpr fun c hc => ?_
      simp [bne, hclear c (List.mem_reverse.mp hc)]
    rw [afterLast, hkept, List.reverse_reverse, splitAt, splitWhere_self hclear]
    rfl

/-- Trimming the end stops at a character that is not of the class. -/
theorem prefix_trimEndBy {p : CodePoint → Bool} {c : CodePoint} (hc : p c = false)
    (before after : Text) : before ++ [c] <+: trimEndBy p (before ++ c :: after) := by
  have hsuffix : c :: before.reverse <:+
      (after.reverse ++ c :: before.reverse).dropWhile p := by
    rw [List.dropWhile_append]
    split
    · rw [List.dropWhile_cons_of_neg (by simp [hc])]
    · exact List.suffix_append _ _
  have hreverse := List.reverse_prefix.mpr hsuffix
  simpa [trimEndBy] using hreverse

/-- There is nothing to trim from a text without characters of the class. -/
theorem trimBy_self {p : CodePoint → Bool} {text : Text} (h : ∀ c ∈ text, p c = false) :
    trimBy p text = text := by
  have hstart : text.dropWhile p = text := by
    cases text with
    | nil => rfl
    | cons c rest => exact List.dropWhile_cons_of_neg (by simp [h c List.mem_cons_self])
  have hend : text.reverse.dropWhile p = text.reverse := by
    cases hreverse : text.reverse with
    | nil => rfl
    | cons c rest =>
      have hc := h c (List.mem_reverse.mp (hreverse ▸ List.mem_cons_self))
      exact List.dropWhile_cons_of_neg (by simp [hc])
  rw [trimBy, hstart, trimEndBy, hend, List.reverse_reverse]

theorem mem_join {separator : Text} {parts : List Text} {c : CodePoint}
    (h : c ∈ join separator parts) : c ∈ separator ∨ ∃ part ∈ parts, c ∈ part := by
  cases parts with
  | nil => simp [join] at h
  | cons part parts =>
    rw [join_cons] at h
    rcases List.mem_append.mp h with hfirst | hrest
    · exact Or.inr ⟨part, List.mem_cons_self, hfirst⟩
    · obtain ⟨p, hp, hc⟩ := List.mem_flatMap.mp hrest
      exact (List.mem_append.mp hc).imp_right fun hc => ⟨p, List.mem_cons_of_mem part hp, hc⟩

end Text

end StringCatalog
