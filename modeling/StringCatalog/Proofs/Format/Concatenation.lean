import StringCatalog.Proofs.Format.Extension
import StringCatalog.Proofs.Format.Occurrence

/-! The scan of a text behind another one. If no percent sign stands alone in the first text, no
specifier begins in it and ends in the second, and the templates of the two stand one behind the
other. A specifier in an escape may still end in the second text: it stays in a literal, but its
position is read. -/

namespace StringCatalog

namespace Text

/-- The percent signs of the text come in pairs, from left to right. -/
inductive IsPaired : Text → Prop
  | nil : IsPaired []
  | pair {s : Text} (h : IsPaired s) : IsPaired (.char '%' :: .char '%' :: s)
  | char {c : CodePoint} {s : Text} (hc : c ≠ .char '%') (h : IsPaired s) : IsPaired (c :: s)

theorem IsPaired.of_pair {s : Text} (h : IsPaired (.char '%' :: .char '%' :: s)) : s.IsPaired := by
  cases h with
  | pair h => exact h
  | char hc => exact absurd rfl hc

theorem IsPaired.of_char {c : CodePoint} {s : Text} (hc : c ≠ .char '%') (h : IsPaired (c :: s)) :
    s.IsPaired := by
  cases h with
  | pair => exact absurd rfl hc
  | char _ h => exact h

theorem IsPaired.exists_percent {s : Text} (h : IsPaired (.char '%' :: s)) :
    ∃ s', s = .char '%' :: s' := by
  cases h with
  | @pair s' => exact ⟨s', rfl⟩
  | char hc => exact absurd rfl hc

end Text

/-- Without a percent sign alone in the first text, all its tokens stay as they are. -/
theorem Token.ofText_append {a : Text} (h : .char (.char '%') ∉ ofText a) (b : Text) :
    ofText (a ++ b) = ofText a ++ ofText b := by
  induction a using ofText.induct with
  | case1 => simp
  | case2 s ih =>
    rw [ofText_escape] at h ⊢
    have hrest := ih fun hmem => h (List.mem_cons_of_mem _ hmem)
    rw [List.cons_append, List.cons_append, ofText_escape, hrest, List.cons_append]
  | case3 c s hescape found rest hread ih =>
    rw [ofText_specifier hread] at h ⊢
    have hrest := ih fun hmem => h (List.mem_cons_of_mem _ hmem)
    rw [ofText_specifier (Specifier.read?_extend hread b), hrest, List.cons_append]
  | case4 c s hescape hread ih =>
    rw [ofText_char hescape hread, List.mem_cons, not_or] at h
    have hc : c ≠ .char '%' := fun heq => h.1 (by rw [heq])
    rw [ofText_char hescape hread, List.cons_append,
      ofText_char (fun _ heq _ => hc heq) (Specifier.read?_of_ne_percent hc _), ih h.2,
      List.cons_append]

namespace Template

/-- Two templates one behind the other: a literal at the end of the first one and a literal at the
beginning of the second one become one. -/
def join : Template → Template → Template
  | [], t => t
  | [.literal x], .literal y :: t => .literal (x ++ y) :: t
  | segment :: s, t => segment :: join s t

theorem join_placeholder (p : Placeholder) (s t : Template) :
    join (.placeholder p :: s) t = .placeholder p :: join s t := by
  rw [join]
  nofun

theorem join_cons {segment : Segment} {s : Template} (hs : s ≠ []) (t : Template) :
    join (segment :: s) t = segment :: join s t := by
  rw [join]
  rintro x y t' hsegment rfl rfl
  exact hs rfl

theorem prepend_join (part : Text) (s t : Template) :
    prepend part (join s t) = join (prepend part s) t := by
  cases s with
  | nil =>
    cases t with
    | nil => rfl
    | cons first t => cases first <;> rfl
  | cons first s =>
    cases first with
    | placeholder p =>
      show prepend part (join (.placeholder p :: s) t) =
        join (.literal part :: .placeholder p :: s) t
      rw [join_cons (List.cons_ne_nil _ s), join_placeholder]
      rfl
    | literal x =>
      show prepend part (join (.literal x :: s) t) = join (.literal (part ++ x) :: s) t
      cases s with
      | cons next s =>
        rw [join_cons (List.cons_ne_nil next s), join_cons (List.cons_ne_nil next s)]
        rfl
      | nil =>
        cases t with
        | nil => rfl
        | cons first t => cases first <;> simp [join, prepend]

theorem ofTokens_append (ts us : List Token) :
    ofTokens (ts ++ us) = join (ofTokens ts) (ofTokens us) := by
  induction ts with
  | nil => rfl
  | cons token ts ih =>
    cases token with
    | escape => rw [List.cons_append, ofTokens_escape, ih, prepend_join, ofTokens_escape]
    | char c => rw [List.cons_append, ofTokens_char, ih, prepend_join, ofTokens_char]
    | specifier s => rw [List.cons_append, ofTokens, ih, ofTokens, join_placeholder]

theorem isPaired_of_prepend {part : Text} {t : Template}
    (hpart : ∀ s, (part ++ s).IsPaired → s.IsPaired)
    (h : ∀ l, .literal l ∈ prepend part t → l.IsPaired) : ∀ l, .literal l ∈ t → l.IsPaired := by
  intro l hl
  match t with
  | [] => contradiction
  | .literal x :: t =>
    rcases List.mem_cons.mp hl with heq | hrest
    · cases heq
      exact hpart l (h _ List.mem_cons_self)
    · exact h l (List.mem_cons_of_mem _ hrest)
  | .placeholder p :: t => exact h l (List.mem_cons_of_mem _ hl)

theorem exists_literal_prepend (part : Text) (t : Template) :
    ∃ x, .literal (part ++ x) ∈ prepend part t ∧ x <+: t.text := by
  match t with
  | [] => exact ⟨[], by simp [prepend], List.nil_prefix⟩
  | .literal x :: t => exact ⟨x, List.mem_cons_self, List.prefix_append x (text t)⟩
  | .placeholder p :: t => exact ⟨[], by simp [prepend], List.nil_prefix⟩

/-- If the percent signs of all literals are paired, none of them is a token of its own. -/
theorem percent_notMem_tokens {a : Text}
    (h : ∀ l, .literal l ∈ ofTokens (Token.ofText a) → l.IsPaired) :
    .char (.char '%') ∉ Token.ofText a := by
  induction a using Token.ofText.induct with
  | case1 => simp
  | case2 s ih =>
    rw [Token.ofText_escape] at h ⊢
    have hrest := ih (isPaired_of_prepend (fun _ => Text.IsPaired.of_pair) h)
    simpa using hrest
  | case3 c s hescape found rest hread ih =>
    rw [Token.ofText_specifier hread] at h ⊢
    have hrest := ih fun l hl => h l (List.mem_cons_of_mem _ hl)
    simpa using hrest
  | case4 c s hescape hread ih =>
    rw [Token.ofText_char hescape hread] at h ⊢
    by_cases hc : c = .char '%'
    · -- the next character of the literal, if there is one, is no percent sign
      obtain ⟨x, hx, hprefix⟩ := exists_literal_prepend [c] (ofTokens (Token.ofText s))
      rw [text_ofTokens, Token.flatMap_text_ofText] at hprefix
      subst hc
      obtain ⟨x', rfl⟩ := (h _ hx).exists_percent
      obtain ⟨s', rfl⟩ := hprefix
      exact absurd rfl (hescape (x' ++ s') rfl)
    · have hrest := ih (isPaired_of_prepend (fun _ => Text.IsPaired.of_char hc) h)
      simpa [Ne.symm hc] using hrest

/-- A text in which every percent sign belongs to a pair or to a placeholder, in front of any other
one, where the positions in either of them have values. The scan of both together gives the template
of the first one and behind it that of the second one, unless an escape in the first one and the
beginning of the second one make up a position without a value. -/
theorem scan_append {a b : Text} (ha : a.HasPositions) (hb : b.HasPositions)
    (hpaired : ∀ t l, scan a [] = .ok t → .literal l ∈ t → l.IsPaired) :
    ∃ s t, scan a [] = .ok s ∧ scan b [] = .ok t ∧
      ((a ++ b).HasPositions → scan (a ++ b) [] = .ok (s.join t)) ∧
      (¬(a ++ b).HasPositions → scan (a ++ b) [] = .error .numeralTooLong) := by
  have hscan := scan_of_hasPositions ha
  refine ⟨_, _, hscan, scan_of_hasPositions hb, fun hboth => ?_, scan_of_not_hasPositions⟩
  have hnotMem := percent_notMem_tokens fun l hl => hpaired _ l hscan hl
  rw [scan_of_hasPositions hboth, Token.ofText_append hnotMem, ofTokens_append]

theorem scan_append_percentage :
    Text.HasPositions "%1$d%% " ∧ Text.HasPositions "off %2$@%" ∧
    (∀ t l, scan "%1$d%% " [] = .ok t → .literal l ∈ t → l.IsPaired) ∧
    scan ("%1$d%% " ++ "off %2$@%") [] = .ok [.placeholder ⟨.int, "%1$d", some 1⟩,
      .literal "%% off ", .placeholder ⟨.object, "%2$@", some 2⟩, .literal "%"] := by
  have ha : Text.HasPositions "%1$d%% " := Text.hasPositions_of_length_le (by decide)
  have hb : Text.HasPositions "off %2$@%" := Text.hasPositions_of_length_le (by decide)
  have hboth : Text.HasPositions ("%1$d%% " ++ "off %2$@%") :=
    Text.hasPositions_of_length_le (by decide)
  have hfirst : scan "%1$d%% " [] = .ok [.placeholder ⟨.int, "%1$d", some 1⟩, .literal "%% "] := by
    decide +kernel
  have hsecond : scan "off %2$@%" [] =
      .ok [.literal "off ", .placeholder ⟨.object, "%2$@", some 2⟩, .literal "%"] := by
    decide +kernel
  have hpaired : ∀ t l, scan "%1$d%% " [] = .ok t → .literal l ∈ t → l.IsPaired := by
    intro t l ht hl
    obtain rfl := Except.ok.inj (hfirst.symm.trans ht)
    obtain rfl : l = "%% " := by simpa using hl
    exact .pair (.char (by decide) .nil)
  obtain ⟨s, t, hs, ht, hjoined, -⟩ := scan_append ha hb hpaired
  obtain rfl := Except.ok.inj (hfirst.symm.trans hs)
  obtain rfl := Except.ok.inj (hsecond.symm.trans ht)
  exact ⟨ha, hb, hpaired, hjoined hboth⟩

/-- A numeral without a percent sign before it is no position, but it is one behind an escape, whose
second percent sign begins a specifier. -/
theorem positions_behind_escape {digits : Text} (h : digits.IsNumeral)
    (hlong : longestNumeral < digits.length) :
    Text.HasPositions (digits ++ Text.ofString "$d") ∧
      ¬Text.HasPositions ("%%" ++ (digits ++ Text.ofString "$d")) := by
  let s : Specifier := ⟨some digits, none, none, none, ⟨[], .char 'd', rfl⟩⟩
  have hwf : s.WellFormed := ⟨by simpa [s] using h.digits, by simpa [s] using h.nonzero,
    by simp [s], by simp [s], by simp [s], .inl rfl⟩
  have hbody : s.body = digits ++ Text.ofString "$d" := by
    show digits ++ Text.ofString "$" ++ [] ++ [] ++ [] ++ ([] ++ [.char 'd']) = _
    simp only [List.append_nil, List.nil_append, List.append_assoc]
    rfl
  rw [← hbody]
  refine ⟨Text.hasPositions_of_percent_notMem hwf.percent_notMem, fun hpositions => ?_⟩
  have hinfix : s.text <:+: "%%" ++ s.body := ⟨[.char '%'], [], List.append_nil _⟩
  have hlength := hpositions s.text (Text.isSpecifier_iff.mpr ⟨s, hwf, rfl⟩) hinfix digits
    hwf.numeral?_text
  omega

theorem append_numeralTooLong :
    let b : Text := Text.copies (longestNumeral + 1) (.char '1') ++ Text.ofString "$d"
    Text.HasPositions "%%" ∧ b.HasPositions ∧ ∃ s t, scan "%%" [] = .ok s ∧ scan b [] = .ok t ∧
      (∀ l, .literal l ∈ s → l.IsPaired) ∧ scan ("%%" ++ b) [] = .error .numeralTooLong := by
  intro b
  have hnumeral : (Text.copies (longestNumeral + 1) (.char '1')).IsNumeral := by
    have hones : ∀ c ∈ Text.copies (longestNumeral + 1) (.char '1'), c = .char '1' :=
      fun c => List.eq_of_mem_replicate
    refine ⟨fun c hc => by rw [hones c hc]; decide, .char '1', ?_, by decide⟩
    exact List.mem_replicate.mpr ⟨Nat.succ_ne_zero _, rfl⟩
  have hlong : longestNumeral < (Text.copies (longestNumeral + 1) (.char '1')).length := by
    rw [Text.copies, List.length_replicate]
    exact Nat.lt_succ_self _
  obtain ⟨hb, hboth⟩ := positions_behind_escape hnumeral hlong
  have ha : Text.HasPositions "%%" := Text.hasPositions_of_length_le (by decide)
  have hescape : scan "%%" [] = .ok [.literal "%%"] := by decide +kernel
  refine ⟨ha, hb, _, _, hescape, scan_of_hasPositions hb, fun l hl => ?_,
    scan_of_not_hasPositions hboth⟩
  obtain rfl : l = "%%" := by simpa using hl
  exact .pair .nil

end Template

end StringCatalog
