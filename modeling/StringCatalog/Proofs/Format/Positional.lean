import StringCatalog.Format.Argument
import StringCatalog.Proofs.Format.Extension
import StringCatalog.Proofs.Format.Scan

/-! Positional texts: sequences of characters, escaped percent signs and specifiers whose arguments
are numbered. Such a text is read the same in front of any other text, and the slots of its
placeholders are the positions that it gives. -/

namespace StringCatalog

namespace Token

/-- The token is an escape, a character that begins no specifier or marker, or a complete specifier
with a position and without the flag that markers begin with. -/
def IsPositional : Token → Prop
  | escape => True
  | char c => c ≠ .char '%' ∧ c ≠ .char '#'
  | specifier s =>
    Specifier.ofText? s.text = some s ∧ s.numeral.isSome ∧ s.flag ≠ some (.char '#')

instance : DecidablePred IsPositional
  | escape => .isTrue trivial
  | char c => inferInstanceAs (Decidable (c ≠ .char '%' ∧ c ≠ .char '#'))
  | specifier s => inferInstanceAs (Decidable (Specifier.ofText? s.text = some s ∧
      s.numeral.isSome ∧ s.flag ≠ some (.char '#')))

theorem read?_of_ofText? {s : Specifier} (h : Specifier.ofText? s.text = some s) (rest : Text) :
    Specifier.read? (s.text ++ rest) = some (s, rest) := by
  unfold Specifier.ofText? at h
  split at h
  · rename_i whole hread
    cases h
    simpa using Specifier.read?_extend hread rest
  · contradiction

/-- A positional token is read as itself in front of any text. -/
theorem ofText_text_append {token : Token} (h : token.IsPositional) (rest : Text) :
    ofText (token.text ++ rest) = token :: ofText rest := by
  cases token with
  | escape => exact ofText_escape rest
  | char c =>
    exact ofText_char (fun _ hc _ => h.1 hc) (Specifier.read?_of_ne_percent h.1 rest)
  | specifier s => exact ofText_specifier (read?_of_ofText? h.1 rest)

theorem ofText_flatMap_append {tokens : List Token} (h : ∀ token ∈ tokens, token.IsPositional)
    (rest : Text) : ofText (tokens.flatMap text ++ rest) = tokens ++ ofText rest := by
  induction tokens with
  | nil => rfl
  | cons token tokens ih =>
    have hrest := ih fun t ht => h t (List.mem_cons_of_mem token ht)
    rw [List.flatMap_cons, List.append_assoc, ofText_text_append (h token List.mem_cons_self),
      hrest, List.cons_append]

theorem IsPositional.hash_notMem {token : Token} (h : token.IsPositional) :
    CodePoint.char '#' ∉ token.text := by
  cases token with
  | escape => decide
  | char c => simpa [text] using Ne.symm h.2
  | specifier s =>
    have hread := read?_of_ofText? h.1 []
    exact (Specifier.read?_eq_some hread).2.hash_notMem h.2.2

end Token

namespace Text

/-- The text is a sequence of positional tokens. -/
def IsPositional (s : Text) : Prop :=
  ∃ tokens : List Token, s = tokens.flatMap Token.text ∧ ∀ token ∈ tokens, token.IsPositional

/-- The tokens that make up a positional text are those that are read in it. -/
theorem isPositional_iff {s : Text} :
    s.IsPositional ↔ ∀ token ∈ Token.ofText s, token.IsPositional := by
  constructor
  · rintro ⟨tokens, rfl, htokens⟩
    have hread := Token.ofText_flatMap_append htokens []
    rw [List.append_nil, Token.ofText_nil, List.append_nil] at hread
    rwa [hread]
  · intro h
    exact ⟨Token.ofText s, (Token.flatMap_text_ofText s).symm, h⟩

instance : DecidablePred IsPositional := fun _ => decidable_of_iff' _ isPositional_iff

namespace IsPositional

variable {s t : Text}

/-- A positional text is read the same in front of any other text. -/
theorem ofText_append (h : s.IsPositional) (rest : Text) :
    Token.ofText (s ++ rest) = Token.ofText s ++ Token.ofText rest := by
  have hread := Token.ofText_flatMap_append (isPositional_iff.mp h) rest
  rwa [Token.flatMap_text_ofText] at hread

theorem hash_notMem (h : s.IsPositional) : CodePoint.char '#' ∉ s := by
  obtain ⟨tokens, rfl, htokens⟩ := h
  intro hmem
  obtain ⟨token, htoken, hhash⟩ := List.mem_flatMap.mp hmem
  exact (htokens token htoken).hash_notMem hhash

end IsPositional

end Text

namespace Template

/-- The placeholders of a template of tokens are those of its specifiers. -/
theorem mem_placeholders_ofTokens {tokens : List Token} {p : Placeholder} :
    p ∈ (ofTokens tokens).placeholders ↔ ∃ s, .specifier s ∈ tokens ∧ p = placeholderOf s := by
  induction tokens with
  | nil => simp [ofTokens, placeholders]
  | cons token tokens ih =>
    cases token with
    | escape => simp [ofTokens, placeholders_prepend, ih]
    | char c => simp [ofTokens, placeholders_prepend, ih]
    | specifier s =>
      have hcons : (ofTokens (.specifier s :: tokens)).placeholders =
          placeholderOf s :: (ofTokens tokens).placeholders := rfl
      rw [hcons, List.mem_cons, ih]
      constructor
      · rintro (rfl | ⟨s', hs', rfl⟩)
        · exact ⟨s, List.mem_cons_self, rfl⟩
        · exact ⟨s', List.mem_cons_of_mem _ hs', rfl⟩
      · rintro ⟨s', hs', rfl⟩
        rcases List.mem_cons.mp hs' with heq | hrest
        · cases heq
          exact Or.inl rfl
        · exact Or.inr ⟨s', hrest, rfl⟩

/-- Placeholders that all have a number take it as their slot. -/
theorem assignSlots_of_numbered {key whole : Text} {done : List Slotted} {ps : List Placeholder}
    (hdone : ∀ d ∈ done, d.1.position.isSome) (hps : ∀ p ∈ ps, p.position.isSome) :
    assignSlots key whole done ps = .ok (done ++ ps.map fun p => (p, p.position.getD 0)) := by
  induction ps generalizing done with
  | nil => simp [assignSlots]
  | cons p ps ih =>
    have hp := hps p List.mem_cons_self
    obtain ⟨n, hn⟩ := Option.isSome_iff_exists.mp hp
    have hfree : claimant? done p.position.isNone (slotAfter done p) = none := by
      have hnone : (done.find? fun d =>
          d.1.position.isSome == p.position.isNone && d.2 == slotAfter done p) = none := by
        rw [List.find?_eq_none]
        intro d hd
        simp [hdone d hd, hn]
      rw [claimant?, hnone]
      rfl
    have hslot : slotAfter done p = p.position.getD 0 := by simp [slotAfter, hn]
    have hdone' : ∀ d ∈ done ++ [(p, slotAfter done p)], d.1.position.isSome := by
      intro d hd
      rcases List.mem_append.mp hd with hold | hnew
      · exact hdone d hold
      · rw [List.mem_singleton.mp hnew]
        exact hp
    rw [assignSlots]
    simp only [hfree]
    rw [ih hdone' fun q hq => hps q (List.mem_cons_of_mem p hq), hslot]
    simp

theorem slots_of_numbered {t : Template} (h : ∀ p ∈ t.placeholders, p.position.isSome)
    (key : Text) : t.slots key = .ok (t.placeholders.map fun p => (p, p.position.getD 0)) :=
  assignSlots_of_numbered (by simp) h

/-- A specifier that begins anywhere in a text, and not behind a lone percent sign, is among the
tokens of the text. -/
theorem mem_tokens_of_read? {s pending tail : Text} {found : Specifier} {n : Nat}
    (hread : Specifier.read? (s.drop n) = some (found, tail)) (hpending : Settled pending s)
    (heven : endsInLonePercent ((s.take n).reverse ++ pending) = false) :
    .specifier found ∈ Token.ofText s := by
  induction s using Token.ofText.induct generalizing pending n with
  | case1 => simp [Specifier.read?] at hread
  | case2 s ih =>
    rw [Token.ofText_escape]
    cases n with
    | zero => simp [Specifier.read?_percent_percent] at hread
    | succ n =>
      cases n with
      | zero =>
        have hodd := endsInLonePercent_percent pending
        rw [hpending.percent] at hodd
        simp [hodd] at heven
      | succ n =>
        refine List.mem_cons_of_mem _ (ih hread (hpending.escape s) ?_)
        simpa using heven
  | case3 c s hescape found' rest' hread' ih =>
    rw [Token.ofText_specifier hread']
    obtain ⟨hs, hwf⟩ := Specifier.read?_eq_some hread'
    by_cases hlate : found'.text.length ≤ n
    · -- the specifier begins behind the one that is read here
      obtain ⟨k, rfl⟩ := Nat.exists_eq_add_of_le hlate
      rw [hs, List.drop_append, List.drop_of_length_le (by omega), List.nil_append,
        Nat.add_sub_cancel_left] at hread
      rw [hs, List.take_append, List.take_of_length_le (by omega), Nat.add_sub_cancel_left,
        List.reverse_append, List.append_assoc] at heven
      exact List.mem_cons_of_mem _ (ih hread (Settled.specifier found' pending rest') heven)
    · cases n with
      | zero =>
        rw [List.drop_zero, hread', Option.some.injEq, Prod.mk.injEq] at hread
        rw [hread.1]
        exact List.mem_cons_self
      | succ n =>
        -- inside of a specifier there is no percent sign to begin with
        rw [Specifier.text_eq_cons_body, List.length_cons] at hlate
        have hn : n < found'.body.length := by omega
        rw [hs, Specifier.text_eq_cons_body, List.cons_append, List.drop_succ_cons,
          List.drop_append, List.drop_eq_getElem_cons hn, List.cons_append] at hread
        have hpercent := Specifier.eq_percent_of_read?_some hread
        exact absurd (hpercent ▸ List.getElem_mem hn) hwf.percent_notMem
  | case4 c s hescape hread' ih =>
    rw [Token.ofText_char hescape hread']
    cases n with
    | zero => simp [hread'] at hread
    | succ n =>
      refine List.mem_cons_of_mem _ (ih hread (Settled.char hescape pending) ?_)
      simpa using heven

end Template

end StringCatalog
