import Mathlib.Data.List.Infix
import StringCatalog.Format.Template
import StringCatalog.Proofs.Format.Specifier

/-! Texts as sequences of tokens, read in one pass from left to right: doubled percent signs,
specifiers, and single characters. The template of a text, for which all specifiers are found first
and each is kept or dropped by the percent signs before it, is made of exactly these tokens. -/

namespace StringCatalog

/-- What stands at one place of a text: an escaped percent sign, a character that stands for itself,
or a specifier. -/
inductive Token where
  | escape
  | char (c : CodePoint)
  | specifier (s : Specifier)

namespace Token

/-- The token as written. -/
def text : Token → Text
  | escape => "%%"
  | char c => [c]
  | specifier s => s.text

theorem text_escape : escape.text = [.char '%', .char '%'] := rfl

/-- The tokens of a text. -/
def ofText : Text → List Token
  | [] => []
  | .char '%' :: .char '%' :: s => .escape :: ofText s
  | c :: s =>
    match _ : Specifier.read? (c :: s) with
    | some (found, rest) => .specifier found :: ofText rest
    | none => .char c :: ofText s
termination_by s => s.length
decreasing_by
  · simp only [List.length_cons]
    omega
  · rename_i hread
    have := congrArg List.length (Specifier.read?_eq_some hread).1
    simp only [Specifier.text_eq_cons_body, List.length_append, List.length_cons] at this
    simp only [List.length_cons]
    omega
  · simp

@[simp] theorem ofText_nil : ofText [] = [] := by
  rw [ofText]

theorem ofText_escape (s : Text) :
    ofText (.char '%' :: .char '%' :: s) = .escape :: ofText s := by
  rw [ofText]

theorem ofText_specifier {s rest : Text} {found : Specifier}
    (h : Specifier.read? s = some (found, rest)) : ofText s = .specifier found :: ofText rest := by
  cases s with
  | nil => contradiction
  | cons c s =>
    rw [ofText]
    · split
      · rename_i hread
        rw [h] at hread
        cases hread
        rfl
      · rename_i hread
        rw [h] at hread
        contradiction
    · rintro s' rfl rfl
      rw [Specifier.read?_percent_percent] at h
      contradiction

theorem ofText_char {c : CodePoint} {s : Text}
    (hescape : ∀ s', c = .char '%' → s = .char '%' :: s' → False)
    (h : Specifier.read? (c :: s) = none) : ofText (c :: s) = .char c :: ofText s := by
  rw [ofText]
  · split
    · rename_i hread
      rw [h] at hread
      contradiction
    · rfl
  · exact hescape

/-- The tokens make up the text. -/
theorem flatMap_text_ofText (s : Text) : (ofText s).flatMap text = s := by
  induction s using ofText.induct with
  | case1 => simp
  | case2 s ih =>
    rw [ofText_escape, List.flatMap_cons, ih]
    rfl
  | case3 c s hescape found rest hread ih =>
    rw [ofText_specifier hread, List.flatMap_cons, ih, (Specifier.read?_eq_some hread).1]
    rfl
  | case4 c s hescape hread ih =>
    rw [ofText_char hescape hread, List.flatMap_cons, ih]
    rfl

/-- A specifier among the tokens of a text is one that is read in it. -/
theorem wellFormed_of_mem_ofText {s : Text} {found : Specifier}
    (h : specifier found ∈ ofText s) : found.WellFormed := by
  induction s using ofText.induct with
  | case1 => simp at h
  | case2 s ih =>
    rw [ofText_escape] at h
    exact ih (by simpa using h)
  | case3 c s hescape found' rest hread ih =>
    rw [ofText_specifier hread] at h
    rcases List.mem_cons.mp h with hfirst | hrest
    · cases hfirst
      exact (Specifier.read?_eq_some hread).2
    · exact ih hrest
  | case4 c s hescape hread ih =>
    rw [ofText_char hescape hread] at h
    exact ih (by simpa using h)

end Token

namespace Template

/-- A template behind some text, which belongs to its first literal if it begins with one. -/
def prepend (part : Text) : Template → Template
  | .literal t :: rest => .literal (part ++ t) :: rest
  | rest => .literal part :: rest

/-- The template of a list of tokens, in which neighbouring tokens without a placeholder between
them make up one literal. -/
def ofTokens : List Token → Template
  | [] => []
  | .specifier s :: rest => .placeholder (placeholderOf s) :: ofTokens rest
  | token :: rest => prepend token.text (ofTokens rest)

theorem ofTokens_escape (ts : List Token) :
    ofTokens (.escape :: ts) = prepend Token.escape.text (ofTokens ts) := rfl

theorem ofTokens_char (c : CodePoint) (ts : List Token) :
    ofTokens (.char c :: ts) = prepend (Token.char c).text (ofTokens ts) := rfl

end Template

/-! ### The pieces of a text -/

namespace Piece

theorem splitFrom_eq_drop (n : Nat) (s : Text) : splitFrom n s = split (s.drop n) := by
  induction s generalizing n with
  | nil => cases n <;> rfl
  | cons c s ih =>
    cases n with
    | zero => rfl
    | succ n => exact ih n

theorem split_of_read?_none {c : CodePoint} {s : Text} (h : Specifier.read? (c :: s) = none) :
    split (c :: s) = .char c :: split s := by
  simp only [split, splitFrom, h]

theorem split_of_read?_some {s rest : Text} {found : Specifier}
    (h : Specifier.read? s = some (found, rest)) :
    split s = .specifier found :: split rest := by
  have hs := (Specifier.read?_eq_some h).1
  rw [Specifier.text_eq_cons_body, List.cons_append] at hs
  subst hs
  simp only [split, splitFrom, h]
  rw [splitFrom_eq_drop, Specifier.text_eq_cons_body, List.length_cons, Nat.add_sub_cancel,
    List.drop_left]
  rfl

/-- A text without percent signs in front of another one adds its characters. -/
theorem split_append {before : Text} (h : CodePoint.char '%' ∉ before) (s : Text) :
    split (before ++ s) = before.map .char ++ split s := by
  induction before with
  | nil => rfl
  | cons c before ih =>
    simp only [List.mem_cons, not_or] at h
    rw [List.cons_append, split_of_read?_none (Specifier.read?_of_ne_percent (Ne.symm h.1) _),
      ih h.2]
    rfl

/-- Induction along the pieces of a text. -/
@[elab_as_elim]
theorem split_induction {motive : Text → Prop} (nil : motive [])
    (char : ∀ c s, Specifier.read? (c :: s) = none → motive s → motive (c :: s))
    (specifier : ∀ s found rest, Specifier.read? s = some (found, rest) → motive rest → motive s)
    (s : Text) : motive s := by
  induction hn : s.length using Nat.strong_induction_on generalizing s with
  | _ n ih =>
  subst hn
  cases s with
  | nil => exact nil
  | cons c s =>
    cases hread : Specifier.read? (c :: s) with
    | none => exact char c s hread (ih s.length (by simp) s rfl)
    | some pair =>
      obtain ⟨found, rest⟩ := pair
      have hlength := congrArg List.length (Specifier.read?_eq_some hread).1
      simp only [Specifier.text_eq_cons_body, List.length_append, List.length_cons] at hlength
      have hshorter : rest.length < (c :: s).length := by
        rw [List.length_cons]
        omega
      exact specifier _ found rest hread (ih rest.length hshorter rest rfl)

/-- Specifiers do not overlap, so all that begin anywhere in the text are among its pieces. -/
theorem specifiers_split (s : Text) :
    specifiers (split s) = s.tails.filterMap fun tail => (Specifier.read? tail).map (·.1) := by
  have skip : ∀ before : Text, CodePoint.char '%' ∉ before → ∀ s : Text,
      ((before ++ s).tails.filterMap fun tail => (Specifier.read? tail).map (·.1)) =
        s.tails.filterMap fun tail => (Specifier.read? tail).map (·.1) := by
    intro before hbefore s
    induction before with
    | nil => rfl
    | cons c before ih =>
      simp only [List.mem_cons, not_or] at hbefore
      rw [List.cons_append, List.tails_cons, List.filterMap_cons,
        Specifier.read?_of_ne_percent (Ne.symm hbefore.1), ← ih hbefore.2]
      rfl
  induction s using split_induction with
  | nil => rfl
  | char c s hread ih =>
    rw [split_of_read?_none hread]
    simpa [specifiers, hread] using ih
  | specifier s found rest hread ih =>
    obtain ⟨hs, hwf⟩ := Specifier.read?_eq_some hread
    rw [split_of_read?_some hread]
    rw [Specifier.text_eq_cons_body, List.cons_append] at hs
    subst hs
    rw [List.tails_cons, List.filterMap_cons, hread, skip _ hwf.percent_notMem, ← ih]
    rfl

end Piece

namespace Template

/-! ### Templates under way -/

/-- A template behind a pending text, which is given reversed. -/
def behind : Text → Template → Template
  | [], t => t
  | pending, t => prepend pending.reverse t

theorem prepend_prepend (before part : Text) (t : Template) :
    prepend before (prepend part t) = prepend (before ++ part) t := by
  cases t with
  | nil => rfl
  | cons segment rest => cases segment <;> simp [prepend]

theorem behind_cons (c : CodePoint) (pending : Text) (t : Template) :
    behind (c :: pending) t = behind pending (prepend [c] t) := by
  cases pending with
  | nil => rfl
  | cons d pending => simp [behind, prepend_prepend]

theorem behind_nil (pending : Text) : behind pending [] = flush pending := by
  cases pending <;> rfl

theorem behind_placeholder (pending : Text) (p : Placeholder) (t : Template) :
    behind pending (.placeholder p :: t) = flush pending ++ .placeholder p :: t := by
  cases pending <;> rfl

theorem endsInLonePercent_percent (pending : Text) :
    endsInLonePercent (.char '%' :: pending) = !endsInLonePercent pending := by
  simp only [endsInLonePercent, List.takeWhile_cons, BEq.rfl, if_true, List.length_cons]
  grind

theorem endsInLonePercent_of_ne {c : CodePoint} (hc : c ≠ .char '%') (pending : Text) :
    endsInLonePercent (c :: pending) = false := by
  simp [endsInLonePercent, hc]

theorem ofPieces_chars (before pending : Text) (ps : List Piece) :
    ofPieces pending (before.map .char ++ ps) = ofPieces (before.reverse ++ pending) ps := by
  induction before generalizing pending with
  | nil => rfl
  | cons c before ih => simp [ofPieces, ih]

/-- A specifier leaves no percent sign alone at its end. -/
theorem endsInLonePercent_specifier (s : Specifier) (pending : Text) :
    endsInLonePercent (s.text.reverse ++ pending) = false := by
  have htext : s.text.reverse = s.conversion.letter ::
      (.char '%' :: (Specifier.numeralText s.numeral ++ s.flag.toList ++ s.width.toList ++
        Specifier.precisionText s.precision ++ s.conversion.modifier)).reverse := by
    simp [Specifier.text_eq_cons_body, Specifier.body, Conversion.text]
  rw [htext, List.cons_append]
  exact endsInLonePercent_of_ne s.conversion.letter_ne_percent _

/-- No percent sign at the end of the pending text is still to be paired with the first character of
the text that follows. -/
def Settled (pending s : Text) : Prop :=
  endsInLonePercent pending = true → s.head? ≠ some (.char '%')

theorem Settled.nil (s : Text) : Settled [] s := fun h => by simp [endsInLonePercent] at h

theorem Settled.percent {pending s : Text} (h : Settled pending (.char '%' :: s)) :
    endsInLonePercent pending = false := by
  by_contra hodd
  exact h (by simpa using hodd) rfl

theorem Settled.escape {pending s : Text} (h : Settled pending (.char '%' :: s)) (t : Text) :
    Settled (.char '%' :: .char '%' :: pending) t := by
  intro hodd
  simp [endsInLonePercent_percent, h.percent] at hodd

theorem Settled.specifier (s : Specifier) (pending t : Text) :
    Settled (s.text.reverse ++ pending) t := by
  intro hodd
  simp [endsInLonePercent_specifier] at hodd

theorem Settled.char {c : CodePoint} {s : Text}
    (hescape : ∀ s', c = .char '%' → s = .char '%' :: s' → False) (pending : Text) :
    Settled (c :: pending) s := by
  intro hodd hhead
  have hc : c = .char '%' := by
    by_contra hne
    simp [endsInLonePercent_of_ne hne] at hodd
  obtain ⟨s', rfl⟩ := List.head?_eq_some_iff.mp hhead
  exact hescape s' hc rfl

/-- The scan of a text behind a settled one goes on as the tokens of the text say. -/
theorem ofPieces_split {s pending : Text} (h : Settled pending s) :
    ofPieces pending (Piece.split s) = behind pending (ofTokens (Token.ofText s)) := by
  induction s using Token.ofText.induct generalizing pending with
  | case1 => simp [Piece.split, Piece.splitFrom, ofPieces, ofTokens, behind_nil]
  | case2 s ih =>
    have hgoal : ofPieces (.char '%' :: .char '%' :: pending) (Piece.split s) =
        behind pending (ofTokens (Token.ofText (.char '%' :: .char '%' :: s))) := by
      rw [ih (h.escape s), behind_cons, behind_cons, prepend_prepend, Token.ofText_escape]
      rfl
    rw [Piece.split_of_read?_none (Specifier.read?_percent_percent s), ofPieces, ← hgoal]
    cases hread : Specifier.read? (.char '%' :: s) with
    | none => rw [Piece.split_of_read?_none hread, ofPieces]
    | some pair =>
      -- the second sign of the escape begins a specifier, which goes into the literal as a whole
      obtain ⟨found, rest⟩ := pair
      obtain ⟨hs, hwf⟩ := Specifier.read?_eq_some hread
      rw [Specifier.text_eq_cons_body, List.cons_append, List.cons.injEq] at hs
      rw [Piece.split_of_read?_some hread, ofPieces, endsInLonePercent_percent, h.percent, hs.2,
        Piece.split_append hwf.percent_notMem, ofPieces_chars]
      simp [Specifier.text_eq_cons_body]
  | case3 c s hescape found rest hread ih =>
    have heven : endsInLonePercent pending = false := by
      obtain rfl := Specifier.eq_percent_of_read?_some hread
      exact h.percent
    rw [Piece.split_of_read?_some hread, ofPieces, heven, ih (Settled.nil rest),
      Token.ofText_specifier hread, ofTokens, behind_placeholder]
    rfl
  | case4 c s hescape hread ih =>
    rw [Piece.split_of_read?_none hread, ofPieces, ih (Settled.char hescape pending), behind_cons,
      Token.ofText_char hescape hread]
    rfl

/-- The template of a text without markers is that of its tokens, unless some specifier in it,
escaped or not, has a position without a value. -/
theorem ofText_eq (text : Text) :
    ofText text = if (Piece.specifiers (Piece.split text)).any Specifier.isOverlong then
      .error .numeralTooLong else .ok (ofTokens (Token.ofText text)) := by
  simp only [ofText]
  rw [ofPieces_split (Settled.nil text)]
  rfl

/-! ### The shape of a template of tokens -/

theorem text_prepend (part : Text) (t : Template) : text (prepend part t) = part ++ text t := by
  cases t with
  | nil => simp [prepend, text, Segment.text]
  | cons segment rest => cases segment <;> simp [prepend, text, Segment.text]

theorem text_ofTokens (ts : List Token) : text (ofTokens ts) = ts.flatMap Token.text := by
  induction ts with
  | nil => rfl
  | cons token ts ih =>
    cases token with
    | specifier s => simp [ofTokens, text, Segment.text, Token.text, placeholderOf, ← ih]
    | escape => rw [ofTokens, text_prepend, ih, List.flatMap_cons]; simp
    | char c => rw [ofTokens, text_prepend, ih, List.flatMap_cons]; simp

theorem placeholders_prepend (part : Text) (t : Template) :
    (prepend part t).placeholders = t.placeholders := by
  cases t with
  | nil => rfl
  | cons segment rest => cases segment <;> rfl

/-- No literal is empty, and there is a placeholder between any two literals. -/
structure Normal (t : Template) : Prop where
  nonempty : .literal [] ∉ t
  separate : ∀ before a b after, t ≠ before ++ .literal a :: .literal b :: after

theorem Normal.placeholder {t : Template} (h : Normal t) (p : Placeholder) :
    Normal (.placeholder p :: t) := by
  refine ⟨by simp [h.nonempty], fun before a b after heq => ?_⟩
  cases before with
  | nil => simp at heq
  | cons segment before => exact h.separate before a b after (List.cons.inj heq).2

theorem Normal.prepend {t : Template} (h : Normal t) {part : Text} (hpart : part ≠ []) :
    Normal (prepend part t) := by
  cases t with
  | nil =>
    refine ⟨by simpa [Template.prepend] using hpart.symm, fun before a b after heq => ?_⟩
    have := congrArg List.length heq
    simp only [Template.prepend, List.length_append, List.length_cons, List.length_nil] at this
    omega
  | cons segment rest =>
    cases segment with
    | literal text =>
      refine ⟨?_, fun before a b after heq => ?_⟩
      · have := h.nonempty
        simp [Template.prepend, hpart] at this ⊢
        exact this.2
      · cases before with
        | nil =>
          have hrest := (List.cons.inj heq).2
          exact h.separate [] text b after (by rw [hrest]; rfl)
        | cons first before =>
          have hrest := (List.cons.inj heq).2
          exact h.separate (.literal text :: before) a b after (by rw [hrest]; rfl)
    | placeholder p =>
      refine ⟨?_, fun before a b after heq => ?_⟩
      · have := h.nonempty
        simp [Template.prepend, hpart.symm] at this ⊢
        exact this
      · cases before with
        | nil => simp [Template.prepend] at heq
        | cons first before => exact h.separate before a b after (List.cons.inj heq).2

theorem normal_ofTokens (ts : List Token) : Normal (ofTokens ts) := by
  induction ts with
  | nil =>
    refine ⟨by simp [ofTokens], fun before a b after heq => ?_⟩
    cases before <;> simp [ofTokens] at heq
  | cons token ts ih =>
    cases token with
    | specifier s => exact ih.placeholder _
    | escape => exact ih.prepend (by decide)
    | char c => exact ih.prepend (by simp [Token.text])

/-- A placeholder behind a prepended text is one of the template itself. -/
theorem eq_append_of_prepend {part : Text} {t before after : Template} {p : Placeholder}
    (h : prepend part t = before ++ .placeholder p :: after) :
    ∃ before', t = before' ++ .placeholder p :: after ∧ text before = part ++ text before' := by
  match t, before with
  | [], [] => simp [prepend] at h
  | [], _ :: before => simp [prepend] at h
  | .literal _ :: _, [] => simp [prepend] at h
  | .literal x :: rest, _ :: before =>
    obtain ⟨rfl, rfl⟩ := List.cons.inj h
    exact ⟨.literal x :: before, rfl, by simp [text, Segment.text]⟩
  | .placeholder _ :: _, [] => simp [prepend] at h
  | .placeholder _ :: _, _ :: before =>
    obtain ⟨rfl, hrest⟩ := List.cons.inj h
    exact ⟨before, hrest, by simp [text, Segment.text]⟩

/-- A placeholder of a template of tokens is a specifier among the tokens, behind those that make up
the segments before it. -/
theorem exists_token_of_placeholder {ts : List Token} {before after : Template} {p : Placeholder}
    (h : ofTokens ts = before ++ .placeholder p :: after) :
    ∃ passed s rest, ts = passed ++ .specifier s :: rest ∧ p = placeholderOf s ∧
      passed.flatMap Token.text = text before := by
  induction ts generalizing before with
  | nil => simp [ofTokens] at h
  | cons token ts ih =>
    -- a token that is no specifier only adds its text to what comes before
    have verbatim : ofTokens (token :: ts) = prepend token.text (ofTokens ts) →
        ∃ passed s rest, token :: ts = passed ++ .specifier s :: rest ∧ p = placeholderOf s ∧
          passed.flatMap Token.text = text before := by
      intro htoken
      obtain ⟨before', hbefore, htext⟩ := eq_append_of_prepend (htoken.symm.trans h)
      obtain ⟨passed, s, rest, rfl, hp, hpassed⟩ := ih hbefore
      exact ⟨token :: passed, s, rest, rfl, hp, by rw [List.flatMap_cons, hpassed, htext]⟩
    cases token with
    | escape => exact verbatim rfl
    | char c => exact verbatim rfl
    | specifier s =>
      cases before with
      | nil =>
        obtain ⟨hp, -⟩ := List.cons.inj h
        exact ⟨[], s, ts, rfl, (Segment.placeholder.inj hp).symm, rfl⟩
      | cons segment before =>
        obtain ⟨rfl, hrest⟩ := List.cons.inj h
        obtain ⟨passed, s', rest, rfl, hp, hpassed⟩ := ih hrest
        refine ⟨.specifier s :: passed, s', rest, rfl, hp, ?_⟩
        rw [List.flatMap_cons, hpassed]
        rfl

/-- A specifier among the tokens of a text is read behind the tokens before it, and these leave no
percent sign alone. -/
theorem read?_of_mem_tokens {s pending : Text} {passed rest : List Token} {found : Specifier}
    (h : Token.ofText s = passed ++ .specifier found :: rest) (hpending : Settled pending s) :
    endsInLonePercent ((passed.flatMap Token.text).reverse ++ pending) = false ∧
      ∃ tail, Specifier.read? (s.drop (passed.flatMap Token.text).length) = some (found, tail) := by
  induction s using Token.ofText.induct generalizing pending passed with
  | case1 => simp at h
  | case2 s ih =>
    rw [Token.ofText_escape] at h
    cases passed with
    | nil => simp at h
    | cons token passed =>
      obtain ⟨rfl, htokens⟩ := List.cons.inj h
      obtain ⟨heven, hread⟩ := ih htokens (hpending.escape s)
      exact ⟨by simpa [Token.text_escape] using heven, by simpa [Token.text_escape] using hread⟩
  | case3 c s hescape found' rest' hread ih =>
    rw [Token.ofText_specifier hread] at h
    cases passed with
    | nil =>
      obtain ⟨htoken, -⟩ := List.cons.inj h
      cases htoken
      obtain rfl := Specifier.eq_percent_of_read?_some hread
      exact ⟨hpending.percent, rest', hread⟩
    | cons token passed =>
      obtain ⟨rfl, htokens⟩ := List.cons.inj h
      obtain ⟨heven, hread'⟩ := ih htokens (Settled.specifier found' pending rest')
      rw [(Specifier.read?_eq_some hread).1]
      exact ⟨by simpa [Token.text] using heven, by simpa [Token.text] using hread'⟩
  | case4 c s hescape hread ih =>
    rw [Token.ofText_char hescape hread] at h
    cases passed with
    | nil => simp at h
    | cons token passed =>
      obtain ⟨rfl, htokens⟩ := List.cons.inj h
      obtain ⟨heven, hread'⟩ := ih htokens (Settled.char hescape pending)
      exact ⟨by simpa [Token.text] using heven, by simpa [Token.text] using hread'⟩

end Template

example : Template.ofTokens (Token.ofText "%%d%d%") =
    [.literal "%%d", .placeholder ⟨.int, "%d", none⟩, .literal "%"] := by decide +kernel

end StringCatalog
