import Mathlib.Order.Bounds.Defs
import StringCatalog.Proofs.Text.Basic
import StringCatalog.Swift.Literal

/-! Delimiters of raw literals: the search for one ends at the shortest run of number signs that the
text does not have behind a quotation mark or a backslash. How long that run can be is known from
the runs behind these characters. -/

namespace StringCatalog.Swift

/-- A run of number signs. -/
def signs (n : Nat) : Text := Text.copies n '#'

theorem length_signs (n : Nat) : (signs n).length = n := List.length_replicate

theorem signs_succ (n : Nat) : signs (n + 1) = .char '#' :: signs n := rfl

theorem signs_append_sign (n : Nat) : signs n ++ ("#" : Text) = signs (n + 1) :=
  List.replicate_succ'.symm

theorem breaksDelimiter_iff {text delimiter : Text} :
    breaksDelimiter text delimiter = true ↔
      .char '"' :: delimiter <:+: text ∨ .char '\\' :: delimiter <:+: text := by
  rw [breaksDelimiter, Bool.or_eq_true, Text.hasInfix_iff, Text.hasInfix_iff]

/-- A delimiter in the text is shorter than the text. -/
theorem length_lt_of_breaksDelimiter {text delimiter : Text}
    (h : breaksDelimiter text delimiter = true) : delimiter.length < text.length := by
  rcases breaksDelimiter_iff.mp h with hquote | hbackslash
  · exact hquote.length_le
  · exact hbackslash.length_le

theorem breaksDelimiter_append {text delimiter : Text} (h : breaksDelimiter text delimiter = true)
    (before : Text) : breaksDelimiter (before ++ text) delimiter = true := by
  have hsuffix := (List.suffix_append before text).isInfix
  rcases breaksDelimiter_iff.mp h with hquote | hbackslash
  · exact breaksDelimiter_iff.mpr (Or.inl (hquote.trans hsuffix))
  · exact breaksDelimiter_iff.mpr (Or.inr (hbackslash.trans hsuffix))

/-- A quotation mark or a backslash with the delimiter behind it breaks the delimiter. -/
theorem breaksDelimiter_cons {c : CodePoint} {text delimiter : Text}
    (hc : c = .char '"' ∨ c = .char '\\') (h : delimiter <+: text) :
    breaksDelimiter (c :: text) delimiter = true := by
  have hprefix : c :: delimiter <:+: c :: text := (List.cons_prefix_cons.mpr ⟨rfl, h⟩).isInfix
  rcases hc with rfl | rfl
  · exact breaksDelimiter_iff.mpr (Or.inl hprefix)
  · exact breaksDelimiter_iff.mpr (Or.inr hprefix)

/-! ### The runs behind quotation marks and backslashes -/

/-- Neither a quotation mark nor a backslash has that many number signs behind it in the text. -/
def IsSafe (text : Text) (n : Nat) : Prop :=
  ¬.char '"' :: signs n <:+: text ∧ ¬.char '\\' :: signs n <:+: text

theorem isSafe_iff_breaksDelimiter {text : Text} {n : Nat} :
    IsSafe text n ↔ breaksDelimiter text (signs n) = false := by
  rw [IsSafe, ← not_or, ← breaksDelimiter_iff, Bool.not_eq_true]

/-- How many number signs the text begins with. -/
def leadingSigns (text : Text) : Nat := (text.takeWhile (· == .char '#')).length

theorem signs_prefix_iff {n : Nat} {text : Text} : signs n <+: text ↔ n ≤ leadingSigns text := by
  induction text generalizing n with
  | nil =>
    rw [List.prefix_nil, ← List.length_eq_zero_iff, length_signs]
    exact Nat.le_zero.symm
  | cons c text ih =>
    cases n with
    | zero => exact iff_of_true List.nil_prefix (Nat.zero_le _)
    | succ n =>
      rw [signs_succ, List.cons_prefix_cons, ih, leadingSigns, leadingSigns]
      by_cases hc : c = .char '#'
      · simp [hc]
      · simp [hc, Ne.symm hc]

/-- The lengths of the runs of number signs that directly follow the quotation marks and the
backslashes of a text. A run may be empty. -/
def signRuns : Text → List Nat
  | [] => []
  | c :: text =>
    if c = .char '"' ∨ c = .char '\\' then leadingSigns text :: signRuns text else signRuns text

/-- The longest of the runs, or zero if the text has neither quotation marks nor backslashes. -/
def longestRun (text : Text) : Nat := (signRuns text).max?.getD 0

theorem isSafe_cons {c : CodePoint} {text : Text} {n : Nat} :
    IsSafe (c :: text) n ↔
      ((c = .char '"' ∨ c = .char '\\') → leadingSigns text < n) ∧ IsSafe text n := by
  simp only [IsSafe, List.infix_cons_iff, List.cons_prefix_cons, signs_prefix_iff]
  grind

/-- A length is safe if it is above those of all runs. -/
theorem isSafe_iff_forall_signRuns {text : Text} {n : Nat} :
    IsSafe text n ↔ ∀ run ∈ signRuns text, run < n := by
  induction text with
  | nil => simp [IsSafe, signRuns]
  | cons c text ih =>
    rw [isSafe_cons, ih, signRuns]
    by_cases hc : c = .char '"' ∨ c = .char '\\'
    · rw [if_pos hc, List.forall_mem_cons]
      exact and_congr_left fun _ => ⟨fun h => h hc, fun h _ => h⟩
    · rw [if_neg hc]
      exact and_iff_right fun h => absurd h hc

theorem IsSafe.mono {text : Text} {m n : Nat} (h : IsSafe text m) (hle : m ≤ n) :
    IsSafe text n := by
  rw [isSafe_iff_forall_signRuns] at h ⊢
  exact fun run hrun => Nat.lt_of_lt_of_le (h run hrun) hle

theorem isSafe_longestRun_succ (text : Text) : IsSafe text (longestRun text + 1) :=
  isSafe_iff_forall_signRuns.mpr fun _ hrun => Nat.lt_succ_of_le (List.le_max?_getD_of_mem hrun)

/-! ### The search -/

/-- The search for a delimiter, with no bound on its rounds: it ends at a delimiter that the text
does not break, and a broken one is made longer by a number sign. -/
inductive Search (text : Text) : Text → Text → Prop
  | found {delimiter : Text} (hunbroken : breaksDelimiter text delimiter = false) :
      Search text delimiter delimiter
  | longer {delimiter result : Text} (hbreaks : breaksDelimiter text delimiter = true)
      (hrest : Search text (delimiter ++ "#") result) : Search text delimiter result

/-- The search has one result at most. -/
theorem Search.unique {text delimiter first second : Text} (hfirst : Search text delimiter first)
    (hsecond : Search text delimiter second) : first = second := by
  induction hfirst with
  | found hunbroken =>
    cases hsecond with
    | found => rfl
    | longer hbreaks => exact absurd (hunbroken.symm.trans hbreaks) Bool.false_ne_true
  | longer hbreaks _ ih =>
    cases hsecond with
    | found hunbroken => exact absurd (hunbroken.symm.trans hbreaks) Bool.false_ne_true
    | longer _ hrest => exact ih hrest

/-- With enough tries the search ends by itself: every round makes the delimiter longer, and one as
long as the text is not broken. -/
theorem search_lengthen {text delimiter : Text} {tries : Nat}
    (h : text.length ≤ delimiter.length + tries) :
    Search text delimiter (lengthen text tries delimiter) := by
  induction tries generalizing delimiter with
  | zero =>
    refine Search.found (Bool.eq_false_iff.mpr fun hbreaks => ?_)
    exact absurd (length_lt_of_breaksDelimiter hbreaks) (Nat.not_lt.mpr h)
  | succ tries ih =>
    rw [lengthen]
    cases hbreaks : breaksDelimiter text delimiter with
    | false => exact Search.found hbreaks
    | true =>
      have hlonger : (delimiter ++ ("#" : Text)).length = delimiter.length + 1 :=
        List.length_append
      exact Search.longer hbreaks (ih (by omega))

/-- From every delimiter the search ends, and what it ends at is the delimiter for the text. -/
theorem search_iff {text minimum result : Text} :
    Search text minimum result ↔ result = rawDelimiter text minimum := by
  have hends : Search text minimum (rawDelimiter text minimum) :=
    search_lengthen (Nat.le_add_left _ _)
  constructor
  · exact fun h => h.unique hends
  · rintro rfl
    exact hends

/-- From a run of number signs the search goes up past those that the text breaks. -/
theorem Search.exists_signs {text result : Text} {n : Nat} (h : Search text (signs n) result) :
    ∃ m, result = signs m ∧ n ≤ m ∧ breaksDelimiter text (signs m) = false ∧
      ∀ k, n ≤ k → k < m → breaksDelimiter text (signs k) = true := by
  generalize hstart : signs n = delimiter at h
  induction h generalizing n with
  | found hunbroken =>
    subst hstart
    exact ⟨n, rfl, Nat.le_refl n, hunbroken, fun k hn hk => by omega⟩
  | longer hbreaks _ ih =>
    subst hstart
    obtain ⟨m, hm, hle, hunbroken, hshorter⟩ := ih (signs_append_sign n).symm
    refine ⟨m, hm, by omega, hunbroken, fun k hn hk => ?_⟩
    rcases Nat.eq_or_lt_of_le hn with rfl | hlt
    · exact hbreaks
    · exact hshorter k hlt hk

/-- The delimiter for a text is the shortest one that the text does not break. -/
theorem rawDelimiter_signs (text : Text) (n : Nat) :
    ∃ m, rawDelimiter text (signs n) = signs m ∧ n ≤ m ∧
      breaksDelimiter text (signs m) = false ∧
      ∀ k, n ≤ k → k < m → breaksDelimiter text (signs k) = true :=
  (search_iff.mpr rfl).exists_signs

/-- The search from a run of number signs ends, and at one run alone. It is the shortest safe one
that is not shorter than the first, all longer ones are safe too, and it is not longer than the
first one or one sign more than the longest run behind a quotation mark or a backslash. In a text
with neither of these it is the first one. -/
theorem rawDelimiter_shortest (text : Text) (n : Nat) :
    ∃ m, rawDelimiter text (signs n) = signs m ∧
      (∀ result, Search text (signs n) result ↔ result = signs m) ∧
      IsLeast {k | n ≤ k ∧ IsSafe text k} m ∧ (∀ k, m ≤ k → IsSafe text k) ∧
      m ≤ max n (longestRun text + 1) ∧ (signRuns text = [] → m = n) := by
  obtain ⟨m, hm, hle, hunbroken, hshorter⟩ := rawDelimiter_signs text n
  have hsafe : IsSafe text m := isSafe_iff_breaksDelimiter.mpr hunbroken
  have hleast : ∀ k, n ≤ k → IsSafe text k → m ≤ k := by
    intro k hn hk
    by_contra hlt
    have hbreaks := hshorter k hn (Nat.lt_of_not_le hlt)
    rw [isSafe_iff_breaksDelimiter, hbreaks] at hk
    contradiction
  refine ⟨m, hm, fun result => hm ▸ search_iff, ⟨⟨hle, hsafe⟩, fun k hk => hleast k hk.1 hk.2⟩,
    fun k hk => hsafe.mono hk, ?_, fun hruns => ?_⟩
  · -- one sign more than the longest run is safe, and so is the minimum if that is longer
    have hbound := (isSafe_longestRun_succ text).mono (Nat.le_max_right n (longestRun text + 1))
    exact hleast _ (Nat.le_max_left n _) hbound
  · have hminimum : IsSafe text n := isSafe_iff_forall_signRuns.mpr (by simp [hruns])
    exact Nat.le_antisymm (hleast n (Nat.le_refl n) hminimum) hle

example : rawDelimiter "a\"#b\\##c\"" (signs 1) = signs 3 := by decide +kernel

end StringCatalog.Swift
