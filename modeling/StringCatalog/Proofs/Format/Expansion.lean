import StringCatalog.Format.Template
import StringCatalog.Proofs.OrderedMap
import StringCatalog.Proofs.Text.Basic

/-! The expansion of markers in a text whose other parts hold no `#`, by texts that hold none: the
markers are replaced one name after another, and it comes to the same as if all were replaced at
once. -/

namespace StringCatalog

/-- A part of a text: text that stands for itself, or the marker of a substitution. -/
inductive Part where
  | plain (text : Text)
  | marker (name : Text)
  deriving DecidableEq

namespace Part

/-- The part as written. -/
def text : Part → Text
  | plain t => t
  | marker name => SubstitutionMap.token name

/-- The part with the text of a map in place of its marker. -/
def filled (subs : SubstitutionMap) : Part → Text
  | plain t => t
  | marker name => (OrderedMap.get? subs name).getD (SubstitutionMap.token name)

/-- The name of a substitution can be told from what surrounds it. -/
def IsName (name : Text) : Prop :=
  .char '%' ∉ name ∧ .char '#' ∉ name ∧ .char '@' ∉ name

instance : DecidablePred IsName := fun name =>
  inferInstanceAs (Decidable (.char '%' ∉ name ∧ .char '#' ∉ name ∧ .char '@' ∉ name))

/-- A `#` in the part can only be that of a marker. -/
def WellFormed : Part → Prop
  | plain t => .char '#' ∉ t
  | marker name => IsName name

end Part

namespace SubstitutionMap

theorem token_eq (name : Text) :
    token name = .char '%' :: .char '#' :: .char '@' :: (name ++ [.char '@']) := rfl

theorem token_ne_nil (name : Text) : token name ≠ [] := by simp [token_eq]

/-- Names without `@` in front of one are told apart by what they begin. -/
theorem eq_of_append_prefix {a b s : Text} (ha : CodePoint.char '@' ∉ a)
    (hb : CodePoint.char '@' ∉ b) (h : a ++ [.char '@'] <+: b ++ .char '@' :: s) : a = b := by
  induction a generalizing b with
  | nil =>
    cases b with
    | nil => rfl
    | cons d b =>
      obtain ⟨hd, -⟩ := List.cons_prefix_cons.mp h
      simp [hd] at hb
  | cons c a ih =>
    simp only [List.mem_cons, not_or] at ha
    cases b with
    | nil =>
      obtain ⟨hc, -⟩ := List.cons_prefix_cons.mp h
      exact absurd hc.symm ha.1
    | cons d b =>
      simp only [List.mem_cons, not_or] at hb
      obtain ⟨rfl, hrest⟩ := List.cons_prefix_cons.mp h
      rw [ih ha.2 hb.2 hrest]

theorem token_prefix_iff {a b s : Text} (ha : CodePoint.char '@' ∉ a)
    (hb : CodePoint.char '@' ∉ b) : token a <+: token b ++ s ↔ a = b := by
  constructor
  · intro h
    simp only [token_eq, List.cons_append, List.cons_prefix_cons, true_and, List.append_assoc] at h
    exact eq_of_append_prefix ha hb h
  · rintro rfl
    exact List.prefix_append _ _

/-- No marker begins in a text without `#` in front of one that does not begin with it. -/
theorem not_token_prefix_of_hash {name t s : Text} (ht : CodePoint.char '#' ∉ t)
    (hs : s.head? ≠ some (.char '#')) : ∀ i < t.length, ¬token name <+: (t ++ s).drop i := by
  induction t with
  | nil => simp
  | cons c t ih =>
    simp only [List.mem_cons, not_or] at ht
    intro i hi
    cases i with
    | zero =>
      intro h
      rw [List.drop_zero, token_eq, List.cons_append, List.cons_prefix_cons] at h
      cases t with
      | nil =>
        obtain ⟨rest, hrest⟩ := h.2
        exact hs (by rw [← List.nil_append s, ← hrest]; rfl)
      | cons d t =>
        rw [List.cons_append, List.cons_prefix_cons] at h
        simp [h.2.1] at ht
    | succ i => exact ih ht.2 i (Nat.lt_of_succ_lt_succ hi)

/-- No marker begins in a text without percent signs. -/
theorem not_token_prefix_of_percent {name t : Text} (ht : CodePoint.char '%' ∉ t) (s : Text) :
    ∀ i < t.length, ¬token name <+: (t ++ s).drop i := by
  intro i hi h
  rw [List.drop_append_of_le_length (Nat.le_of_lt hi), List.drop_eq_getElem_cons hi, token_eq,
    List.cons_append, List.cons_prefix_cons] at h
  exact ht (h.1 ▸ List.getElem_mem hi)

/-- The part with a text in place of the marker of one name. -/
def fillOne (name new : Text) : Part → Part
  | .plain t => .plain t
  | .marker n => if n = name then .plain new else .marker n

theorem head?_text_ne_hash {parts : List Part} (h : ∀ part ∈ parts, part.WellFormed) :
    (parts.flatMap Part.text).head? ≠ some (.char '#') := by
  induction parts with
  | nil => simp
  | cons part parts ih =>
    have hrest := ih fun p hp => h p (List.mem_cons_of_mem part hp)
    have hpart := h part List.mem_cons_self
    cases part with
    | marker name => simp [Part.text, token_eq]
    | plain t =>
      cases t with
      | nil => exact hrest
      | cons c t =>
        intro heq
        simp only [List.flatMap_cons, Part.text, List.cons_append, List.head?_cons,
          Option.some.injEq] at heq
        simp [Part.WellFormed, heq] at hpart

/-- In the text of the parts, a marker of the name begins only at a part that is this marker. -/
def Clear (name : Text) : List Part → Prop
  | [] => True
  | part :: rest => (part ≠ .marker name → ∀ i < part.text.length,
      ¬token name <+: (part.text ++ rest.flatMap Part.text).drop i) ∧ Clear name rest

instance decidableClear (name : Text) : DecidablePred (Clear name)
  | [] => .isTrue trivial
  | part :: rest =>
    have := decidableClear name rest
    inferInstanceAs (Decidable ((part ≠ .marker name → ∀ i < part.text.length,
      ¬token name <+: (part.text ++ rest.flatMap Part.text).drop i) ∧ Clear name rest))

/-- Replacing the marker of one name replaces exactly the parts that are such markers. -/
theorem replace_token_of_clear {name : Text} (new : Text) {parts : List Part}
    (h : Clear name parts) : Text.replace (token name) new (parts.flatMap Part.text) =
      (parts.map (fillOne name new)).flatMap Part.text := by
  induction parts with
  | nil => rfl
  | cons part parts ih =>
    rw [List.flatMap_cons, List.map_cons, List.flatMap_cons, ← ih h.2]
    by_cases hpart : part = .marker name
    · subst hpart
      simp only [fillOne, if_true, Part.text]
      exact Text.replace_append (token_ne_nil name) new _
    · have hsame : fillOne name new part = part := by
        cases part with
        | plain t => rfl
        | marker n => exact if_neg fun hn => hpart (congrArg Part.marker hn)
      rw [hsame]
      exact Text.replace_append_of_not_prefix (h.1 hpart) new

theorem clear_of_wellFormed {name : Text} (hname : Part.IsName name) {parts : List Part}
    (h : ∀ part ∈ parts, part.WellFormed) : Clear name parts := by
  induction parts with
  | nil => trivial
  | cons part parts ih =>
    have hparts : ∀ p ∈ parts, p.WellFormed := fun p hp => h p (List.mem_cons_of_mem part hp)
    have hpart := h part List.mem_cons_self
    refine ⟨fun hne => ?_, ih hparts⟩
    cases part with
    | plain t => exact not_token_prefix_of_hash hpart (head?_text_ne_hash hparts)
    | marker n =>
      have hinner : CodePoint.char '%' ∉ CodePoint.char '#' :: .char '@' :: (n ++ [.char '@']) := by
        simp [hpart.1]
      intro i hi
      cases i with
      | zero =>
        intro hprefix
        exact hne (congrArg Part.marker ((token_prefix_iff hname.2.2 hpart.2.2).mp hprefix).symm)
      | succ i =>
        exact not_token_prefix_of_percent hinner _ i (Nat.lt_of_succ_lt_succ hi)

/-- The markers of names that a map has are replaced one after another. -/
theorem foldl_replace_parts {subs : SubstitutionMap} (hsubs : ∀ s ∈ subs, Part.IsName s.1 ∧
      .char '#' ∉ s.2) {parts : List Part} (h : ∀ part ∈ parts, part.WellFormed) :
    subs.foldl (fun t s => Text.replace (token s.1) s.2 t) (parts.flatMap Part.text) =
      parts.flatMap (Part.filled subs) := by
  induction subs generalizing parts with
  | nil =>
    refine congrArg (parts.flatMap ·) (funext fun part => ?_)
    cases part <;> rfl
  | cons s subs ih =>
    obtain ⟨hname, htext⟩ := hsubs s List.mem_cons_self
    have hfilled : ∀ part ∈ parts.map (fillOne s.1 s.2), part.WellFormed := by
      intro part hmem
      obtain ⟨part, hpart, rfl⟩ := List.mem_map.mp hmem
      cases part with
      | plain t => exact h _ hpart
      | marker n =>
        rw [fillOne]
        split
        · exact htext
        · exact h _ hpart
    rw [List.foldl_cons, replace_token_of_clear s.2 (clear_of_wellFormed hname h),
      ih (fun s' hs' => hsubs s' (List.mem_cons_of_mem s hs')) hfilled, List.flatMap_map]
    refine congrArg (parts.flatMap ·) (funext fun part => ?_)
    cases part with
    | plain t => rfl
    | marker n =>
      simp only [fillOne, Part.filled, OrderedMap.get?]
      by_cases hn : n = s.1
      · simp [hn]
      · simp [hn, Ne.symm hn]

/-- No text of the map holds a marker, so the expansion is not refused. -/
theorem overlap?_eq_none {subs : SubstitutionMap} (h : ∀ s ∈ subs, CodePoint.char '#' ∉ s.2) :
    overlap? subs = none := by
  rw [overlap?, List.findSome?_eq_none_iff]
  intro s hs
  rw [Option.map_eq_none_iff, List.find?_eq_none]
  intro marker hmarker hinfix
  obtain ⟨s', -, rfl⟩ := List.mem_map.mp hmarker
  have hmem : CodePoint.char '#' ∈ token s'.1 := by simp [token_eq]
  exact h s hs ((Text.hasInfix_iff.mp hinfix).subset hmem)

/-- The expansion of a text puts the texts of the map in place of all markers at once. -/
theorem expand_parts {subs : SubstitutionMap}
    (hsubs : ∀ s ∈ subs, Part.IsName s.1 ∧ .char '#' ∉ s.2) {parts : List Part}
    (h : ∀ part ∈ parts, part.WellFormed) :
    expand subs (parts.flatMap Part.text) = .ok (parts.flatMap (Part.filled subs)) := by
  rw [expand, overlap?_eq_none fun s hs => (hsubs s hs).2]
  exact congrArg Except.ok (foldl_replace_parts hsubs h)

end SubstitutionMap

end StringCatalog
