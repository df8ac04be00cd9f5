import Mathlib.Data.List.Sublists
import StringCatalog.Proofs.Format.Expansion

/-! The expansion of markers and the order of the map. Whether an expansion is refused does not hang
on the order. The text that it gives does not either, as long as no replacement makes up a marker
where it meets the text around it. That is not checked, and then the order shows. -/

namespace StringCatalog

namespace SubstitutionMap

variable {subs others : SubstitutionMap} {parts : List Part}

/-! ### Refusal -/

theorem overlap?_eq_none_iff :
    overlap? subs = none ↔ ∀ s ∈ subs, ∀ s' ∈ subs, ¬token s'.1 <:+: s.2 := by
  simp only [overlap?, List.findSome?_eq_none_iff, Option.map_eq_none_iff, List.find?_eq_none,
    List.forall_mem_map, Text.hasInfix_iff]

theorem expand_eq_error_iff {text : Text} :
    (∃ name marker, subs.expand text = .error (.substitutionOverlap name marker)) ↔
      ∃ s ∈ subs, ∃ s' ∈ subs, token s'.1 <:+: s.2 := by
  have hrefused : (∃ name marker, subs.expand text = .error (.substitutionOverlap name marker)) ↔
      overlap? subs ≠ none := by
    unfold expand
    cases hoverlap : overlap? subs with
    | none => simp
    | some e =>
      obtain ⟨s, -, hs⟩ := List.exists_of_findSome?_eq_some hoverlap
      obtain ⟨marker, -, rfl⟩ := Option.map_eq_some_iff.mp hs
      exact ⟨fun _ => Option.some_ne_none _, fun _ => ⟨_, _, rfl⟩⟩
  rw [hrefused, ne_eq, overlap?_eq_none_iff]
  push Not
  rfl

/-! ### Replacement -/

/-- The part as it is once the names of a map have been replaced. -/
def fill (done : SubstitutionMap) : Part → Part
  | .plain t => .plain t
  | .marker n => (OrderedMap.get? done n).elim (.marker n) .plain

theorem text_fill (done : SubstitutionMap) (part : Part) :
    (fill done part).text = part.filled done := by
  cases part with
  | plain t => rfl
  | marker n =>
    rw [fill, Part.filled]
    cases OrderedMap.get? done n <;> rfl

theorem fill_congr {done done' : SubstitutionMap}
    (h : ∀ key, OrderedMap.get? done key = OrderedMap.get? done' key) : fill done = fill done' := by
  funext part
  cases part with
  | plain t => rfl
  | marker n => rw [fill, fill, h]

theorem fillOne_comp_fill (done : SubstitutionMap) (s : Text × Text) :
    fillOne s.1 s.2 ∘ fill done = fill (done ++ [s]) := by
  funext part
  cases part with
  | plain t => rfl
  | marker n =>
    rw [Function.comp_apply, fill, fill, OrderedMap.get?_append_singleton]
    cases OrderedMap.get? done n with
    | some t => rfl
    | none =>
      by_cases hn : s.1 = n
      · simp [fillOne, hn]
      · simp [fillOne, hn, Ne.symm hn]

/-- Whichever names have been replaced, the markers of the others are where the parts have them: no
replacement makes one up where it meets the text around it. -/
def Intact (subs : SubstitutionMap) (parts : List Part) : Prop :=
  ∀ done ∈ subs.sublists, ∀ s ∈ subs, s ∉ done → Clear s.1 (parts.map (fill done))

instance : Decidable (Intact subs parts) :=
  inferInstanceAs (Decidable (∀ done ∈ subs.sublists, ∀ s ∈ subs, s ∉ done →
    Clear s.1 (parts.map (fill done))))

/-- The names of a map whose markers stay intact are replaced one after another, in any order. -/
theorem Intact.foldl_replace (h : Intact subs parts) (hnames : (subs.map (·.1)).Nodup)
    {done rest : SubstitutionMap} (hperm : subs.Perm (done ++ rest)) :
    rest.foldl (fun t s => Text.replace (token s.1) s.2 t) ((parts.map (fill done)).flatMap
      Part.text) = (parts.map (fill (done ++ rest))).flatMap Part.text := by
  -- a name moves from the rest to what is done, and the parts are filled with one name more
  induction rest generalizing done with
  | nil => rw [List.foldl_nil, List.append_nil]
  | cons s rest ih =>
    have hall : ((done ++ s :: rest).map (·.1)).Nodup := (hperm.map _).nodup_iff.mp hnames
    rw [List.map_append, List.map_cons, List.nodup_append, List.nodup_cons] at hall
    obtain ⟨hdone, -, hapart⟩ := hall
    have hs : s ∉ done := fun hmem =>
      hapart _ (List.mem_map_of_mem hmem) _ List.mem_cons_self rfl
    -- what has been replaced, in the order of the map
    obtain ⟨before, hbefore⟩ : ∃ before, before = subs.filter (· ∈ done) := ⟨_, rfl⟩
    have hsub : before.Sublist subs := hbefore ▸ List.filter_sublist
    have hmem : ∀ pair, pair ∈ before ↔ pair ∈ done := fun pair => by
      rw [hbefore, List.mem_filter, decide_eq_true_eq, hperm.mem_iff]
      exact and_iff_right_of_imp (List.mem_append_left _)
    have hsame : fill before = fill done :=
      fill_congr (OrderedMap.get?_congr ((hsub.map _).nodup hnames) hdone hmem)
    have hclear := h before (List.mem_sublists.mpr hsub) s (hperm.mem_iff.mpr (by simp))
      (mt (hmem s).mp hs)
    rw [hsame] at hclear
    have hnext : subs.Perm ((done ++ [s]) ++ rest) := by simpa using hperm
    rw [List.foldl_cons, replace_token_of_clear s.2 hclear, List.map_map,
      fillOne_comp_fill, ih hnext, List.append_assoc, List.singleton_append]

/-- A map whose markers stay intact puts its texts in the place of all markers at once, in whatever
order they are replaced. -/
theorem Intact.expand (h : Intact subs parts) (hnames : (subs.map (·.1)).Nodup)
    (hperm : subs.Perm others) (hoverlap : overlap? others = none) :
    others.expand (parts.flatMap Part.text) = .ok (parts.flatMap (Part.filled subs)) := by
  have hothers : (others.map (·.1)).Nodup := (hperm.map _).nodup_iff.mp hnames
  have hnone : parts.map (fill []) = parts := by
    refine (List.map_congr_left fun part _ => ?_).trans (List.map_id parts)
    cases part <;> rfl
  have hsame : fill others = fill subs :=
    fill_congr (OrderedMap.get?_congr hothers hnames fun _ => hperm.mem_iff.symm)
  have hrest : subs.Perm ([] ++ others) := hperm
  have hfold := h.foldl_replace hnames hrest
  rw [hnone, List.nil_append, hsame, List.flatMap_map] at hfold
  rw [SubstitutionMap.expand, hoverlap]
  simp only [hfold, text_fill]

/-- The order of a map decides neither whether an expansion is refused nor, where the markers stay
intact, what it gives. -/
theorem expand_perm (hperm : subs.Perm others) (hnames : (subs.map (·.1)).Nodup) (text : Text) :
    ((∃ name marker, subs.expand text = .error (.substitutionOverlap name marker)) ↔
      ∃ name marker, others.expand text = .error (.substitutionOverlap name marker)) ∧
    ∀ parts, text = parts.flatMap Part.text → Intact subs parts →
      ∀ expanded, subs.expand text = .ok expanded ↔ others.expand text = .ok expanded := by
  have hoverlap : overlap? subs = none ↔ overlap? others = none := by
    simp only [overlap?_eq_none_iff, hperm.mem_iff]
  constructor
  · simp only [expand_eq_error_iff, hperm.mem_iff]
  · rintro parts rfl hintact expanded
    by_cases hnone : overlap? subs = none
    · rw [hintact.expand hnames (List.Perm.refl subs) hnone,
        hintact.expand hnames hperm (hoverlap.mp hnone)]
    · have hrefused : ∀ {map : SubstitutionMap}, overlap? map ≠ none →
          map.expand (parts.flatMap Part.text) ≠ .ok expanded := by
        intro map hmap hok
        obtain ⟨e, he⟩ := Option.ne_none_iff_exists'.mp hmap
        rw [SubstitutionMap.expand, he] at hok
        contradiction
      exact iff_of_false (hrefused hnone) (hrefused (mt hoverlap.mpr hnone))

/-- A rank with a `#` of its own, and a name. -/
def rankAndName : SubstitutionMap := [("rank", "#%1$d"), ("name", "%2$@ (100%%)")]

theorem expand_perm_rankAndName :
    rankAndName.Perm rankAndName.reverse ∧ (rankAndName.map (·.1)).Nodup ∧
    Intact rankAndName [.plain "# ", .marker "rank", .marker "name", .plain "%#@other@"] ∧
    rankAndName.expand "# %#@rank@%#@name@%#@other@" =
      .ok "# #%1$d%2$@ (100%%)%#@other@" ∧
    expand rankAndName.reverse "# %#@rank@%#@name@%#@other@" =
      .ok "# #%1$d%2$@ (100%%)%#@other@" := by
  have hperm := (List.reverse_perm rankAndName).symm
  have hnames : (rankAndName.map (·.1)).Nodup := by decide
  have hintact : Intact rankAndName
      [.plain "# ", .marker "rank", .marker "name", .plain "%#@other@"] := by decide +kernel
  have hexpand : rankAndName.expand "# %#@rank@%#@name@%#@other@" =
      .ok "# #%1$d%2$@ (100%%)%#@other@" := by decide +kernel
  exact ⟨hperm, hnames, hintact, hexpand,
    ((expand_perm hperm hnames "# %#@rank@%#@name@%#@other@").2 _ rfl hintact _).mp hexpand⟩

/-- A replacement without any sign of a marker may make one up with the text on both sides of it.
Then the order of the map decides whether that marker is replaced too. -/
theorem exists_order_matters : ∃ (subs others : SubstitutionMap) (text a b : Text),
    subs.Perm others ∧ (subs.map (·.1)).Nodup ∧ subs.expand text = .ok a ∧
      others.expand text = .ok b ∧ a ≠ b :=
  ⟨[("a", "b"), ("b", "X")], [("b", "X"), ("a", "b")], "%#@%#@a@@", "X", "%#@b@",
    List.Perm.swap _ _ _, by decide, by decide +kernel, by decide +kernel, by decide⟩

end SubstitutionMap

end StringCatalog
