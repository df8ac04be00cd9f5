import Mathlib.Data.List.Forall2
import Mathlib.Data.List.Perm.Basic
import Mathlib.Data.List.Sort

/-! Facts about lists: runs of steps that may fail, lists without repetitions, groups, ascending
lists, and what stable sorting keeps. -/

namespace StringCatalog.Sequence

variable {α β ε : Type}

/-- Two steps have a result if the first has one and the second has one behind it. -/
theorem bind_eq_ok_iff {x : Except ε α} {f : α → Except ε β} {b : β} :
    (x >>= f) = .ok b ↔ ∃ a, x = .ok a ∧ f a = .ok b := by
  cases x <;> simp [bind, Except.bind]

theorem exists_bind_eq_ok_iff {x : Except ε α} {f : α → Except ε β} :
    (∃ b, (x >>= f) = .ok b) ↔ ∃ a, x = .ok a ∧ ∃ b, f a = .ok b := by
  cases x <;> simp [bind, Except.bind]

/-- If the result of the first step does not matter for whether the second one has a result, both
are asked on their own. -/
theorem exists_bind_eq_ok_iff_and {x : Except ε α} {f : α → Except ε β} {p q : Prop}
    (hx : (∃ a, x = .ok a) ↔ p) (hf : ∀ a, (∃ b, f a = .ok b) ↔ q) :
    (∃ b, (x >>= f) = .ok b) ↔ p ∧ q := by
  rw [exists_bind_eq_ok_iff, ← hx]
  simp only [hf, exists_and_right]

theorem exists_bind_ok_eq_ok_iff {x : Except ε α} {f : α → β} :
    (∃ b, (x >>= fun a => .ok (f a)) = .ok b) ↔ ∃ a, x = .ok a := by
  simp [exists_bind_eq_ok_iff]

theorem map_eq_ok_iff {x : Except ε α} {f : α → β} {b : β} :
    x.map f = .ok b ↔ ∃ a, x = .ok a ∧ f a = b := by
  cases x <;> simp [Except.map]

theorem mapError_eq_ok_iff {δ : Type} {x : Except ε α} {f : ε → δ} {a : α} :
    x.mapError f = .ok a ↔ x = .ok a := by
  cases x <;> simp [Except.mapError]

theorem bind_eq_error_iff {x : Except ε α} {f : α → Except ε β} {e : ε} :
    (x >>= f) = .error e ↔ x = .error e ∨ ∃ a, x = .ok a ∧ f a = .error e := by
  cases x <;> simp [bind, Except.bind]

theorem mapError_eq_error_iff {δ : Type} {x : Except ε α} {f : ε → δ} {e : δ} :
    x.mapError f = .error e ↔ ∃ e', x = .error e' ∧ f e' = e := by
  cases x <;> simp [Except.mapError]

/-- A run of steps has a result exactly if every step has one. -/
theorem mapM_eq_ok_iff {f : α → Except ε β} {xs : List α} {ys : List β} :
    xs.mapM f = .ok ys ↔ List.Forall₂ (fun x y => f x = .ok y) xs ys := by
  induction xs generalizing ys with
  | nil => cases ys <;> simp [pure, Except.pure]
  | cons x xs ih =>
    rw [List.mapM_cons]
    cases hx : f x with
    | error e => cases ys <;> simp [bind, Except.bind, hx]
    | ok y =>
      cases hxs : xs.mapM f with
      | error e => cases ys <;> simp [bind, Except.bind, ← ih, hx, hxs]
      | ok rest => cases ys <;> simp [bind, Except.bind, pure, Except.pure, ← ih, hx, hxs]

theorem forall₂_and_right {p : α → β → Prop} {q : β → Prop} {xs : List α} {ys : List β} :
    List.Forall₂ (fun x y => p x y ∧ q y) xs ys ↔ List.Forall₂ p xs ys ∧ ∀ y ∈ ys, q y := by
  induction xs generalizing ys with
  | nil => cases ys <;> simp
  | cons x xs ih =>
    cases ys with
    | nil => simp
    | cons y ys =>
      rw [List.forall₂_cons, List.forall₂_cons, ih, List.forall_mem_cons]
      tauto

/-- A run of steps fails as the first step that fails. -/
theorem mapM_append_error {f : α → Except ε β} {before after : List α} {x : α} {e : ε}
    (hbefore : ∀ y ∈ before, ∃ z, f y = .ok z) (hx : f x = .error e) :
    (before ++ x :: after).mapM f = .error e := by
  induction before with
  | nil => simp [List.mapM_cons, hx, bind, Except.bind]
  | cons y before ih =>
    obtain ⟨z, hz⟩ := hbefore y List.mem_cons_self
    have hrest := ih fun w hw => hbefore w (List.mem_cons_of_mem y hw)
    rw [List.cons_append, List.mapM_cons, hz, hrest]
    rfl

/-- A run of steps that all have a result has one. -/
theorem exists_mapM_eq_ok {f : α → Except ε β} {xs : List α} (h : ∀ x ∈ xs, ∃ y, f x = .ok y) :
    ∃ ys, xs.mapM f = .ok ys := by
  induction xs with
  | nil => exact ⟨[], rfl⟩
  | cons x xs ih =>
    obtain ⟨y, hy⟩ := h x List.mem_cons_self
    obtain ⟨ys, hys⟩ := ih fun w hw => h w (List.mem_cons_of_mem x hw)
    exact ⟨y :: ys, mapM_eq_ok_iff.mpr (.cons hy (mapM_eq_ok_iff.mp hys))⟩

/-- Every step of a run that has a result has one. -/
theorem exists_of_mapM_eq_ok {f : α → Except ε β} {xs : List α} {ys : List β}
    (h : xs.mapM f = .ok ys) {x : α} (hx : x ∈ xs) : ∃ y, f x = .ok y := by
  induction mapM_eq_ok_iff.mp h with
  | nil => contradiction
  | @cons z y xs ys hz hrest ih =>
    rcases List.mem_cons.mp hx with rfl | hx
    · exact ⟨y, hz⟩
    · exact ih (mapM_eq_ok_iff.mpr hrest) hx

theorem exists_mapM_eq_ok_iff {f : α → Except ε β} {xs : List α} :
    (∃ ys, xs.mapM f = .ok ys) ↔ ∀ x ∈ xs, ∃ y, f x = .ok y :=
  ⟨fun ⟨_, h⟩ _ hx => exists_of_mapM_eq_ok h hx, exists_mapM_eq_ok⟩

/-- What holds of each step and its result holds of a run and its results. -/
theorem forall₂_of_mapM_eq_ok {f : α → Except ε β} {p : α → β → Prop} {xs : List α} {ys : List β}
    (h : xs.mapM f = .ok ys) (hp : ∀ x ∈ xs, ∀ y, f x = .ok y → p x y) : List.Forall₂ p xs ys := by
  induction mapM_eq_ok_iff.mp h with
  | nil => exact .nil
  | cons hx hxs ih =>
    exact .cons (hp _ List.mem_cons_self _ hx)
      (ih (mapM_eq_ok_iff.mpr hxs) fun x hx => hp x (List.mem_cons_of_mem _ hx))

/-- A run of steps that fails does so in one of them. -/
theorem exists_of_mapM_eq_error {f : α → Except ε β} {xs : List α} {e : ε}
    (h : xs.mapM f = .error e) : ∃ x ∈ xs, f x = .error e := by
  induction xs with
  | nil => contradiction
  | cons x xs ih =>
    rw [List.mapM_cons, bind_eq_error_iff] at h
    rcases h with hx | ⟨y, -, h⟩
    · exact ⟨x, List.mem_cons_self, hx⟩
    · rcases bind_eq_error_iff.mp h with hxs | ⟨ys, -, h⟩
      · obtain ⟨z, hz, he⟩ := ih hxs
        exact ⟨z, List.mem_cons_of_mem x hz, he⟩
      · contradiction

/-- The results of a run are those of its steps. -/
theorem mem_of_mapM_eq_ok {f : α → Except ε β} {xs : List α} {ys : List β}
    (h : xs.mapM f = .ok ys) (y : β) : y ∈ ys ↔ ∃ x ∈ xs, f x = .ok y := by
  induction mapM_eq_ok_iff.mp h with
  | nil => simp
  | @cons x z xs ys hx hxs ih =>
    rw [List.mem_cons, ih (mapM_eq_ok_iff.mpr hxs), eq_comm, ← Except.ok.injEq (ε := ε), ← hx]
    simp

theorem nodup_eraseDups [BEq α] [LawfulBEq α] (xs : List α) : xs.eraseDups.Nodup := by
  induction hn : xs.length using Nat.strong_induction_on generalizing xs with
  | _ n ih =>
  subst hn
  cases xs with
  | nil => simp
  | cons x xs =>
    have hlength : (xs.filter fun y => !y == x).length < (x :: xs).length :=
      Nat.lt_succ_of_le (List.length_filter_le _ _)
    rw [List.eraseDups_cons, List.nodup_cons]
    refine ⟨fun hmem => ?_, ih _ hlength _ rfl⟩
    have := List.mem_eraseDups.mp hmem
    simp at this

theorem eraseDups_of_nodup [BEq α] [LawfulBEq α] {xs : List α} (h : xs.Nodup) :
    xs.eraseDups = xs := by
  induction xs with
  | nil => rfl
  | cons x xs ih =>
    obtain ⟨hx, hxs⟩ := List.nodup_cons.mp h
    have hkept : xs.filter (fun y => !y == x) = xs := by
      rw [List.filter_eq_self]
      intro y hy
      have hne : y ≠ x := fun heq => hx (heq ▸ hy)
      simp [hne]
    rw [List.eraseDups_cons, hkept, ih hxs]

/-- The items of a list, grouped by a name that some of them have, and behind them those that
have none. -/
theorem perm_flatMap_filter [BEq β] [LawfulBEq β] {f : α → Option β}
    {names : List β} (hnames : names.Nodup) {xs : List α} (h : ∀ x ∈ xs, ∀ n ∈ f x, n ∈ names) :
    ((names.flatMap fun n => xs.filter fun x => f x == some n) ++
      xs.filter fun x => f x == none).Perm xs := by
  induction names generalizing xs with
  | nil =>
    have hnone : ∀ x ∈ xs, (f x == none) = true := by
      intro x hx
      have hx := h x hx
      cases hf : f x with
      | none => rfl
      | some n => simp [hf] at hx
    rw [List.flatMap_nil, List.nil_append, List.filter_eq_self.mpr hnone]
  | cons n names ih =>
    obtain ⟨hn, hnodup⟩ := List.nodup_cons.mp hnames
    obtain ⟨others, hothers⟩ : ∃ others, others = xs.filter fun x => !(f x == some n) := ⟨_, rfl⟩
    have hmem : ∀ x ∈ others, ∀ m ∈ f x, m ∈ names := by
      intro x hx m hm
      rw [hothers, List.mem_filter] at hx
      rcases List.mem_cons.mp (h x hx.1 m hm) with rfl | hm'
      · simp [Option.mem_def.mp hm] at hx
      · exact hm'
    -- taking out the items of one name leaves those of the others as they are
    have hgroup : ∀ m ∈ names, (others.filter fun x => f x == some m) =
        xs.filter fun x => f x == some m := by
      intro m hm
      rw [hothers, List.filter_filter]
      refine List.filter_congr fun x _ => ?_
      by_cases hx : f x = some m
      · have hne : m ≠ n := fun heq => hn (heq ▸ hm)
        simp [hx, hne]
      · simp [hx]
    have hnone : (others.filter fun x => f x == none) = xs.filter fun x => f x == none := by
      rw [hothers, List.filter_filter]
      refine List.filter_congr fun x _ => ?_
      cases f x <;> simp
    have hrest := ih hnodup hmem
    rw [List.flatMap_congr hgroup, hnone] at hrest
    rw [List.flatMap_cons, List.append_assoc]
    refine (hrest.append_left _).trans ?_
    rw [hothers]
    exact List.filter_append_perm _ xs

/-- A list that another one goes on from leads to the last item of that. -/
theorem prefix_dropLast {xs ys : List α} (h : xs <+: ys) (hne : xs ≠ ys) : xs <+: ys.dropLast := by
  obtain ⟨rest, rfl⟩ := h
  have hrest : rest ≠ [] := fun hnil => hne (by rw [hnil, List.append_nil])
  rw [List.dropLast_append_of_ne_nil hrest]
  exact List.prefix_append _ _

/-- Ascending numbers are known by which ones they are. -/
theorem eq_of_mem_iff {xs ys : List Int} (hxs : xs.Pairwise (· < ·)) (hys : ys.Pairwise (· < ·))
    (h : ∀ z, z ∈ xs ↔ z ∈ ys) : xs = ys :=
  hxs.sortedLT.eq_of_mem_iff hys.sortedLT h

/-! ### Stable sorting -/

/-- Items that are all in order with one another stay in the order that they have in the list when
it is sorted. -/
theorem filter_mergeSort {le : α → α → Bool}
    (htrans : ∀ a b c, le a b = true → le b c = true → le a c = true)
    (htotal : ∀ a b, (le a b || le b a) = true) {p : α → Bool}
    (hp : ∀ a b, p a = true → p b = true → le a b = true) (xs : List α) :
    (xs.mergeSort le).filter p = xs.filter p := by
  have hordered : (xs.filter p).Pairwise fun a b => le a b = true :=
    List.pairwise_of_forall_mem_list fun a ha b hb =>
      hp a b (List.mem_filter.mp ha).2 (List.mem_filter.mp hb).2
  have hsub := (List.sublist_mergeSort htrans htotal hordered List.filter_sublist).filter p
  rw [List.filter_filter] at hsub
  simp only [Bool.and_self] at hsub
  exact (hsub.eq_of_length ((List.mergeSort_perm xs le).filter p).length_eq.symm).symm

/-- Items in ascending order of their ranks are known by those of each rank. -/
theorem eq_of_filter_rank_eq [LinearOrder β] [BEq β] [LawfulBEq β] {rank : α → β} {xs ys : List α}
    (hxs : xs.Pairwise fun a b => rank a ≤ rank b) (hys : ys.Pairwise fun a b => rank a ≤ rank b)
    (h : ∀ c, xs.filter (rank · == rank c) = ys.filter (rank · == rank c)) : xs = ys := by
  have hmem : ∀ {xs ys : List α}, (∀ c, xs.filter (rank · == rank c) =
      ys.filter (rank · == rank c)) → ∀ z ∈ xs, z ∈ ys := by
    intro xs ys h z hz
    have hkept : z ∈ xs.filter (rank · == rank z) := List.mem_filter.mpr ⟨hz, by simp⟩
    rw [h] at hkept
    exact (List.mem_filter.mp hkept).1
  induction xs generalizing ys with
  | nil => exact (List.eq_nil_iff_forall_not_mem.mpr fun z hz =>
      List.not_mem_nil (hmem (fun c => (h c).symm) z hz)).symm
  | cons x xs ih =>
    cases ys with
    | nil => exact absurd (hmem h x List.mem_cons_self) List.not_mem_nil
    | cons y ys =>
      obtain ⟨hx, hxrest⟩ := List.pairwise_cons.mp hxs
      obtain ⟨hy, hyrest⟩ := List.pairwise_cons.mp hys
      -- each of the two first items is the least in both lists
      have hxy : rank x ≤ rank y := by
        rcases List.mem_cons.mp (hmem (fun c => (h c).symm) y List.mem_cons_self) with rfl | hrest
        · exact le_rfl
        · exact hx y hrest
      have hyx : rank y ≤ rank x := by
        rcases List.mem_cons.mp (hmem h x List.mem_cons_self) with rfl | hrest
        · exact le_rfl
        · exact hy x hrest
      have hrank := le_antisymm hxy hyx
      have hfirst := h x
      rw [List.filter_cons_of_pos (by simp), List.filter_cons_of_pos (by simp [hrank])] at hfirst
      obtain ⟨rfl, -⟩ := List.cons.inj hfirst
      refine congrArg _ (ih hxrest hyrest fun c => ?_)
      have hc := h c
      by_cases heq : rank x = rank c
      · rw [List.filter_cons_of_pos (by simpa using heq),
          List.filter_cons_of_pos (by simpa using heq)] at hc
        exact (List.cons.inj hc).2
      · rwa [List.filter_cons_of_neg (by simpa using heq),
          List.filter_cons_of_neg (by simpa using heq)] at hc

end StringCatalog.Sequence
