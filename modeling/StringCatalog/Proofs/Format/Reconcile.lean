import StringCatalog.Proofs.Format.Slots
import StringCatalog.Proofs.Sequence
import StringCatalog.Proofs.Text.Basic

/-! What reconciling the templates of a resource comes to. A collision inside a template comes
first; without one, the pairs of slot and kind in use decide between a conflict, a gap and the
arguments, whatever the order of the templates. -/

namespace StringCatalog

theorem ArgumentKind.mem_all (k : ArgumentKind) : k ∈ all := by
  cases k <;> decide

theorem ArgumentKind.mem_distinct {kinds : List ArgumentKind} {k : ArgumentKind} :
    k ∈ distinct kinds ↔ k ∈ kinds := by
  simp [distinct, mem_all]

theorem GenerationError.mem_oneTo {bound s : Int} : s ∈ oneTo bound ↔ 1 ≤ s ∧ s ≤ bound := by
  simp only [oneTo, List.mem_map, List.mem_range]
  constructor
  · rintro ⟨i, hi, rfl⟩
    omega
  · rintro ⟨hlow, hhigh⟩
    exact ⟨(s - 1).toNat, by omega, by omega⟩

theorem GenerationError.ascending_oneTo (bound : Int) : (oneTo bound).Pairwise (· < ·) := by
  rw [oneTo, List.pairwise_map]
  exact List.pairwise_lt_range.imp fun h => by omega

namespace Argument

/-- Some of the templates puts an argument of the kind into the slot. -/
def Used (variants : List Template) (slot : Int) (kind : ArgumentKind) : Prop :=
  ∃ v ∈ variants, ∃ slotted, v.slots [] = .ok slotted ∧ ∃ s ∈ slotted, s.2 = slot ∧ s.1.kind = kind

/-- What a set of uses comes to: a conflict if some slot has two kinds, else a gap if the slots in
use are not those from one up to some number, else an argument for each slot. -/
inductive Reconciled (key : Text) (used : Int → ArgumentKind → Prop) :
    Except GenerationError (List Argument) → Prop
  | conflict (slot : Int) (kinds : List ArgumentKind)
      (several : ∃ a b, a ≠ b ∧ used slot a ∧ used slot b)
      (least : ∀ s < slot, ∀ a b, used s a → used s b → a = b)
      (mem_kinds : ∀ k, k ∈ kinds ↔ used slot k) (ordered : kinds.Sublist ArgumentKind.all) :
      Reconciled key used (.error (.typeConflict key slot kinds))
  | gap (positions missing : List Int)
      (single : ∀ s a b, used s a → used s b → a = b)
      (incomplete : ¬∃ n : Nat, ∀ s, (∃ k, used s k) ↔ 1 ≤ s ∧ s ≤ n)
      (mem_positions : ∀ s, s ∈ positions ↔ ∃ k, used s k)
      (positions_ascending : positions.Pairwise (· < ·))
      (mem_missing : ∀ s, s ∈ missing ↔
        1 ≤ s ∧ (∃ greatest k, used greatest k ∧ s ≤ greatest) ∧ ¬∃ k, used s k)
      (missing_ascending : missing.Pairwise (· < ·)) (nonempty : missing ≠ []) :
      Reconciled key used (.error (.gap key positions missing))
  | arguments (arguments : List Argument)
      (single : ∀ s a b, used s a → used s b → a = b)
      (complete : ∀ s, (∃ k, used s k) ↔ 1 ≤ s ∧ s ≤ arguments.length)
      (each : ∀ i (h : i < arguments.length), arguments[i].name = nameAt (i + 1) ∧
        arguments[i].position = i + 1 ∧ used (i + 1) arguments[i].kind) :
      Reconciled key used (.ok arguments)

section Uses

variable (uses : List Use)

theorem mem_kindsAt {slot : Int} {k : ArgumentKind} :
    k ∈ kindsAt uses slot ↔ (slot, k) ∈ uses := by
  rw [kindsAt, ArgumentKind.mem_distinct]
  simp

theorem kindsAt_sublist (slot : Int) : (kindsAt uses slot).Sublist ArgumentKind.all :=
  List.filter_sublist

theorem mem_slotsOf {slot : Int} : slot ∈ slotsOf uses ↔ ∃ k, (slot, k) ∈ uses := by
  simp [slotsOf]

theorem ascending_slotsOf : (slotsOf uses).Pairwise (· < ·) := by
  have hsorted : (slotsOf uses).Pairwise fun a b => decide (a ≤ b) = true :=
    List.pairwise_mergeSort (fun a b c hab hbc => by simp only [decide_eq_true_eq] at *; omega)
      (fun a b => by simp only [Bool.or_eq_true, decide_eq_true_eq]; omega) _
  have hnodup := (List.mergeSort_perm (uses.map (·.1)).eraseDups
    fun a b => decide (a ≤ b)).nodup_iff.mpr (Sequence.nodup_eraseDups _)
  refine (hsorted.and hnodup).imp fun ⟨hle, hne⟩ => ?_
  have := of_decide_eq_true hle
  omega

/-- A slot has several kinds exactly if two of its uses differ. -/
theorem one_lt_length_kindsAt {slot : Int} :
    1 < (kindsAt uses slot).length ↔ ∃ a b, a ≠ b ∧ (slot, a) ∈ uses ∧ (slot, b) ∈ uses := by
  have hnodup : (kindsAt uses slot).Nodup := (kindsAt_sublist uses slot).nodup (by decide)
  simp only [← mem_kindsAt]
  constructor
  · intro hlength
    match hkinds : kindsAt uses slot with
    | [] => simp [hkinds] at hlength
    | [_] => simp [hkinds] at hlength
    | a :: b :: rest =>
      rw [hkinds] at hnodup
      exact ⟨a, b, fun hab => by simp [hab] at hnodup, by simp, by simp⟩
  · rintro ⟨a, b, hne, ha, hb⟩
    match hkinds : kindsAt uses slot with
    | [] => simp [hkinds] at ha
    | [k] =>
      rw [hkinds, List.mem_singleton] at ha hb
      exact absurd (ha.trans hb.symm) hne
    | _ :: _ :: _ => simp

/-- Only the set of uses counts. -/
theorem ofUses_congr {others : List Use} (h : ∀ u, u ∈ others ↔ u ∈ uses) (key : Text) :
    ofUses others key = ofUses uses key := by
  have hslots : slotsOf others = slotsOf uses :=
    Sequence.eq_of_mem_iff (ascending_slotsOf others) (ascending_slotsOf uses) fun s => by
      simp only [mem_slotsOf, h]
  have hkinds : ∀ slot, kindsAt others slot = kindsAt uses slot := fun slot => by
    apply List.filter_congr
    intro k _
    simp [List.contains_eq_mem, h]
  simp only [ofUses, hslots, hkinds]

variable {uses}

/-- The least slot with several kinds is found first. -/
theorem reconciled_conflict {slot : Int}
    (h : (slotsOf uses).find? (fun s => 1 < (kindsAt uses s).length) = some slot) (key : Text) :
    Reconciled key (fun slot kind => (slot, kind) ∈ uses)
      (.error (.typeConflict key slot (kindsAt uses slot))) := by
  obtain ⟨hseveral, before, after, hslots, hbefore⟩ := List.find?_eq_some_iff_append.mp h
  have hsorted := ascending_slotsOf uses
  refine .conflict slot _ ((one_lt_length_kindsAt uses).mp (of_decide_eq_true hseveral))
    (fun s hs a b ha hb => ?_) (fun k => mem_kindsAt uses) (kindsAt_sublist uses slot)
  by_contra hne
  have hlength := (one_lt_length_kindsAt uses).mpr ⟨a, b, hne, ha, hb⟩
  have hmem : s ∈ slotsOf uses := (mem_slotsOf uses).mpr ⟨a, ha⟩
  rw [hslots] at hmem hsorted
  rcases List.mem_append.mp hmem with hs' | hs'
  · simpa [hlength] using hbefore s hs'
  · rcases List.mem_cons.mp hs' with rfl | hs'
    · omega
    · have := List.rel_of_pairwise_cons (List.pairwise_append.mp hsorted).2.1 hs'
      omega

theorem gapOf_of_ascending {positions : List Int} (h : positions.Pairwise (· < ·)) (key : Text) :
    GenerationError.gapOf key positions = .gap key positions
      ((GenerationError.oneTo (positions.getLastD 0)).filter (!positions.contains ·)) := by
  have hle : positions.Pairwise fun a b => decide (a ≤ b) = true :=
    h.imp fun hab => by simp only [decide_eq_true_eq]; omega
  simp only [GenerationError.gapOf, List.mergeSort_of_pairwise hle]

/-- The last of ascending numbers is the greatest of them. -/
theorem le_getLastD_iff {positions : List Int} (h : positions.Pairwise (· < ·)) {s : Int}
    (hs : 1 ≤ s) : s ≤ positions.getLastD 0 ↔ ∃ greatest ∈ positions, s ≤ greatest := by
  rcases List.eq_nil_or_concat positions with rfl | ⟨init, last, rfl⟩
  · simp
    omega
  · simp only [List.concat_eq_append] at h ⊢
    rw [List.getLastD_concat]
    constructor
    · exact fun hle => ⟨last, by simp, hle⟩
    · rintro ⟨greatest, hmem, hle⟩
      rcases List.mem_append.mp hmem with hinit | hlast
      · have := (List.pairwise_append.mp h).2.2 greatest hinit last (by simp)
        omega
      · rw [← List.mem_singleton.mp hlast]
        exact hle

/-- Ascending numbers are those from one up to some number only if they are listed as such. -/
theorem eq_oneTo_of_mem_iff {positions : List Int} (h : positions.Pairwise (· < ·)) {n : Nat}
    (hmem : ∀ s, s ∈ positions ↔ 1 ≤ s ∧ s ≤ n) :
    positions = GenerationError.oneTo positions.length := by
  have hpositions : positions = GenerationError.oneTo n :=
    Sequence.eq_of_mem_iff h (GenerationError.ascending_oneTo n) fun s => by
      rw [hmem, GenerationError.mem_oneTo]
  have hlength : positions.length = n := by
    rw [hpositions]
    simp [GenerationError.oneTo]
  rw [hlength]
  exact hpositions

theorem reconciled_gap (hpos : ∀ u ∈ uses, 1 ≤ u.1)
    (hsingle : ∀ s a b, (s, a) ∈ uses → (s, b) ∈ uses → a = b)
    (hslots : slotsOf uses ≠ GenerationError.oneTo (slotsOf uses).length) (key : Text) :
    Reconciled key (fun slot kind => (slot, kind) ∈ uses)
      (.error (.gapOf key (slotsOf uses))) := by
  have hsorted := ascending_slotsOf uses
  have hincomplete : ¬∃ n : Nat, ∀ s, (∃ k, (s, k) ∈ uses) ↔ 1 ≤ s ∧ s ≤ n := by
    rintro ⟨n, hn⟩
    exact hslots (eq_oneTo_of_mem_iff hsorted fun s => (mem_slotsOf uses).trans (hn s))
  have hgreatest : ∀ {s : Int}, 1 ≤ s → (s ≤ (slotsOf uses).getLastD 0 ↔
      ∃ greatest k, (greatest, k) ∈ uses ∧ s ≤ greatest) := by
    intro s hs
    simp only [le_getLastD_iff hsorted hs, mem_slotsOf, ← exists_and_right]
  have hmissing : ∀ s, s ∈ ((GenerationError.oneTo ((slotsOf uses).getLastD 0)).filter
      (!(slotsOf uses).contains ·)) ↔
        1 ≤ s ∧ (∃ greatest k, (greatest, k) ∈ uses ∧ s ≤ greatest) ∧ ¬∃ k, (s, k) ∈ uses := by
    intro s
    have hunused : (!(slotsOf uses).contains s) = true ↔ ¬∃ k, (s, k) ∈ uses := by
      simp [mem_slotsOf]
    rw [List.mem_filter, GenerationError.mem_oneTo, hunused, and_assoc]
    exact and_congr_right fun hs => and_congr_left' (hgreatest hs)
  rw [gapOf_of_ascending hsorted]
  refine .gap _ _ hsingle hincomplete (fun s => mem_slotsOf uses) hsorted hmissing ?_ ?_
  · exact (GenerationError.ascending_oneTo _).filter _
  · -- if nothing were missing, the slots would go from one up to the greatest
    intro hnil
    refine hincomplete ⟨((slotsOf uses).getLastD 0).toNat, fun s => ⟨?_, ?_⟩⟩
    · rintro ⟨k, hk⟩
      have hs : 1 ≤ s := hpos _ hk
      have := (hgreatest hs).mpr ⟨s, k, hk, Int.le_refl s⟩
      omega
    · rintro ⟨hs, hle⟩
      by_contra hunused
      have hmem := (hmissing s).mpr ⟨hs, (hgreatest hs).mp (by omega), hunused⟩
      rw [hnil] at hmem
      contradiction

/-- A slot in use that has no two kinds has one. -/
theorem kindsAt_eq_singleton (hsingle : ∀ s a b, (s, a) ∈ uses → (s, b) ∈ uses → a = b)
    {slot : Int} (hslot : slot ∈ slotsOf uses) :
    kindsAt uses slot = [(kindsAt uses slot).headD .object] := by
  obtain ⟨k, hk⟩ := (mem_slotsOf uses).mp hslot
  match hkinds : kindsAt uses slot with
  | [] =>
    have hmem := (mem_kindsAt uses).mpr hk
    simp [hkinds] at hmem
  | [_] => rfl
  | _ :: _ :: _ =>
    have hlength : 1 < (kindsAt uses slot).length := by simp [hkinds]
    obtain ⟨a, b, hne, ha, hb⟩ := (one_lt_length_kindsAt uses).mp hlength
    exact absurd (hsingle slot a b ha hb) hne

theorem reconciled_arguments (hsingle : ∀ s a b, (s, a) ∈ uses → (s, b) ∈ uses → a = b)
    (hslots : slotsOf uses = GenerationError.oneTo (slotsOf uses).length) (key : Text) :
    Reconciled key (fun slot kind => (slot, kind) ∈ uses)
      (.ok ((slotsOf uses).flatMap fun s => (kindsAt uses s).map fun k => ⟨nameAt s, k, s⟩)) := by
  have hkind := fun s hs => @kindsAt_eq_singleton uses hsingle s hs
  have harguments : (slotsOf uses).flatMap (fun s => (kindsAt uses s).map
      fun k => (⟨nameAt s, k, s⟩ : Argument)) =
        (slotsOf uses).map fun s => ⟨nameAt s, (kindsAt uses s).headD .object, s⟩ := by
    rw [List.map_eq_flatMap]
    refine List.flatMap_congr fun s hs => ?_
    rw [hkind s hs]
    rfl
  rw [harguments]
  refine .arguments _ hsingle (fun s => ?_) fun i hi => ?_
  · rw [← mem_slotsOf, hslots, GenerationError.mem_oneTo, List.length_map, ← hslots]
  · have hlength : i < (slotsOf uses).length := by simpa using hi
    have hslot : (slotsOf uses)[i] = (i : Int) + 1 := by
      rw [List.getElem_of_eq hslots hlength]
      simp [GenerationError.oneTo]
    have hmem : (kindsAt uses (i + 1)).headD .object ∈ kindsAt uses (i + 1) := by
      rw [hkind (i + 1) (hslot ▸ List.getElem_mem hlength)]
      simp
    simp only [List.getElem_map, hslot, true_and]
    exact (mem_kindsAt uses).mp hmem

variable (uses)

/-- Uses of positive slots come to a conflict, a gap or the arguments. -/
theorem reconciled_ofUses (hpos : ∀ u ∈ uses, 1 ≤ u.1) (key : Text) :
    Reconciled key (fun slot kind => (slot, kind) ∈ uses) (ofUses uses key) := by
  simp only [ofUses]
  split
  · rename_i slot hfind
    exact reconciled_conflict hfind key
  · rename_i hfind
    have hsingle : ∀ s a b, (s, a) ∈ uses → (s, b) ∈ uses → a = b := by
      intro s a b ha hb
      by_contra hne
      have hmem : s ∈ slotsOf uses := (mem_slotsOf uses).mpr ⟨a, ha⟩
      have hnot := List.find?_eq_none.mp hfind s hmem
      exact hnot (decide_eq_true ((one_lt_length_kindsAt uses).mpr ⟨a, b, hne, ha, hb⟩))
    split
    · rename_i hslots
      exact reconciled_arguments hsingle hslots key
    · rename_i hslots
      exact reconciled_gap hpos hsingle hslots key

end Uses

/-! ### The templates of a resource -/

theorem used_iff {variants : List Template} {slot : Int} {kind : ArgumentKind} (key : Text) :
    Used variants slot kind ↔
      ∃ v ∈ variants, ∃ slotted, v.slots key = .ok slotted ∧
        ∃ s ∈ slotted, s.2 = slot ∧ s.1.kind = kind := by
  constructor
  · rintro ⟨v, hv, slotted, hslots, hs⟩
    exact ⟨v, hv, slotted, Template.slots_congr hslots key, hs⟩
  · rintro ⟨v, hv, slotted, hslots, hs⟩
    exact ⟨v, hv, slotted, Template.slots_congr hslots [], hs⟩

/-- Templates without collisions come to what their uses come to. -/
theorem reconcile_eq_ofUses {variants : List Template} {key : Text}
    (h : ∀ v ∈ variants, ∃ slotted, v.slots key = .ok slotted) :
    ∃ uses, reconcile variants key = ofUses uses key ∧
      ∀ slot kind, (slot, kind) ∈ uses ↔ Used variants slot kind := by
  obtain ⟨found, hfound⟩ := Sequence.exists_mapM_eq_ok h
  refine ⟨found.flatten.map fun s => (s.2, s.1.kind), ?_, fun slot kind => ?_⟩
  · rw [reconcile, hfound]
    rfl
  · rw [used_iff key, List.mem_map]
    constructor
    · rintro ⟨s, hs, hpair⟩
      obtain ⟨slotted, hslotted, hs⟩ := List.mem_flatten.mp hs
      obtain ⟨v, hv, hslots⟩ := (Sequence.mem_of_mapM_eq_ok hfound slotted).mp hslotted
      cases hpair
      exact ⟨v, hv, slotted, hslots, s, hs, rfl, rfl⟩
    · rintro ⟨v, hv, slotted, hslots, s, hs, rfl, rfl⟩
      have hslotted := (Sequence.mem_of_mapM_eq_ok hfound slotted).mpr ⟨v, hv, hslots⟩
      exact ⟨s, List.mem_flatten.mpr ⟨slotted, hslotted, hs⟩, rfl⟩

/-- Templates without collisions that have the same uses come to the same. -/
theorem reconcile_congr {variants others : List Template} {key : Text}
    (h : ∀ v ∈ variants, ∃ slotted, v.slots key = .ok slotted)
    (hothers : ∀ v ∈ others, ∃ slotted, v.slots key = .ok slotted)
    (hused : ∀ slot kind, Used others slot kind ↔ Used variants slot kind) :
    reconcile others key = reconcile variants key := by
  obtain ⟨uses, huses, hmem⟩ := reconcile_eq_ofUses h
  obtain ⟨uses', huses', hmem'⟩ := reconcile_eq_ofUses hothers
  rw [huses, huses']
  refine ofUses_congr uses (fun u => ?_) key
  rw [hmem', hused, hmem]

theorem reconciled_reconcile {variants : List Template} {key : Text}
    (h : ∀ v ∈ variants, ∃ slotted, v.slots key = .ok slotted)
    (hpos : ∀ slot kind, Used variants slot kind → 1 ≤ slot) :
    Reconciled key (Used variants) (reconcile variants key) := by
  obtain ⟨uses, huses, hmem⟩ := reconcile_eq_ofUses h
  have hused : Used variants = fun slot kind => (slot, kind) ∈ uses := by
    funext slot kind
    exact propext (hmem slot kind).symm
  rw [huses, hused]
  exact reconciled_ofUses uses (fun u hu => hpos u.1 u.2 ((hmem u.1 u.2).mp hu)) key

/-- Reconciling gives arguments only if no template has a collision. -/
theorem exists_slots_of_reconcile_eq_ok {variants : List Template} {key : Text}
    {arguments : List Argument} (h : reconcile variants key = .ok arguments) :
    ∀ v ∈ variants, ∃ slotted, v.slots key = .ok slotted := by
  intro v hv
  obtain ⟨slotted, hslotted, -⟩ := Sequence.bind_eq_ok_iff.mp h
  exact Sequence.exists_of_mapM_eq_ok hslotted hv

theorem nameAt_injective {m n : Nat} (h : nameAt m = nameAt n) : m = n :=
  Text.ofNat_injective (List.append_cancel_left h)

/-- The argument with the name of a slot that is used with a kind is there, and there is no other of
that name. -/
theorem mem_and_name_iff {used : Int → ArgumentKind → Prop} {key : Text} {arguments : List Argument}
    (h : Reconciled key used (.ok arguments)) {slot : Int} {kind : ArgumentKind}
    (hused : used slot kind) (a : Argument) :
    a ∈ arguments ∧ a.name = nameAt slot ↔ a = ⟨nameAt slot, kind, slot⟩ := by
  cases h with
  | arguments _ single complete each =>
    obtain ⟨hlow, hhigh⟩ := (complete slot).mp ⟨kind, hused⟩
    obtain ⟨i, rfl⟩ : ∃ i : Nat, slot = (i + 1 : Nat) := ⟨(slot - 1).toNat, by omega⟩
    have hi : i < arguments.length := by omega
    have hargument : arguments[i] = ⟨nameAt (i + 1 : Nat), kind, (i + 1 : Nat)⟩ := by
      obtain ⟨hname, hposition, hkind⟩ := each i hi
      have := single _ _ _ hkind hused
      rw [Int.natCast_add_one, ← hname, ← this, ← hposition]
    constructor
    · rintro ⟨hmem, hname⟩
      obtain ⟨j, hj, rfl⟩ := List.mem_iff_getElem.mp hmem
      have hij : j + 1 = i + 1 := nameAt_injective ((each j hj).1.symm.trans hname)
      obtain rfl : j = i := by omega
      exact hargument
    · rintro rfl
      exact ⟨hargument ▸ List.getElem_mem hi, rfl⟩

theorem used_pos {variants : List Template}
    (hpositions : ∀ v ∈ variants, ∀ p ∈ v.placeholders, ∀ n ∈ p.position, 1 ≤ n) {slot : Int}
    {kind : ArgumentKind} (h : Used variants slot kind) : 1 ≤ slot := by
  obtain ⟨v, hv, slotted, hslots, s, hs, rfl, -⟩ := h
  exact Template.slots_pos hslots (hpositions v hv) s hs

/-- Reconciling templates whose given positions are positive. If one has a collision, the collision
of the first such one is the error. Otherwise the pairs of slot and kind in use decide: for the same
pairs the outcome is the same, so templates may be reordered and repeated, and it is a conflict at
the least slot with several kinds, a gap, or the arguments from one up to the number of slots. -/
theorem reconcile_outcome (variants : List Template) (key : Text)
    (hpositions : ∀ v ∈ variants, ∀ p ∈ v.placeholders, ∀ n ∈ p.position, 1 ≤ n) :
    (∀ before v after e, variants = before ++ v :: after →
      (∀ u ∈ before, ∃ slotted, u.slots key = .ok slotted) → v.slots key = .error e →
        reconcile variants key = .error e ∧
          ∃ slot kinds, e = .positionCollision key slot kinds v.text) ∧
    ((∀ v ∈ variants, ∃ slotted, v.slots key = .ok slotted) →
      Reconciled key (Used variants) (reconcile variants key) ∧
      (∀ others, (∀ v ∈ others, ∃ slotted, v.slots key = .ok slotted) →
        (∀ slot kind, Used others slot kind ↔ Used variants slot kind) →
          reconcile others key = reconcile variants key) ∧
      ∀ others, (∀ v, v ∈ others ↔ v ∈ variants) →
        reconcile others key = reconcile variants key) := by
  refine ⟨fun before v after e hvariants hbefore herror => ⟨?_, Template.slots_eq_error herror⟩,
    fun h => ⟨reconciled_reconcile h fun slot kind => used_pos hpositions,
      fun others hothers hused => reconcile_congr h hothers hused, fun others hmem => ?_⟩⟩
  · rw [hvariants, reconcile, Sequence.mapM_append_error hbefore herror]
    rfl
  · refine reconcile_congr h (fun v hv => h v ((hmem v).mp hv)) fun slot kind => ?_
    simp only [Used, hmem]

theorem reconcile_outcome_gap : ∃ first second : Template,
    (∀ v ∈ [first, second], ∀ p ∈ v.placeholders, ∀ n ∈ p.position, 1 ≤ n) ∧
    (∀ v ∈ [first, second], ∃ slotted, v.slots "k" = .ok slotted) ∧
    Reconciled "k" (Used [first, second]) (.error (.gap "k" [3] [1, 2])) ∧
    reconcile [second, first, second] "k" = .error (.gap "k" [3] [1, 2]) := by
  obtain ⟨first, hfirst⟩ : ∃ t : Template, t = [.placeholder ⟨.object, "%3$@", some 3⟩] :=
    ⟨_, rfl⟩
  obtain ⟨second, hsecond⟩ : ∃ t : Template,
      t = [.literal "of ", .placeholder ⟨.object, "%3$@", some 3⟩] := ⟨_, rfl⟩
  have hpositions : ∀ v ∈ [first, second], ∀ p ∈ v.placeholders, ∀ n ∈ p.position, 1 ≤ n := by
    subst hfirst hsecond
    simp [Template.placeholders]
  have hslots : ∀ v ∈ [first, second], ∃ slotted, v.slots "k" = .ok slotted := by
    subst hfirst hsecond
    simp only [List.mem_cons, List.not_mem_nil, or_false, forall_eq_or_imp, forall_eq]
    exact ⟨⟨_, rfl⟩, ⟨_, rfl⟩⟩
  have hgap : reconcile [first, second] "k" = .error (.gap "k" [3] [1, 2]) := by
    subst hfirst hsecond
    decide +kernel
  obtain ⟨houtcome, -, hmembers⟩ := (reconcile_outcome _ "k" hpositions).2 hslots
  rw [hgap] at houtcome hmembers
  exact ⟨first, second, hpositions, hslots, houtcome, hmembers _ (by simp)⟩

end Argument

end StringCatalog
