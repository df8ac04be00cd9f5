import Mathlib.Data.List.Pairwise
import StringCatalog.Format.Argument

/-! The slots of a template's placeholders: a collision is the only error, it names the template's
text, and the slots themselves do not hang on the key that an error would name. Which slots these
are is known from the placeholders before any is given, and two claims to one slot in different ways
are what makes a collision, in whatever order they come. -/

namespace StringCatalog.Template

/-- Giving slots fails only with a collision. -/
theorem assignSlots_eq_error {key whole : Text} {done : List Slotted} {ps : List Placeholder}
    {e : GenerationError} (h : assignSlots key whole done ps = .error e) :
    ∃ slot kinds, e = .positionCollision key slot kinds whole := by
  induction ps generalizing done with
  | nil => contradiction
  | cons p ps ih =>
    simp only [assignSlots] at h
    split at h
    · cases h
      exact ⟨_, _, rfl⟩
    · exact ih h

theorem assignSlots_congr {key whole : Text} {done result : List Slotted} {ps : List Placeholder}
    (h : assignSlots key whole done ps = .ok result) (key' whole' : Text) :
    assignSlots key' whole' done ps = .ok result := by
  induction ps generalizing done with
  | nil => exact h
  | cons p ps ih =>
    simp only [assignSlots] at h ⊢
    split at h
    · contradiction
    · exact ih h

/-- The placeholders keep their order. -/
theorem map_fst_assignSlots {key whole : Text} {done result : List Slotted}
    {ps : List Placeholder} (h : assignSlots key whole done ps = .ok result) :
    result.map (·.1) = done.map (·.1) ++ ps := by
  induction ps generalizing done with
  | nil =>
    cases h
    simp
  | cons p ps ih =>
    simp only [assignSlots] at h
    split at h
    · contradiction
    · simpa using ih h

/-- Slots are positive if all given positions are. -/
theorem assignSlots_pos {key whole : Text} {done result : List Slotted} {ps : List Placeholder}
    (h : assignSlots key whole done ps = .ok result) (hdone : ∀ d ∈ done, 1 ≤ d.2)
    (hps : ∀ p ∈ ps, ∀ n ∈ p.position, 1 ≤ n) : ∀ s ∈ result, 1 ≤ s.2 := by
  induction ps generalizing done with
  | nil =>
    cases h
    exact hdone
  | cons p ps ih =>
    simp only [assignSlots] at h
    split at h
    · contradiction
    · refine ih h (fun d hd => ?_) fun q hq => hps q (List.mem_cons_of_mem p hq)
      rcases List.mem_append.mp hd with hold | hnew
      · exact hdone d hold
      · rw [List.mem_singleton.mp hnew]
        have hpos := hps p List.mem_cons_self
        unfold slotAfter
        cases hn : p.position with
        | none =>
          rw [Option.getD_none]
          omega
        | some n => exact hpos n hn

variable {t : Template} {key : Text} {slotted : List Slotted}

theorem slots_eq_error {e : GenerationError} (h : t.slots key = .error e) :
    ∃ slot kinds, e = .positionCollision key slot kinds t.text :=
  assignSlots_eq_error h

/-- The slots do not hang on the key. -/
theorem slots_congr (h : t.slots key = .ok slotted) (key' : Text) : t.slots key' = .ok slotted :=
  assignSlots_congr h key' t.text

theorem map_fst_slots (h : t.slots key = .ok slotted) : slotted.map (·.1) = t.placeholders :=
  map_fst_assignSlots h

theorem slots_pos (h : t.slots key = .ok slotted)
    (hpositions : ∀ p ∈ t.placeholders, ∀ n ∈ p.position, 1 ≤ n) : ∀ s ∈ slotted, 1 ≤ s.2 :=
  assignSlots_pos h (by simp) hpositions

/-! ### Slots that are claimed both ways -/

/-- The number of placeholders that are addressed by their place. -/
def unnumbered (ps : List Placeholder) : Nat := (ps.filter (·.position.isNone)).length

/-- The placeholders with the slots that they claim, behind `n` others that are addressed by their
place. -/
def claims : Nat → List Placeholder → List Slotted
  | _, [] => []
  | n, p :: rest =>
    match p.position with
    | some slot => (p, slot) :: claims n rest
    | none => (p, (n : Int) + 1) :: claims (n + 1) rest

theorem claims_some {p : Placeholder} {slot : Int} (h : p.position = some slot) (n : Nat)
    (ps : List Placeholder) : claims n (p :: ps) = (p, slot) :: claims n ps := by
  rw [claims, h]

theorem claims_none {p : Placeholder} (h : p.position = none) (n : Nat) (ps : List Placeholder) :
    claims n (p :: ps) = (p, (n : Int) + 1) :: claims (n + 1) ps := by
  rw [claims, h]

theorem unnumbered_some {p : Placeholder} {slot : Int} (h : p.position = some slot)
    (ps : List Placeholder) : unnumbered (p :: ps) = unnumbered ps := by
  simp [unnumbered, h]

theorem unnumbered_none {p : Placeholder} (h : p.position = none) (ps : List Placeholder) :
    unnumbered (p :: ps) = unnumbered ps + 1 := by
  simp [unnumbered, h]

theorem map_fst_claims (n : Nat) (ps : List Placeholder) : (claims n ps).map (·.1) = ps := by
  induction ps generalizing n with
  | nil => rfl
  | cons p ps ih =>
    cases hp : p.position with
    | some slot => rw [claims_some hp, List.map_cons, ih]
    | none => rw [claims_none hp, List.map_cons, ih]

theorem slot_of_mem_claims {n : Nat} {ps : List Placeholder} {s : Slotted} (h : s ∈ claims n ps) :
    ∀ slot ∈ s.1.position, s.2 = slot := by
  induction ps generalizing n with
  | nil => contradiction
  | cons p ps ih =>
    cases hp : p.position with
    | some slot =>
      rw [claims_some hp] at h
      rcases List.mem_cons.mp h with rfl | hrest
      · simp [hp]
      · exact ih hrest
    | none =>
      rw [claims_none hp] at h
      rcases List.mem_cons.mp h with rfl | hrest
      · simp [hp]
      · exact ih hrest

/-- By their place, placeholders claim one slot after another. -/
theorem places_of_claims (n : Nat) (ps : List Placeholder) :
    ((claims n ps).filter (·.1.position.isNone)).map (·.2) =
      (List.range' (n + 1) (unnumbered ps)).map fun (i : Nat) => (i : Int) := by
  induction ps generalizing n with
  | nil => rfl
  | cons p ps ih =>
    cases hp : p.position with
    | some slot => simp [claims_some hp, unnumbered_some hp, hp, ih]
    | none => simp [claims_none hp, unnumbered_none hp, hp, ih, List.range'_succ]

/-- Two placeholders claim one slot, one of them by its number and the other by its place. -/
def Crosses (d s : Slotted) : Prop := d.2 = s.2 ∧ d.1.position.isSome ≠ s.1.position.isSome

instance : Std.Symm fun d s => ¬Crosses d s :=
  ⟨fun _ _ h hcrosses => h ⟨hcrosses.1.symm, hcrosses.2.symm⟩⟩

theorem claimant?_eq_none_iff {done : List Slotted} {p : Placeholder} {slot : Int} :
    claimant? done p.position.isNone slot = none ↔ ∀ d ∈ done, ¬Crosses d (p, slot) := by
  rw [claimant?, Option.map_eq_none_iff, List.find?_eq_none]
  refine forall₂_congr fun d _ => ?_
  cases hd : d.1.position <;> cases hp : p.position <;> simp [Crosses, hd, hp]

theorem claimant?_eq_some {done : List Slotted} {p : Placeholder} {slot : Int} {k : ArgumentKind}
    (h : claimant? done p.position.isNone slot = some k) :
    ∃ d ∈ done, Crosses d (p, slot) ∧ d.1.kind = k := by
  obtain ⟨d, hfind, rfl⟩ := Option.map_eq_some_iff.mp h
  have hclaims := List.find?_some hfind
  refine ⟨d, List.mem_of_find?_eq_some hfind, ?_, rfl⟩
  cases hd : d.1.position <;> cases hp : p.position <;> simp_all [Crosses]

/-- What giving slots comes to where these are claimed: they are given as they are claimed if no two
claims cross, and else the first claim that crosses an earlier one is the collision. -/
inductive Slotting (key whole : Text) (claimed : List Slotted) :
    Except GenerationError (List Slotted) → Prop
  | slots (free : claimed.Pairwise fun d s => ¬Crosses d s) :
      Slotting key whole claimed (.ok claimed)
  | collision (before : List Slotted) (s : Slotted) (after : List Slotted) (d : Slotted)
      (place : claimed = before ++ s :: after) (mem : d ∈ before) (crosses : Crosses d s)
      (free : before.Pairwise fun d s => ¬Crosses d s) :
      Slotting key whole claimed (.error (.collisionOf key s.2 [d.1.kind, s.1.kind] whole))

/-- The slots claimed so far are those given. The induction is on the placeholders to come. -/
theorem slotting_assignSlots {key whole : Text} {done : List Slotted}
    (hdone : done.Pairwise fun d s => ¬Crosses d s) (ps : List Placeholder) :
    Slotting key whole (done ++ claims (unnumbered (done.map (·.1))) ps)
      (assignSlots key whole done ps) := by
  induction ps generalizing done with
  | nil =>
    rw [claims, List.append_nil]
    exact .slots hdone
  | cons p ps ih =>
    have hslot : slotAfter done p = p.position.getD ((unnumbered (done.map (·.1)) : Int) + 1) := by
      rw [slotAfter, unnumbered, List.filter_map, List.length_map]
      rfl
    have hclaims : done ++ claims (unnumbered (done.map (·.1))) (p :: ps) =
        done ++ [(p, slotAfter done p)] ++
          claims (unnumbered ((done ++ [(p, slotAfter done p)]).map (·.1))) ps := by
      rw [hslot]
      cases hp : p.position with
      | some slot => simp [claims_some hp, unnumbered, hp]
      | none => simp [claims_none hp, unnumbered, hp]
    simp only [assignSlots]
    split
    · rename_i other hother
      obtain ⟨d, hd, hcrosses, rfl⟩ := claimant?_eq_some hother
      rw [hclaims, List.append_assoc]
      exact .collision done (p, slotAfter done p) _ d rfl hd hcrosses hdone
    · rename_i hnone
      rw [hclaims]
      refine ih (List.pairwise_append.mpr ⟨hdone, List.pairwise_singleton _ _, fun d hd s hs => ?_⟩)
      rw [List.mem_singleton.mp hs]
      exact claimant?_eq_none_iff.mp hnone d hd

theorem slotting_slots (t : Template) (key : Text) :
    Slotting key t.text (claims 0 t.placeholders) (t.slots key) :=
  slotting_assignSlots List.Pairwise.nil t.placeholders

/-- The slots that are given are those that are claimed. -/
theorem eq_claims_of_slots (h : t.slots key = .ok slotted) : slotted = claims 0 t.placeholders := by
  have hslotting := slotting_slots t key
  rw [h] at hslotting
  cases hslotting
  rfl

theorem places_eq_oneTo (ps : List Placeholder) :
    ((claims 0 ps).filter (·.1.position.isNone)).map (·.2) =
      GenerationError.oneTo (unnumbered ps) := by
  rw [places_of_claims, GenerationError.oneTo, List.range'_eq_map_range, List.map_map]
  refine List.map_congr_left fun i _ => ?_
  simp only [Function.comp_apply]
  omega

/-- A slot is claimed by place if it is none above the number of placeholders that do so. -/
theorem exists_place_iff {ps : List Placeholder} {slot : Int} :
    (∃ s ∈ claims 0 ps, s.1.position = none ∧ s.2 = slot) ↔ 1 ≤ slot ∧ slot ≤ unnumbered ps := by
  have hmem : slot ∈ ((claims 0 ps).filter (·.1.position.isNone)).map (·.2) ↔
      slot ∈ GenerationError.oneTo (unnumbered ps) := by rw [places_eq_oneTo]
  simp only [List.mem_map, List.mem_filter, Option.isNone_iff_eq_none, GenerationError.oneTo,
    List.mem_range, Int.toNat_natCast, and_assoc] at hmem
  rw [hmem]
  constructor
  · rintro ⟨i, hi, rfl⟩
    omega
  · rintro ⟨hlow, hhigh⟩
    exact ⟨(slot - 1).toNat, by omega, by omega⟩

/-- Two claims cross exactly if some number is the place of a placeholder, whichever is first. -/
theorem exists_crosses_iff {ps : List Placeholder} :
    (∃ d ∈ claims 0 ps, ∃ s ∈ claims 0 ps, Crosses d s) ↔
      ∃ p ∈ ps, ∃ n ∈ p.position, 1 ≤ n ∧ n ≤ unnumbered ps := by
  have hfst : ∀ s ∈ claims 0 ps, s.1 ∈ ps := fun s hs => by
    have := List.mem_map_of_mem (f := (·.1)) hs
    rwa [map_fst_claims] at this
  -- of two claims that cross, one is by number and the other by place
  have hnumber : ∀ d ∈ claims 0 ps, ∀ s ∈ claims 0 ps, d.2 = s.2 → ∀ n, d.1.position = some n →
      s.1.position = none → ∃ p ∈ ps, ∃ n ∈ p.position, 1 ≤ n ∧ n ≤ unnumbered ps := by
    intro d hd s hs hsame n hn hnone
    refine ⟨d.1, hfst d hd, n, hn, ?_⟩
    rw [← slot_of_mem_claims hd n hn, hsame]
    exact exists_place_iff.mp ⟨s, hs, hnone, rfl⟩
  constructor
  · rintro ⟨d, hd, s, hs, hsame, hways⟩
    cases hdn : d.1.position with
    | some n =>
      cases hsn : s.1.position with
      | some m => simp [hdn, hsn] at hways
      | none => exact hnumber d hd s hs hsame n hdn hsn
    | none =>
      cases hsn : s.1.position with
      | some m => exact hnumber s hs d hd hsame.symm m hsn hdn
      | none => simp [hdn, hsn] at hways
  · rintro ⟨p, hp, n, hn, hrange⟩
    rw [← map_fst_claims 0 ps] at hp
    obtain ⟨d, hd, rfl⟩ := List.mem_map.mp hp
    obtain ⟨s, hs, hnone, hslot⟩ := exists_place_iff.mpr hrange
    refine ⟨d, hd, s, hs, (slot_of_mem_claims hd n hn).trans hslot.symm, ?_⟩
    simp [Option.mem_def.mp hn, hnone]

/-- The slots of a template's placeholders, each of which claims its number or, without one, its
place among those without. There is a collision exactly if some number is the place of a
placeholder, and it is the first claim to a slot that was already claimed in the other way.
Otherwise the placeholders have the slots that they claim. -/
theorem slots_outcome (t : Template) (key : Text) :
    ((∃ slot kinds text, t.slots key = .error (.positionCollision key slot kinds text)) ↔
      ∃ p ∈ t.placeholders, ∃ n ∈ p.position, 1 ≤ n ∧ n ≤ unnumbered t.placeholders) ∧
    Slotting key t.text (claims 0 t.placeholders) (t.slots key) ∧
    (claims 0 t.placeholders).map (·.1) = t.placeholders ∧
    ((claims 0 t.placeholders).filter (·.1.position.isNone)).map (·.2) =
      GenerationError.oneTo (unnumbered t.placeholders) ∧
    ∀ s ∈ claims 0 t.placeholders, ∀ n ∈ s.1.position, s.2 = n := by
  have hslotting := slotting_slots t key
  refine ⟨?_, hslotting, map_fst_claims 0 _, places_eq_oneTo _, fun s hs => slot_of_mem_claims hs⟩
  rw [← exists_crosses_iff]
  generalize t.slots key = outcome at hslotting
  cases hslotting with
  | slots free =>
    constructor
    · nofun
    · rintro ⟨d, hd, s, hs, hcrosses⟩
      have hne : d ≠ s := fun heq => hcrosses.2 (by rw [heq])
      exact absurd hcrosses (free.forall hd hs hne)
  | collision before s after d place mem crosses free =>
    refine iff_of_true ⟨_, _, _, rfl⟩ ⟨d, ?_, s, ?_, crosses⟩
    · rw [place]
      exact List.mem_append_left _ mem
    · rw [place]
      exact List.mem_append_right _ List.mem_cons_self

example : Template.slots [.placeholder ⟨.int, "%2$d", some 2⟩, .placeholder ⟨.object, "%@", none⟩,
      .placeholder ⟨.object, "%@", none⟩] "k" =
    .error (.positionCollision "k" 2 [.int, .object] "%2$d%@%@") := rfl

end StringCatalog.Template
