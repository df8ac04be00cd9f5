/-! How runs end that may fail and that change a state: with a result or a failure, in a state that
keeps what was done before the failure. Each rule takes what is to be shown of a run back to what is
to be shown of its steps; a run that goes through is its steps one after another. -/

namespace StringCatalog

variable {ε σ α β : Type}

/-- However the run ends, what it ends with and the state that it leaves are as claimed. -/
def Ends (job : ExceptT ε (StateM σ) α) (s : σ) (claim : Except ε α → σ → Prop) : Prop :=
  claim (job.run.run s).1 (job.run.run s).2

/-- One claim about the result and the state where a run goes through, and another one about the
failure and the state where it does not. -/
@[reducible]
def either (done : α → σ → Prop) (failed : ε → σ → Prop) : Except ε α → σ → Prop
  | .ok a, s => done a s
  | .error e, s => failed e s

namespace Ends

variable {job : ExceptT ε (StateM σ) α} {f : α → ExceptT ε (StateM σ) β} {s : σ}
  {claim : Except ε α → σ → Prop} {claim' : Except ε β → σ → Prop}

theorem pure {a : α} (h : claim (.ok a) s) : Ends (pure a) s claim := h

theorem throw {e : ε} (h : claim (.error e) s) : Ends (throw e) s claim := h

theorem lift {r : Except ε α} (h : claim r s) :
    Ends (monadLift r : ExceptT ε (StateM σ) α) s claim := by
  cases r <;> exact h

theorem ofExcept {r : Except ε α} (h : claim r s) : Ends (ofExcept r) s claim := by
  cases r <;> exact h

theorem set {s' : σ} {claim : Except ε PUnit → σ → Prop} (h : claim (.ok ⟨⟩) s') :
    Ends (set s' : ExceptT ε (StateM σ) PUnit) s claim := h

theorem mono {claim₁ claim₂ : Except ε α → σ → Prop} (h : Ends job s claim₁)
    (himp : ∀ r s', claim₁ r s' → claim₂ r s') : Ends job s claim₂ := himp _ _ h

theorem and {claim₁ claim₂ : Except ε α → σ → Prop} (h₁ : Ends job s claim₁)
    (h₂ : Ends job s claim₂) : Ends job s fun r s' => claim₁ r s' ∧ claim₂ r s' := ⟨h₁, h₂⟩

/-- What follows a step is run in the state that the step leaves, if the step does not fail. -/
theorem bind
    (h : Ends job s (either (fun a s' => Ends (f a) s' claim') fun e => claim' (.error e))) :
    Ends (job >>= f) s claim' := by
  unfold Ends at h ⊢
  rw [ExceptT.run_bind, StateT.run_bind]
  cases hjob : job.run.run s with
  | mk r s' =>
    rw [hjob] at h
    cases r <;> exact h

theorem get_bind {f : σ → ExceptT ε (StateM σ) β} (h : Ends (f s) s claim') :
    Ends (get >>= f) s claim' := bind h

theorem ofExcept_bind {r : Except ε α} {a : α} (hr : r = .ok a) (h : Ends (f a) s claim') :
    Ends (MonadExcept.ofExcept r >>= f) s claim' := by
  subst hr
  exact bind h

/-- A handler is run in the state that the failure leaves. -/
theorem tryCatch {handle : ε → ExceptT ε (StateM σ) α}
    (h : Ends job s (either (fun a => claim (.ok a)) fun e s' => Ends (handle e) s' claim)) :
    Ends (tryCatch job handle) s claim := by
  unfold Ends at h ⊢
  rw [ExceptT.run_tryCatch, StateT.run_bind]
  cases hjob : job.run.run s with
  | mk r s' =>
    rw [hjob] at h
    cases r <;> exact h

/-- A run of steps, each of which keeps what holds of the items done so far, comes as far as the
first step that fails. That step may fail before or behind its own item. -/
theorem mapM {f : α → ExceptT ε (StateM σ) β} {p : List α → σ → Prop} {xs : List α}
    (hstart : p [] s)
    (hstep : ∀ done x rest, xs = done ++ x :: rest → ∀ s', p done s' →
      Ends (f x) s' (either (fun _ => p (done ++ [x])) fun _ s'' =>
        p done s'' ∨ p (done ++ [x]) s'')) :
    Ends (xs.mapM f) s fun r s' => ∃ done rest, xs = done ++ rest ∧ p done s' ∧
      ∀ ys, r = .ok ys → rest = [] := by
  -- over the items that remain, since the state and what is done change from step to step
  suffices h : ∀ rest done s', xs = done ++ rest → p done s' →
      Ends (rest.mapM f) s' fun r s'' => ∃ done rest, xs = done ++ rest ∧ p done s'' ∧
        ∀ ys, r = .ok ys → rest = [] from h xs [] s rfl hstart
  intro rest
  induction rest with
  | nil =>
    intro done s' hxs hdone
    exact pure ⟨done, [], hxs, hdone, fun _ _ => rfl⟩
  | cons x rest ih =>
    intro done s' hxs hdone
    rw [List.mapM_cons]
    refine bind ((hstep done x rest hxs s' hdone).mono fun r s'' hnext => ?_)
    cases r with
    | error e =>
      rcases hnext with hbefore | hbehind
      · exact ⟨done, x :: rest, hxs, hbefore, nofun⟩
      · exact ⟨done ++ [x], rest, by simpa using hxs, hbehind, nofun⟩
    | ok y =>
      refine bind ((ih (done ++ [x]) s'' (by simpa using hxs) hnext).mono fun r s''' hend => ?_)
      cases r with
      | error e =>
        obtain ⟨done', rest', hxs', hdone', -⟩ := hend
        exact ⟨done', rest', hxs', hdone', nofun⟩
      | ok ys =>
        obtain ⟨done', rest', hxs', hdone', hnil⟩ := hend
        exact pure ⟨done', rest', hxs', hdone', fun _ _ => hnil ys rfl⟩

/-- A run of steps, each of which keeps what holds of the state and fails only as claimed, does so as
a whole. -/
theorem mapM_keeps {f : α → ExceptT ε (StateM σ) β} {p : σ → Prop} {q : ε → Prop} {xs : List α}
    (hstart : p s)
    (hstep : ∀ x ∈ xs, ∀ s', p s' → Ends (f x) s' (either (fun _ => p) fun e _ => q e)) :
    Ends (xs.mapM f) s (either (fun _ => p) fun e _ => q e) := by
  induction xs generalizing s with
  | nil => exact pure hstart
  | cons x xs ih =>
    rw [List.mapM_cons]
    refine bind ((hstep x List.mem_cons_self s hstart).mono fun r s' h => ?_)
    cases r with
    | error e => exact h
    | ok y =>
      refine bind ((ih h fun x hx => hstep x (List.mem_cons_of_mem _ hx)).mono fun r s'' h => ?_)
      cases r with
      | error e => exact h
      | ok ys => exact pure h

end Ends

/-! ### Runs that go through -/

/-- The run goes through with this result and leaves this state. -/
def Completes (job : ExceptT ε (StateM σ) α) (s : σ) (a : α) (s' : σ) : Prop :=
  job.run.run s = (.ok a, s')

section

variable {job : ExceptT ε (StateM σ) α} {f : α → ExceptT ε (StateM σ) β} {s s' : σ} {a a' : α}
  {b : β}

theorem exists_completes_iff : (∃ s', Completes job s a s') ↔ (job.run.run s).1 = .ok a := by
  constructor
  · rintro ⟨s', h⟩
    exact congrArg Prod.fst h
  · exact fun h => ⟨_, Prod.ext h rfl⟩

theorem completes_pure_iff :
    Completes (pure a' : ExceptT ε (StateM σ) α) s a s' ↔ a = a' ∧ s' = s := by
  constructor
  · intro h
    cases h
    exact ⟨rfl, rfl⟩
  · rintro ⟨rfl, rfl⟩
    rfl

theorem completes_bind_iff : Completes (job >>= f) s b s' ↔
    ∃ a between, Completes job s a between ∧ Completes (f a) between b s' := by
  unfold Completes
  rw [ExceptT.run_bind, StateT.run_bind]
  cases hjob : job.run.run s with
  | mk r between =>
    cases r with
    | error e =>
      constructor
      · intro h
        cases h
      · rintro ⟨a, between, h, -⟩
        cases h
    | ok a =>
      constructor
      · exact fun h => ⟨a, between, rfl, h⟩
      · rintro ⟨a, between, h, hrest⟩
        cases h
        exact hrest

theorem Completes.bind {between : σ} (h : Completes job s a between)
    (hrest : Completes (f a) between b s') : Completes (job >>= f) s b s' :=
  completes_bind_iff.mpr ⟨a, between, h, hrest⟩

theorem Completes.eq_of_bind_pure {b' : β}
    (h : Completes (job >>= fun _ => (pure b' : ExceptT ε (StateM σ) β)) s b s') : b = b' := by
  obtain ⟨_, _, -, h⟩ := completes_bind_iff.mp h
  exact (completes_pure_iff.mp h).1

theorem completes_ofExcept_iff {r : Except ε α} :
    Completes (MonadExcept.ofExcept r : ExceptT ε (StateM σ) α) s a s' ↔ r = .ok a ∧ s' = s := by
  cases r with
  | error e =>
    constructor
    · intro h
      cases h
    · rintro ⟨h, -⟩
      cases h
  | ok a' =>
    rw [Except.ok.injEq, eq_comm (a := a')]
    exact completes_pure_iff

theorem completes_ofExcept_bind_iff {r : Except ε α} (hr : r = .ok a) :
    Completes (MonadExcept.ofExcept r >>= f) s b s' ↔ Completes (f a) s b s' := by
  subst hr
  exact Iff.rfl

theorem completes_lift_iff {r : Except ε α} :
    Completes (monadLift r : ExceptT ε (StateM σ) α) s a s' ↔ r = .ok a ∧ s' = s := by
  cases r with
  | error e => exact completes_ofExcept_iff (r := .error e)
  | ok a' => exact completes_ofExcept_iff (r := .ok a')

/-- A run with a handler goes through with or without the handler. -/
theorem completes_tryCatch_iff {handle : ε → ExceptT ε (StateM σ) α} :
    Completes (tryCatch job handle) s a s' ↔ Completes job s a s' ∨
      ∃ e between, job.run.run s = (.error e, between) ∧ Completes (handle e) between a s' := by
  unfold Completes
  rw [ExceptT.run_tryCatch, StateT.run_bind]
  cases hjob : job.run.run s with
  | mk r between =>
    cases r with
    | error e =>
      constructor
      · exact fun h => .inr ⟨e, between, rfl, h⟩
      · rintro (h | ⟨e', between', h, hhandle⟩)
        · cases h
        · cases h
          exact hhandle
    | ok a' =>
      constructor
      · exact .inl
      · rintro (h | ⟨e', between', h, -⟩)
        · exact h
        · cases h

theorem completes_get_bind_iff {f : σ → ExceptT ε (StateM σ) β} :
    Completes (get >>= f) s b s' ↔ Completes (f s) s b s' := Iff.rfl

theorem Ends.of_completes {claim : Except ε α → σ → Prop} (h : Ends job s claim)
    (hrun : Completes job s a s') : claim (.ok a) s' := by
  have hrun : job.run.run s = (.ok a, s') := hrun
  rwa [Ends, hrun] at h

end

end StringCatalog
