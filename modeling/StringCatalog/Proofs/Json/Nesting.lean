import StringCatalog.Json.Reader

/-! Reading where fewer lists and objects may be nested: it comes to the same, or it runs out of
room. -/

namespace StringCatalog.Json

variable {α β : Type}

/-- The first reading has run out of room, or both come to the same. -/
def IsCramped (r r' : Except ReadError α) : Prop := r = .error .tooDeep ∨ r = r'

theorem IsCramped.refl (r : Except ReadError α) : IsCramped r r := .inr rfl

theorem IsCramped.bind {r r' : Except ReadError α} {f f' : α → Except ReadError β}
    (h : IsCramped r r') (hf : ∀ a, IsCramped (f a) (f' a)) : IsCramped (r >>= f) (r' >>= f') := by
  rcases h with rfl | rfl
  · exact .inl rfl
  · cases r with
    | error e => exact .refl _
    | ok a => exact hf a

/-- What is inside a list or an object has less room than that on both sides. -/
theorem IsCramped.inside {depth depth' : Nat} (h : depth ≤ depth')
    {f f' : Nat → Except ReadError α} (hf : ∀ n n', n ≤ n' → IsCramped (f n) (f' n')) :
    IsCramped (inside depth >>= f) (inside depth' >>= f') := by
  cases depth with
  | zero => exact .inl rfl
  | succ n =>
    obtain ⟨n', rfl⟩ : ∃ n', depth' = n' + 1 := ⟨depth' - 1, by omega⟩
    exact hf n n' (Nat.le_of_succ_le_succ h)

mutual

theorem isCramped_readValue : ∀ (bound depth depth' : Nat) (s : Text), depth ≤ depth' →
    IsCramped (readValue depth bound s) (readValue depth' bound s)
  | 0, _, _, _, _ => .refl _
  | bound + 1, depth, depth', s, h => by
    unfold readValue
    split
    · exact .refl _
    · refine .inside h fun n n' hn => ?_
      split
      · exact .refl _
      · exact (isCramped_readItems bound n n' _ hn).bind fun _ => .refl _
    · refine .inside h fun n n' hn => ?_
      split
      · exact .refl _
      · exact (isCramped_readMembers bound n n' _ hn).bind fun _ => .refl _
    · exact .refl _
termination_by structural bound => bound

theorem isCramped_readItems : ∀ (bound depth depth' : Nat) (s : Text), depth ≤ depth' →
    IsCramped (readItems depth bound s) (readItems depth' bound s)
  | 0, _, _, _, _ => .refl _
  | bound + 1, depth, depth', s, h => by
    unfold readItems
    refine (isCramped_readValue bound depth depth' s h).bind fun found => ?_
    dsimp only
    split
    · exact (isCramped_readItems bound depth depth' _ h).bind fun _ => .refl _
    · exact .refl _
    · exact .refl _
termination_by structural bound => bound

theorem isCramped_readMembers : ∀ (bound depth depth' : Nat) (s : Text), depth ≤ depth' →
    IsCramped (readMembers depth bound s) (readMembers depth' bound s)
  | 0, _, _, _, _ => .refl _
  | bound + 1, depth, depth', s, h => by
    unfold readMembers
    split
    · split
      · exact .refl _
      · split
        · refine (isCramped_readValue bound depth depth' _ h).bind fun found => ?_
          dsimp only
          split
          · exact (isCramped_readMembers bound depth depth' _ h).bind fun _ => .refl _
          · exact .refl _
          · exact .refl _
        · exact .refl _
    · exact .refl _
termination_by structural bound => bound

end

/-- A text is read the same way where more lists and objects may be nested, unless it is nested too
deeply for the first reading. -/
theorem isCramped_ofText {depth depth' : Nat} (h : depth ≤ depth') (s : Text) :
    IsCramped (ofText depth s) (ofText depth' s) :=
  (isCramped_readValue _ depth depth' _ h).bind fun _ => .refl _

end StringCatalog.Json
