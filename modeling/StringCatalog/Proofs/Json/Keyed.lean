import StringCatalog.Json.Reader
import StringCatalog.Proofs.OrderedMap
import StringCatalog.Proofs.Sequence

/-! JSON values in which the members of every object have different names. All values that are read
from a text are of this kind, since a name that comes again replaces the member that has it. -/

namespace StringCatalog

namespace Json

/-- The members of every object in the value have different names. -/
inductive IsKeyed : Json → Prop
  | null : IsKeyed null
  | bool (b : Bool) : IsKeyed (bool b)
  | int (i : Int) : IsKeyed (int i)
  | float (x : Binary64) : IsKeyed (float x)
  | text (t : Text) : IsKeyed (text t)
  | list {items : List Json} (h : ∀ item ∈ items, IsKeyed item) : IsKeyed (list items)
  | object {members : List (Text × Json)} (hnames : (members.map (·.1)).Nodup)
      (h : ∀ m ∈ members, IsKeyed m.2) : IsKeyed (object members)

theorem isKeyed_object_iff {members : List (Text × Json)} : (object members).IsKeyed ↔
    (members.map (·.1)).Nodup ∧ ∀ m ∈ members, m.2.IsKeyed :=
  ⟨fun | .object hnames h => ⟨hnames, h⟩, fun h => .object h.1 h.2⟩

theorem isKeyed_readUnsigned {negative : Bool} {s : Text} {found : Json × Text}
    (h : readUnsigned negative s = .ok found) : found.1.IsKeyed := by
  unfold readUnsigned at h
  dsimp only at h
  split at h
  all_goals
    split at h
    · contradiction
    · split at h
      · split at h
        · contradiction
        · cases h
          exact .int _
      · cases h
        exact .float _

theorem isKeyed_readAtom {s : Text} {found : Json × Text} (h : readAtom s = .ok found) :
    found.1.IsKeyed := by
  unfold readAtom at h
  dsimp only at h
  split at h
  · rename_i word hword
    cases h
    obtain ⟨w, hw, hfound⟩ := List.exists_of_findSome?_eq_some hword
    obtain ⟨rest, -, rfl⟩ := Option.map_eq_some_iff.mp hfound
    simp only [List.mem_cons, List.not_mem_nil, or_false] at hw
    rcases hw with rfl | rfl | rfl | rfl | rfl | rfl <;> constructor
  · split at h
    · exact isKeyed_readUnsigned h
    · exact isKeyed_readUnsigned h

mutual

theorem isKeyed_readValue : ∀ (bound depth : Nat) (s : Text) (found : Json × Text),
    readValue depth bound s = .ok found → found.1.IsKeyed
  | 0, _, _, _, h => nomatch h
  | bound + 1, depth, s, found, h => by
    unfold readValue at h
    split at h
    · split at h
      · cases h
        exact .text _
      · contradiction
    · obtain ⟨inner, -, h⟩ := Sequence.bind_eq_ok_iff.mp h
      split at h
      · cases h
        exact .list (by simp)
      · obtain ⟨read, hread, h⟩ := Sequence.bind_eq_ok_iff.mp h
        cases h
        exact .list (isKeyed_readItems bound inner _ read hread)
    · obtain ⟨inner, -, h⟩ := Sequence.bind_eq_ok_iff.mp h
      split at h
      · cases h
        exact .object List.nodup_nil (by simp)
      · obtain ⟨read, hread, h⟩ := Sequence.bind_eq_ok_iff.mp h
        cases h
        have hmembers := isKeyed_readMembers bound inner _ read hread
        exact .object (OrderedMap.nodup_ofPairs _) fun m hm =>
          hmembers m ((OrderedMap.ofPairs_subperm _).subset hm)
    · exact isKeyed_readAtom h
termination_by structural bound => bound

theorem isKeyed_readItems : ∀ (bound depth : Nat) (s : Text) (found : List Json × Text),
    readItems depth bound s = .ok found → ∀ item ∈ found.1, item.IsKeyed
  | 0, _, _, _, h => nomatch h
  | bound + 1, depth, s, found, h => by
    unfold readItems at h
    obtain ⟨first, hfirst, h⟩ := Sequence.bind_eq_ok_iff.mp h
    have hitem := isKeyed_readValue bound depth s first hfirst
    dsimp only at h
    split at h
    · obtain ⟨others, hothers, h⟩ := Sequence.bind_eq_ok_iff.mp h
      cases h
      exact List.forall_mem_cons.mpr ⟨hitem, isKeyed_readItems bound depth _ others hothers⟩
    · cases h
      exact List.forall_mem_singleton.mpr hitem
    · contradiction
termination_by structural bound => bound

theorem isKeyed_readMembers : ∀ (bound depth : Nat) (s : Text) (found : List (Text × Json) × Text),
    readMembers depth bound s = .ok found → ∀ m ∈ found.1, m.2.IsKeyed
  | 0, _, _, _, h => nomatch h
  | bound + 1, depth, s, found, h => by
    unfold readMembers at h
    split at h
    · split at h
      · contradiction
      · split at h
        · obtain ⟨first, hfirst, h⟩ := Sequence.bind_eq_ok_iff.mp h
          have hvalue := isKeyed_readValue bound depth _ first hfirst
          dsimp only at h
          split at h
          · obtain ⟨others, hothers, h⟩ := Sequence.bind_eq_ok_iff.mp h
            cases h
            exact List.forall_mem_cons.mpr
              ⟨hvalue, isKeyed_readMembers bound depth _ others hothers⟩
          · cases h
            exact List.forall_mem_singleton.mpr hvalue
          · contradiction
        · contradiction
    · contradiction
termination_by structural bound => bound

end

/-- The objects in a value that is read from a text have no name twice. -/
theorem isKeyed_of_ofText {deepest : Nat} {s : Text} {j : Json}
    (h : ofText deepest s = .ok j) : j.IsKeyed := by
  obtain ⟨found, hfound, h⟩ := Sequence.bind_eq_ok_iff.mp h
  dsimp only at h
  split at h
  · cases h
    exact isKeyed_readValue _ _ _ found hfound
  · contradiction

end Json

end StringCatalog
