import StringCatalog.Text.Basic

/-! Sets of code points, given by their maximal ranges. -/

namespace StringCatalog

/-- A set of code points, as the first and last members of its ranges in ascending order. -/
structure CodePointSet where
  ranges : List (Nat × Nat)

namespace CodePointSet

/-- Some range of the set holds the character. -/
def contains (set : CodePointSet) (c : CodePoint) : Bool :=
  set.ranges.any fun r => Nat.ble r.1 c.toNat && Nat.ble c.toNat r.2

end CodePointSet

end StringCatalog
