/-!
Dotted versions and their order. A missing component counts as zero, so `1` and `1.0` are the same
version and `1.0.1` comes after both.
-/

namespace GpuRules

structure Version where
  components : List UInt16
  deriving Repr, Inhabited

namespace Version

def values (version : Version) : List Nat :=
  version.components.map UInt16.toNat

def text (version : Version) : String :=
  String.ofList (['.'].intercalate (version.components.map fun c => Nat.toDigits 10 c.toNat))

instance : ToString Version := ⟨text⟩

/-- Component by component, the shorter list continued by zeros. -/
def compareValues : List Nat → List Nat → Ordering
  | [], right => if right.all (· == 0) then .eq else .lt
  | left, [] => if left.all (· == 0) then .eq else .gt
  | a :: left, b :: right => (compare a b).then (compareValues left right)

instance : Ord Version where
  compare left right := compareValues left.values right.values

/-- Versions are the same when they differ by trailing zeros only. -/
instance : BEq Version where
  beq left right := compare left right == .eq

instance : LT Version := ltOfOrd
instance : LE Version := leOfOrd

/-- The first list is matched, component by component, by the second continued by zeros.
What the second has beyond the length of the first is not looked at. -/
def beginsValues : List Nat → List Nat → Bool
  | [], _ => true
  | b :: bound, [] => b == 0 && beginsValues bound []
  | b :: bound, c :: candidate => b == c && beginsValues bound candidate

def begins (version candidate : Version) : Bool :=
  beginsValues version.values candidate.values

end Version

end GpuRules
