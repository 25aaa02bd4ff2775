/-!
The graphics features that rules disable, and sets of them.
-/

namespace GpuRules

inductive Feature where
  | accelerated2dCanvas | acceleratedCompositing | webgl | multisampling | flash3d | flashStage3d
  deriving DecidableEq, Repr

namespace Feature

/-- Every feature, in the order in which sets list them. -/
def all : List Feature :=
  [.accelerated2dCanvas, .acceleratedCompositing, .webgl, .multisampling, .flash3d, .flashStage3d]

@[simp] theorem mem_all (feature : Feature) : feature ∈ all := by
  cases feature <;> decide

def index : Feature → Fin 6
  | .accelerated2dCanvas => 0
  | .acceleratedCompositing => 1
  | .webgl => 2
  | .multisampling => 3
  | .flash3d => 4
  | .flashStage3d => 5

def name : Feature → String
  | .accelerated2dCanvas => "accelerated_2d_canvas"
  | .acceleratedCompositing => "accelerated_compositing"
  | .webgl => "webgl"
  | .multisampling => "multisampling"
  | .flash3d => "flash_3d"
  | .flashStage3d => "flash_stage3d"

def ofName? : String → Option Feature
  | "accelerated_2d_canvas" => some .accelerated2dCanvas
  | "accelerated_compositing" => some .acceleratedCompositing
  | "webgl" => some .webgl
  | "multisampling" => some .multisampling
  | "flash_3d" => some .flash3d
  | "flash_stage3d" => some .flashStage3d
  | _ => none

@[simp] theorem ofName?_name (feature : Feature) : ofName? feature.name = some feature := by
  cases feature <;> rfl

end Feature

/-- A set of features, one bit for each. That no other bit is ever set is carried by the type. In a
machine word it would be an invariant, kept by hiding the word. -/
structure FeatureMask where
  bits : BitVec 6
  deriving DecidableEq, Repr

namespace FeatureMask

def empty : FeatureMask := ⟨0⟩
def all : FeatureMask := ⟨BitVec.allOnes 6⟩

instance : EmptyCollection FeatureMask := ⟨empty⟩
instance : Inhabited FeatureMask := ⟨empty⟩
instance : Union FeatureMask := ⟨fun a b => ⟨a.bits ||| b.bits⟩⟩
instance : Inter FeatureMask := ⟨fun a b => ⟨a.bits &&& b.bits⟩⟩

def has (mask : FeatureMask) (feature : Feature) : Bool :=
  mask.bits[feature.index]

def ofFeature (feature : Feature) : FeatureMask :=
  ⟨BitVec.twoPow 6 feature.index⟩

/-- A feature's name stands for that feature alone, and `all` for every one. -/
def ofName? (name : String) : Option FeatureMask :=
  if name = "all" then some all else (Feature.ofName? name).map ofFeature

def isEmpty (mask : FeatureMask) : Bool := mask == empty

def contains (mask other : FeatureMask) : Bool := mask ∩ other == other

def intersects (mask other : FeatureMask) : Bool := !(mask ∩ other).isEmpty

def union (masks : List FeatureMask) : FeatureMask :=
  masks.foldr (· ∪ ·) ∅

@[simp] theorem has_empty (feature : Feature) : (∅ : FeatureMask).has feature = false := by
  cases feature <;> rfl

@[simp] theorem has_union (a b : FeatureMask) (feature : Feature) :
    (a ∪ b).has feature = (a.has feature || b.has feature) := by
  simp [has, Union.union]

@[simp] theorem has_inter (a b : FeatureMask) (feature : Feature) :
    (a ∩ b).has feature = (a.has feature && b.has feature) := by
  simp [has, Inter.inter]

def names (mask : FeatureMask) : List String :=
  (Feature.all.filter mask.has).map Feature.name

def text (mask : FeatureMask) : String :=
  if mask.isEmpty then "none" else ", ".intercalate mask.names

end FeatureMask

end GpuRules
