/-
# Registration plans

Which types are registered where, each list in the order of the qualified names.
-/
import Registrar.Classification

namespace Registrar

/-- Whether a class can be registered: it is a concrete type, and not an iterator. -/
def ClassType.isRegistrable (c : ClassType) (s : Settings) : Bool :=
  !c.isTemplate && !c.isWithinTemplate &&
    (s.iteratorMarker.isEmpty || !Text.contains c.simpleName s.iteratorMarker)

/-- The types that are registered, by registry. -/
structure Plan where
  enums : List Handle := []
  classes : List Handle := []
  components : List Handle := []
  systems : List Handle := []
  scenes : List Handle := []
  deriving DecidableEq, Repr

namespace Plan

/-- The types that are entered into the registry of a role. -/
def roleHandles (p : Plan) : Role → List Handle
  | .component => p.components
  | .system => p.systems
  | .scene => p.scenes
  | .none => []

/-- Handles in the order of the qualified names, those of one name in their own order. -/
def sorted (m : Model) (hs : List Handle) : List Handle :=
  hs.mergeSort fun a b => decide (m.nameAt a ≤ m.nameAt b)

/-- The registrable classes with a given property. -/
def registrable (m : Model) (s : Settings) (p : ClassType → Bool) : List Handle :=
  m.classHandles.filter fun h => (m.class? h).any fun c => c.isRegistrable s && p c

/-- The types that a classified model registers.  A system that another class derives from is
not registered; components and scenes are. -/
def ofModel (m : Model) (s : Settings) : Plan :=
  { enums := sorted m m.enumHandles
    classes := sorted m (registrable m s fun _ => true)
    components := sorted m (registrable m s fun c => c.role = .component)
    systems := sorted m (registrable m s fun c => c.role = .system && !c.isDerivedFrom)
    scenes := sorted m (registrable m s fun c => c.role = .scene) }

/-- The systems that are left out because another class derives from them. -/
def baseSystems (m : Model) (s : Settings) : List Handle :=
  registrable m s fun c => c.role = .system && c.isDerivedFrom

/-- The plan of a classified model, with a line for every system that is left out. -/
def make (m : Model) (s : Settings) : Logged Plan :=
  { result := ofModel m s
    log := (baseSystems m s).map fun h =>
      ⟨.debug, "'" ++ m.nameAt h ++ "' is a base system, not registered"⟩ }

end Plan

end Registrar
