/-
# The model

Every type of one run in the order of ingestion.  A handle is a place in that order, and of
several types that answer to one identifier or name the first one counts.
-/
import Registrar.Model.Declaration
import Registrar.Text.Blank

namespace Registrar

/-- The types of one run in the order of ingestion. -/
structure Model where
  declarations : List Declaration := []
  deriving DecidableEq, Repr

namespace Model

/-- How many types there are. -/
def size (m : Model) : Nat :=
  m.declarations.length

/-- Adds a type at the end. -/
def push (m : Model) (d : Declaration) : Model :=
  ⟨m.declarations ++ [d]⟩

/-- The type at a place. -/
def get? (m : Model) (h : Handle) : Option Declaration :=
  m.declarations[h]?

/-- The class at a place, if there is a class. -/
def class? (m : Model) (h : Handle) : Option ClassType :=
  (m.get? h).bind Declaration.class?

/-- The enum at a place, if there is an enum. -/
def enum? (m : Model) (h : Handle) : Option EnumType :=
  (m.get? h).bind Declaration.enum?

/-- The qualified name of the type at a place. -/
def nameAt (m : Model) (h : Handle) : String :=
  ((m.get? h).map Declaration.qualifiedName).getD ""

/-- The places of all classes. -/
def classHandles (m : Model) : List Handle :=
  (List.range m.size).filter fun h => (m.class? h).isSome

/-- The places of all enums. -/
def enumHandles (m : Model) : List Handle :=
  (List.range m.size).filter fun h => (m.enum? h).isSome

/-- All classes in order. -/
def classes (m : Model) : List ClassType :=
  m.declarations.filterMap Declaration.class?

/-- The first type with a given identifier. -/
def byIdentifier? (m : Model) (identifier : String) : Option Handle :=
  m.declarations.findIdx? fun d => d.identifier = some identifier

/-- The first type with a given qualified name, or else the first one with that simple name.
Blanks around the name that is asked for do not count. -/
def byName? (m : Model) (name : String) : Option Handle :=
  (m.declarations.findIdx? fun d => d.qualifiedName = Text.trim name).orElse fun _ =>
    m.declarations.findIdx? fun d => d.simpleName = Text.trim name

/-- Changes every class. -/
def mapClasses (m : Model) (f : Handle → ClassType → ClassType) : Model :=
  ⟨m.declarations.mapIdx fun h d =>
    match d with
    | .enumType e => .enumType e
    | .classType c => .classType (f h c)⟩

/-- Changes the class at a place. -/
def modifyClass (m : Model) (h : Handle) (f : ClassType → ClassType) : Model :=
  m.mapClasses fun h' c => if h' = h then f c else c

@[simp] theorem size_mapClasses (m : Model) (f : Handle → ClassType → ClassType) :
    (m.mapClasses f).size = m.size := by
  simp [size, mapClasses]

theorem get?_mapClasses (m : Model) (f : Handle → ClassType → ClassType) (h : Handle) :
    (m.mapClasses f).get? h = (m.get? h).map fun d =>
      match d with
      | .enumType e => .enumType e
      | .classType c => .classType (f h c) := by
  simp [get?, mapClasses]

theorem class?_mapClasses (m : Model) (f : Handle → ClassType → ClassType) (h : Handle) :
    (m.mapClasses f).class? h = (m.class? h).map (f h) := by
  rw [class?, get?_mapClasses, class?]
  cases m.get? h with
  | none => rfl
  | some d => cases d <;> rfl

theorem class?_modifyClass (m : Model) (h h' : Handle) (f : ClassType → ClassType) :
    (m.modifyClass h f).class? h' = if h' = h then (m.class? h').map f else m.class? h' := by
  rw [modifyClass, class?_mapClasses]
  split <;> simp

end Model

end Registrar
