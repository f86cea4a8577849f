/-
# Classification

A class without a documented role gets the role of the first registry whose base class names
appear on the chain of its bases.
-/
import Registrar.Linking
import Registrar.Log
import Registrar.Settings.Basic

namespace Registrar

/-- Why a class cannot be classified. -/
inductive ClassifyError where
  /-- The chain of bases that starts at the class of a given name does not end. -/
  | baseCycle (name : String)
  /-- The type at a place is no class. -/
  | notAClass (handle : Handle)
  deriving DecidableEq, Repr

namespace ClassifyError

/-- The wording of a failure. -/
def message : ClassifyError → String
  | baseCycle name => "base chain of '" ++ name ++ "' is cyclic"
  | notAClass handle => "type " ++ Handle.display handle ++ " is not a class"

end ClassifyError

/-- Whether a base is named by a target: it is the target, or an instance of it in case the
target has no arguments of its own. -/
def baseNameMatches (baseName target : String) : Bool :=
  let baseName := Text.trim baseName
  baseName = target ||
    (!Text.contains target "<" &&
      match Text.dropStart? target baseName with
      | some rest => (Chars.trimStart rest.toList).head? = some '<'
      | none => false)

namespace Model

/-! ## The chain of bases -/

/-- Whether the base of a class is named by one of some targets. -/
def hasTargetBase (targets : List String) (c : ClassType) : Bool :=
  c.effectiveBaseName.any fun name => targets.any (baseNameMatches name)

/-- Looks at no more than `steps` classes of the chain of bases that starts at the class at
`current`.  Nothing if all of them have a base and none of them is named by a target. -/
def walkBases (m : Model) (targets : List String) :
    Nat → Handle → Except ClassifyError (Option Bool)
  | 0, _ => .ok none
  | steps + 1, current =>
    match m.class? current with
    | none => .error (.notAClass current)
    | some c =>
      if hasTargetBase targets c then .ok (some true)
      else match c.resolvedBase with
        | none => .ok (some false)
        | some base => m.walkBases targets steps base

/-- Whether a base on the chain that starts at the class at a place is named by one of some
targets.  A chain that has more classes than there are types is cyclic. -/
def hasBaseOf (m : Model) (h : Handle) (targets : List String) : Except ClassifyError Bool :=
  match m.walkBases targets m.size h with
  | .error e => .error e
  | .ok none => .error (.baseCycle (m.nameAt h))
  | .ok (some found) => .ok found

/-- The first of some roles whose base class names appear on the chain of bases. -/
def firstRole? (m : Model) (bases : BaseSettings) (h : Handle) :
    List Role → Except ClassifyError (Option Role)
  | [] => .ok none
  | role :: roles =>
    match m.hasBaseOf h (bases.targets role) with
    | .error e => .error e
    | .ok true => .ok (some role)
    | .ok false => m.firstRole? bases h roles

/-- The role that the bases of a class give it. -/
def structuralRole? (m : Model) (bases : BaseSettings) (h : Handle) :
    Except ClassifyError (Option Role) :=
  m.firstRole? bases h Role.structural

/-! ## Classification -/

/-- A model in the course of its classification, with the failure that ended it, if any. -/
structure Classified where
  model : Model
  failure : Option ClassifyError := none

/-- Gives the class at a place its role and says so. -/
def assignRole (m : Model) (h : Handle) (role : Role) : Logged Model :=
  { result := m.modifyClass h fun c => { c with role := role }
    log :=
      [⟨.debug, "'" ++ m.nameAt h ++ "' classified as " ++ role.label ++ " by inheritance"⟩] }

/-- Classifies the classes at some places one after the other.  The first failure ends it, and
the roles that were given before it stay. -/
def classifyAll (bases : BaseSettings) (m : Model) : List Handle → Logged Classified
  | [] => pure ⟨m, none⟩
  | h :: hs =>
    if (m.class? h).all fun c => c.role ≠ .none then classifyAll bases m hs
    else match m.structuralRole? bases h with
      | .error e => pure ⟨m, some e⟩
      | .ok none => classifyAll bases m hs
      | .ok (some role) => do
        let m ← m.assignRole h role
        classifyAll bases m hs

/-- Classifies every class of a linked model. -/
def classify (m : Model) (bases : BaseSettings) : Logged Classified :=
  classifyAll bases m m.classHandles

end Model

end Registrar
