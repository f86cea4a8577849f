/-
# Reports

What a run has found and written, and how long its phases took.
-/
import Registrar.Log
import Registrar.Plan

namespace Registrar

/-- Counts and phases of one run. -/
structure Report where
  output : Path
  types : Nat := 0
  enums : Nat := 0
  classes : Nat := 0
  components : Nat := 0
  systems : Nat := 0
  scenes : Nat := 0
  /-- The phases in the order in which they first ran, with the time that each took in all. -/
  phases : List (String × Nat) := []
  deriving DecidableEq, Repr

namespace Report

/-- Adds the time of a phase to what it took before. -/
def addTime (name : String) (elapsed : Nat) : List (String × Nat) → List (String × Nat)
  | [] => [(name, elapsed)]
  | (phase, total) :: phases =>
    if phase = name then (phase, total + elapsed) :: phases
    else (phase, total) :: addTime name elapsed phases

/-- Notes that a phase ran. -/
def timePhase (r : Report) (name : String) (elapsed : Nat) : Report :=
  { r with phases := addTime name elapsed r.phases }

/-- How long a phase took in all, if it ran. -/
def phase? (r : Report) (name : String) : Option Nat :=
  r.phases.lookup name

/-- Notes what is registered. -/
def recordPlan (r : Report) (types : Nat) (p : Plan) : Report :=
  { r with
    types := types
    enums := p.enums.length
    classes := p.classes.length
    components := p.components.length
    systems := p.systems.length
    scenes := p.scenes.length }

/-- The line that sums up a run. -/
def summary (r : Report) : String :=
  s!"Wrote '{r.output.text}': {r.enums} enum(s), {r.classes} class(es), " ++
    s!"{r.components} component(s), {r.systems} system(s), {r.scenes} scene(s) " ++
    s!"from {r.types} type(s)"

/-- Says what a run has done. -/
def announce (r : Report) : Logged Unit :=
  Logged.say .info r.summary

end Report

end Registrar
