/-
# The parts of an interpreter

Running a command may expand words, expanding a word may run commands, and both may start programs.
What follows is written for an interpreter that is given, and each part may call it.
-/
import Registrar.Script.Process
import Registrar.Script.Reader

namespace Registrar.Script

/-- How commands are run, words expanded and programs started. -/
structure Interpreter where
  /-- Runs a command.  The failure of one that is tested does not end a script. -/
  run : (isTested : Bool) → Command → Session Unit
  /-- Expands the parts of a word. -/
  expand : Word → Session (List Piece)
  /-- Starts a program by its name, with arguments. -/
  launch : List String → Session ExitStatus

namespace Interpreter

/-- Runs commands one after the other as long as the script goes on. -/
def runAll (i : Interpreter) (isTested : Bool) : List Command → Session Unit
  | [] => pure ()
  | c :: cs => do
    i.run isTested c
    if (← get).isRunning then i.runAll isTested cs

/-- Runs the lines of a text.  A line that makes no sense ends the script. -/
def runText (i : Interpreter) (isTested : Bool) : (count : Nat) → List Char → Session Unit
  | 0, _ => pure ()
  | count + 1, text =>
    match line? text with
    | none => Session.abort
    | some (commands, rest) => do
      i.runAll isTested commands
      if !rest.isEmpty && (← get).isRunning then i.runText isTested count rest

/-- Runs a text.  A text without commands succeeds. -/
def runWhole (i : Interpreter) (isTested : Bool) (text : String) : Session Unit := do
  Session.setStatus 0
  i.runText isTested (text.length + 1) text.toList

/-- Runs the commands for a signal, or for the end of the script, without a change of the status. -/
def runTrap (i : Interpreter) (commands : String) : Session Unit := do
  let before := (← get).status
  i.runText false (commands.length + 1) commands.toList
  if (← get).isRunning then Session.setStatus before

/-- Runs the commands that are left for the end of the script. -/
def finishTraps (i : Interpreter) : Session Unit := do
  let p ← get
  match p.flow, p.traps.lookup 0 with
  | .ended (.signal _), _ => pure ()
  | flow, some commands => do
    let status := p.ending.number
    set { p with flow := .running, status := status, traps := [] }
    i.runTrap commands
    if (← get).isRunning then modify fun p => { p with flow := flow }
  | _, none => pure ()

/-- Lets a copy of the script do something, to its end. -/
def inSubshell (i : Interpreter) (setup : Process → Process) (action : Session Unit) :
    Session ExitStatus :=
  Session.inChild setup do
    action
    i.finishTraps

/-- Whether a signal can be taken up or left without effect. -/
def isCatchable (signal : Nat) : Bool :=
  signal ≠ 9 && signal ≠ 19

/-- Takes up a signal that has arrived. -/
def takeSignal (i : Interpreter) (signal : Nat) : Session Unit := do
  let p ← get
  match if isCatchable signal then p.traps.lookup signal else none with
  | some commands => if !commands.isEmpty then i.runTrap commands
  | none => if !ExitStatus.isHarmless signal then modify fun p => p.finish (.signal signal)

/-- Takes up the signals that have arrived since the last command. -/
def takeSignals (i : Interpreter) : Session Unit := do
  let p ← get
  let (own, others) := p.sent.partition fun signal => signal.1 = p.identity
  if !own.isEmpty then
    set { p with sent := others }
    own.forM fun signal => Session.whenRunning (i.takeSignal signal.2)

end Interpreter

end Registrar.Script
