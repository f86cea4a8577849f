/-
# Processes

What a script knows and holds open while it runs: its variables, its files, its options, and how it
is to go on.
-/
import Registrar.Script.ExitStatus
import Registrar.Script.Field
import Registrar.Script.Syntax
import Registrar.FileSystem.Change

namespace Registrar.Script

open FileSystem (Location Node)

/-- What a file descriptor is connected to. -/
inductive Channel where
  /-- A file that is empty and keeps nothing. -/
  | nothing
  /-- A file with the place in it at which the next byte is read or written. -/
  | file (location : Location) (position : Nat) (appends : Bool)
  /-- Bytes that have been written and not yet been read. -/
  | buffer (contents : ByteArray)

/-- A variable; one that is only marked has no value. -/
structure Variable where
  value : Option String
  isExported : Bool := false
  isReadonly : Bool := false
  deriving DecidableEq, Repr

/-- How a script goes on. -/
inductive Flow where
  | running
  /-- Some loops are left. -/
  | leaving (loops : Nat)
  /-- Some loops are left but the last, which is gone through again. -/
  | resuming (loops : Nat)
  /-- A function or a file of commands is left. -/
  | returning
  | ended (status : ExitStatus)
  deriving DecidableEq, Repr

/-- A script in the course of its run. -/
structure Process where
  fs : FileSystem
  channels : Array Channel
  /-- The numbers of the channels that the file descriptors are connected to. -/
  descriptors : List (Nat × Nat)
  /-- The number by which a script knows itself; the subshells of a script share it. -/
  number : Nat
  /-- The number of this process, and those of the processes that wait for it. -/
  identity : Nat
  ancestors : List Nat := []
  nextNumber : Nat
  /-- The signals that have been sent, each with the number of the receiver. -/
  sent : List (Nat × Nat) := []
  name : String
  arguments : List String := []
  bindings : List (String × Variable) := []
  functions : List (String × Command) := []
  /-- The variables that the functions which run have made their own, as they were before. -/
  saved : List (List (String × Option Variable)) := []
  /-- The letters of the options that are on. -/
  options : List Char := []
  /-- The commands for signals; the one for the end of the script has number zero. -/
  traps : List (Nat × String) := []
  /-- The status of the last command. -/
  status : Nat := 0
  /-- The status of the last command whose output has become a part of a word. -/
  outputStatus : Nat := 0
  /-- The programs that have run in the background, with their statuses, last one first. -/
  jobs : List (Nat × Nat) := []
  /-- How many letters of an argument have been read as options. -/
  optionOffset : Nat := 0
  /-- The number of loops around the command. -/
  loops : Nat := 0
  flow : Flow := .running

/-- A computation that goes through states of a process. -/
abbrev Session := StateM Process

namespace Process

/-- Whether the script goes on with the next command. -/
def isRunning (p : Process) : Bool :=
  p.flow = .running

/-- Whether an option is on. -/
def has (p : Process) (option : Char) : Bool :=
  p.options.contains option

/-- Ends the script. -/
def finish (p : Process) (status : ExitStatus) : Process :=
  { p with flow := .ended status }

/-- How the script has ended. -/
def ending (p : Process) : ExitStatus :=
  match p.flow with
  | .ended status => status
  | _ => .code (p.status % 256)

/-! ## Variables -/

/-- The variable of a given name. -/
def named? (p : Process) (name : String) : Option Variable :=
  p.bindings.lookup name

/-- The value of a variable. -/
def valueOf? (p : Process) (name : String) : Option String :=
  (p.named? name).bind Variable.value

/-- Puts a variable in the place of another one, or takes it away. -/
def putVariable (p : Process) (name : String) (v : Option Variable) : Process :=
  let others := p.bindings.filter fun entry => entry.1 ≠ name
  { p with bindings := match v with
    | some v => (name, v) :: others
    | none => others }

/-- Gives a variable a value.  A script that changes a variable for which that is not allowed
ends. -/
def assign (p : Process) (name value : String) : Process :=
  let v := (p.named? name).getD { value := none }
  let p := if name = "OPTIND" then { p with optionOffset := 0 } else p
  if v.isReadonly then p.finish (.code 2)
  else p.putVariable name (some { v with
    value := some value
    isExported := v.isExported || p.has 'a' })

/-- The variables that programs get to know. -/
def environment (p : Process) : List (String × Variable) :=
  p.bindings.filter fun entry => entry.2.isExported && entry.2.value.isSome

/-- The value of a parameter. -/
def parameter? (p : Process) (name : String) : Option String :=
  match name with
  | "$" => some (toString p.number)
  | "?" => some (toString p.status)
  | "#" => some (toString p.arguments.length)
  | "-" => some (String.ofList p.options)
  | "!" => p.jobs.head?.map fun job => toString job.1
  | "@" | "*" => some (" ".intercalate p.arguments)
  | _ =>
    match name.toNat? with
    | some 0 => some p.name
    | some (n + 1) => p.arguments[n]?
    | none => p.valueOf? name

/-- The characters at which the values of parameters are split. -/
def separators (p : Process) : List Char :=
  match p.named? "IFS" with
  | some v => (v.value.getD "").toList
  | none => [' ', '\t', '\n']

/-! ## Channels -/

/-- The channel that a file descriptor is connected to. -/
def channel? (p : Process) (descriptor : Nat) : Option Channel :=
  (p.descriptors.lookup descriptor).bind fun i => p.channels[i]?

/-- Connects a file descriptor to the channel of a given number, or closes it. -/
def connect (p : Process) (descriptor : Nat) (channel : Option Nat) : Process :=
  let others := p.descriptors.filter fun entry => entry.1 ≠ descriptor
  { p with descriptors := match channel with
    | some i => (descriptor, i) :: others
    | none => others }

/-- Connects a file descriptor to a new channel. -/
def openChannel (p : Process) (descriptor : Nat) (channel : Channel) : Process :=
  { p with channels := p.channels.push channel }.connect descriptor (some p.channels.size)

/-- Changes the channel that a file descriptor is connected to. -/
def setChannel (p : Process) (descriptor : Nat) (channel : Channel) : Process :=
  match p.descriptors.lookup descriptor with
  | some i => { p with channels := p.channels.setIfInBounds i channel }
  | none => p

/-- The contents of the file at a location, as long as there is one. -/
def contentsAt (fs : FileSystem) (location : Location) : ByteArray :=
  match fs.entry? location with
  | some (.file _ _ contents) => contents
  | _ => ByteArray.empty

/-- What can be read from a file descriptor. -/
def input (p : Process) (descriptor : Nat) : ByteArray :=
  match p.channel? descriptor with
  | some (.file location position _) =>
    let contents := contentsAt p.fs location
    contents.extract position contents.size
  | some (.buffer contents) => contents
  | _ => ByteArray.empty

/-- Uses up some of the bytes that can be read from a file descriptor. -/
def consume (p : Process) (descriptor count : Nat) : Process :=
  match p.channel? descriptor with
  | some (.file location position appends) =>
    p.setChannel descriptor (.file location (position + count) appends)
  | some (.buffer contents) =>
    p.setChannel descriptor (.buffer (contents.extract count contents.size))
  | _ => p

/-- Contents with some bytes written at a place, which may lie behind their end. -/
def overwrite (contents : ByteArray) (position : Nat) (bytes : ByteArray) : ByteArray :=
  let gap := ByteArray.mk (Array.replicate (position - contents.size) 0)
  contents.extract 0 position ++ gap ++ bytes
    ++ contents.extract (position + bytes.size) contents.size

/-- Writes bytes to a file descriptor.  A file that is gone keeps nothing. -/
def write (p : Process) (descriptor : Nat) (bytes : ByteArray) : Process :=
  match p.channel? descriptor with
  | some (.file location position appends) =>
    if bytes.isEmpty then p
    else
      let contents := contentsAt p.fs location
      let position := if appends then contents.size else position
      let fs := p.fs.modifyEntry location fun
        | .file _ isExecutable _ =>
          .file p.fs.nextTime isExecutable (overwrite contents position bytes)
        | n => n
      { p with fs := fs }.setChannel descriptor (.file location (position + bytes.size) appends)
  | some (.buffer contents) => p.setChannel descriptor (.buffer (contents ++ bytes))
  | _ => p

/-! ## Other processes -/

/-- A process that starts as a copy.  What it asks its own end to bring about is not asked for. -/
def child (p : Process) : Process :=
  { p with
    identity := p.nextNumber
    ancestors := p.identity :: p.ancestors
    nextNumber := p.nextNumber + 1
    traps := p.traps.filter fun trap => trap.2.isEmpty && trap.1 ≠ 0
    jobs := p.jobs }

/-- What is left of a process when another one that it has waited for is over. -/
def resume (p child : Process) : Process :=
  { p with
    fs := { child.fs with workingDirectory := p.fs.workingDirectory }
    channels := child.channels
    nextNumber := child.nextNumber
    sent := child.sent }

end Process

/-! ## Sessions -/

namespace Session

/-- Sets the status of the last command. -/
def setStatus (n : Nat) : Session Unit :=
  modify fun p => { p with status := n }

/-- Ends the script for an error of its own. -/
def abort : Session Unit :=
  modify fun p => { p with status := 2 }.finish (.code 2)

/-- Does something only if the script goes on. -/
def whenRunning (action : Session Unit) : Session Unit := do
  if (← get).isRunning then action

/-- Writes bytes to a file descriptor; if it is closed the status is one. -/
def emit (descriptor : Nat) (bytes : ByteArray) : Session Unit := do
  let p ← get
  if (p.channel? descriptor).isSome then set (p.write descriptor bytes)
  else if !bytes.isEmpty then setStatus 1

/-- Lets another process do something and waits for it. -/
def inChild (setup : Process → Process) (action : Session Unit) : Session ExitStatus := do
  let p ← get
  let (_, after) := action.run (setup p.child)
  set (p.resume after)
  pure after.ending

end Session

end Registrar.Script
