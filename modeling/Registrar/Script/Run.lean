/-
# Running scripts

Commands run one after the other and may end the script they stand in.  After `set -e` a script
ends at the first failure that nothing tests.
-/
import Registrar.Script.Builtin

namespace Registrar

/-- Runs a program with arguments in a directory, unless it cannot be started. -/
abbrev Programs :=
  FileSystem → (program : String) → (arguments : List String) → (directory : Path) →
    Except IoError (ExitStatus × FileSystem)

namespace Script

namespace Interpreter

/-- Ends the script if its last command has failed, nothing tests that, and it is to end then. -/
def endAtFailure (isTested : Bool) : Session Unit :=
  modify fun p =>
    if p.isRunning && p.status ≠ 0 && p.has 'e' && !isTested then p.finish (.code (p.status % 256))
    else p

/-! ## Simple commands -/

/-- Gives variables the values that words stand for, as long as the script goes on. -/
def assignAll (i : Interpreter) (isExported : Bool) : List (String × Word) → Session Unit
  | [] => pure ()
  | (name, w) :: rest => do
    let value ← i.text w
    Session.whenRunning do
      modify fun p =>
        let assigned := p.assign name value
        if isExported && assigned.isRunning then
          assigned.mark name none fun v => { v with isExported := true }
        else assigned
      if (← get).isRunning then i.assignAll isExported rest

/-- Runs a command whose arguments are known.  Assignments in front of it hold only for it, unless
the command is special. -/
def runArguments (i : Interpreter) (isTested : Bool) (assignments : List (String × Word))
    (args : List String) : Session Unit := do
  let before ← get
  if args.isEmpty then do
    i.assignAll false assignments
    Session.whenRunning (modify fun p => { p with status := p.outputStatus })
  else if args.head?.any specialNames.contains then do
    i.assignAll false assignments
    if (← get).isRunning then i.invoke isTested true args
  else do
    i.assignAll true assignments
    if (← get).isRunning then i.invoke isTested true args
    modify fun p => assignments.foldl
      (fun p entry => p.putVariable entry.1 (before.named? entry.1)) p

/-- Runs a simple command with its redirections. -/
def runSimple (i : Interpreter) (isTested : Bool) (assignments : List (String × Word))
    (words : List Word) (rs : List Redirection) : Session Unit := do
  modify fun p => { p with outputStatus := 0 }
  let isDeclared := words.head?.any fun w => isDeclaration (String.ofList (plainText w))
  let args ← i.argumentsOf isDeclared words
  let before ← get
  if before.isRunning then
    if ← i.redirect rs then i.runArguments isTested assignments args
    else if args.head?.any specialNames.contains then Session.whenRunning Session.abort
    else Session.whenRunning (Session.setStatus 2)
    if args ≠ ["exec"] then modify fun p => { p with descriptors := before.descriptors }
  endAtFailure isTested

/-! ## Loops and choices -/

/-- Settles what a command in a loop asks for, and says whether the loop goes on. -/
def settleLoop : Session Bool := do
  let p ← get
  match p.flow with
  | .running => pure true
  | .leaving n =>
    set { p with flow := if n ≤ 1 then .running else .leaving (n - 1) }
    pure false
  | .resuming n =>
    set { p with flow := if n ≤ 1 then .running else .resuming (n - 1) }
    pure (n ≤ 1)
  | _ => pure false

/-- Does something in one more loop. -/
def inLoop (action : Session Unit) : Session Unit := do
  let loops := (← get).loops
  modify fun p => { p with loops := loops + 1 }
  action
  modify fun p => { p with loops := loops }

/-- Repeats a command as long as a condition succeeds or, with `isUntil`, fails.  The status is
that of the last run of the command. -/
def repeatWhile (i : Interpreter) (isTested isUntil : Bool) (condition body : Command) :
    (count : Nat) → (status : Nat) → Session Unit
  | 0, _ => Session.abort
  | count + 1, status => do
    i.run true condition
    if ← settleLoop then
      if ((← get).status = 0) != isUntil then
        i.run isTested body
        if ← settleLoop then
          i.repeatWhile isTested isUntil condition body count (← get).status
      else Session.setStatus status

/-- Repeats a command for some values of a variable. -/
def repeatFor (i : Interpreter) (isTested : Bool) (name : String) (body : Command) :
    List String → Session Unit
  | [] => pure ()
  | value :: values => do
    modify fun p => p.assign name value
    i.run isTested body
    if ← settleLoop then i.repeatFor isTested name body values

/-- Whether one of some patterns stands for a text. -/
def fitsAny (i : Interpreter) (text : String) : List Word → Session Bool
  | [] => pure false
  | w :: ws => do
    let pattern ← i.pattern w
    if Wildcard.fits pattern text.toList then pure true else i.fitsAny text ws

/-- Runs the first of some branches whose patterns fit. -/
def runBranches (i : Interpreter) (isTested : Bool) (text : String) : List Branch → Session Unit
  | [] => Session.setStatus 0
  | .mk patterns body :: branches => do
    if ← i.fitsAny text patterns then i.run isTested body
    else if (← get).isRunning then i.runBranches isTested text branches

/-! ## Several processes -/

/-- Runs the stages of a pipeline, each in a process of its own that reads what the one before it
has written.  The answer has their statuses. -/
def runStages (i : Interpreter) (isTested : Bool) (source : Option Nat) :
    List Command → Session (List Nat)
  | [] => pure []
  | c :: rest => do
    let output := (← get).channels.size
    let setup (p : Process) : Process :=
      let p := match source with
        | some channel => p.connect 0 (some channel)
        | none => p
      if rest.isEmpty then p else p.openChannel 1 (.buffer ByteArray.empty)
    let status ← i.inSubshell setup (i.run isTested c)
    let statuses ← i.runStages isTested (some output) rest
    pure (status.number :: statuses)

/-- Runs a pipeline, whose status is that of its last stage or, if it is to be so, of the last one
that has failed. -/
def runPipeline (i : Interpreter) (isTested : Bool) (stages : List Command) : Session Unit := do
  let statuses := (← i.runStages isTested none stages).reverse
  let last := statuses.headD 0
  let failed := statuses.find? (· ≠ 0)
  Session.setStatus (if (← get).has pipelineOption then failed.getD 0 else last)
  endAtFailure isTested

/-- Runs a command that the script does not wait for. -/
def runBehind (i : Interpreter) (body : Command) : Session Unit := do
  let number := (← get).nextNumber
  let status ← i.inSubshell (fun p => p.openChannel 0 .nothing) (i.run false body)
  modify fun p => { p with status := 0, jobs := (number, status.number) :: p.jobs }

/-! ## Commands -/

/-- The most times that a loop is gone through. -/
def maxRounds : Nat := 1000000

/-- Runs a command, its parts with the interpreter that is given. -/
def runStep (i : Interpreter) (isTested : Bool) : Command → Session Unit
  | .simple assignments words => i.runSimple isTested assignments words []
  | .redirected (.simple assignments words) rs => i.runSimple isTested assignments words rs
  | .redirected body rs => i.redirected rs (i.run isTested body)
  | .pipeline stages => i.runPipeline isTested stages
  | .negation body => do
    i.run true body
    Session.whenRunning (modify fun p => { p with status := if p.status = 0 then 1 else 0 })
  | .both first second => do
    i.run true first
    let p ← get
    if p.isRunning && p.status = 0 then i.run isTested second
  | .either first second => do
    i.run true first
    let p ← get
    if p.isRunning && p.status ≠ 0 then i.run isTested second
  | .sequence [] => Session.setStatus 0
  | .sequence commands => i.runAll isTested commands
  | .background body => i.runBehind body
  | .subshell body => do
    let status ← i.inSubshell id (i.run isTested body)
    Session.setStatus status.number
    endAtFailure isTested
  | .conditional condition body otherwise => do
    i.run true condition
    let p ← get
    if p.isRunning then i.run isTested (if p.status = 0 then body else otherwise)
  | .loop isUntil condition body =>
    inLoop (i.repeatWhile isTested isUntil condition body maxRounds 0)
  | .forEach name words body => do
    let values ← match words with
      | some words => i.argumentsOf false words
      | none => do pure (← get).arguments
    Session.whenRunning do
      Session.setStatus 0
      inLoop (i.repeatFor isTested name body values)
  | .choice w branches => do
    let text ← i.text w
    Session.whenRunning (i.runBranches isTested text branches)
  | .function name body =>
    modify fun p =>
      { p with
        functions := (name, body) :: p.functions.filter fun entry => entry.1 ≠ name
        status := 0 }

/-- Runs a command if the script goes on, and takes up the signals that have arrived by then. -/
def runCommand (i : Interpreter) (isTested : Bool) (c : Command) : Session Unit :=
  Session.whenRunning do
    if !(← get).has 'n' then
      i.runStep isTested c
      i.takeSignals

end Interpreter

mutual

/-- Runs a command; commands may be nested to a given depth, and a script that goes deeper ends. -/
def run : (depth : Nat) → (isTested : Bool) → Command → Session Unit
  | 0, _, _ => Session.abort
  | depth + 1, isTested, c =>
    Interpreter.runCommand ⟨run depth, expand depth, launch depth⟩ isTested c

/-- Expands a word, in which commands may be nested to a given depth. -/
def expand : (depth : Nat) → Word → Session (List Piece)
  | 0, _ => do
    Session.abort
    pure []
  | depth + 1, w => Interpreter.expandStep ⟨run depth, expand depth, launch depth⟩ w

/-- Starts a program, which may start others to a given depth. -/
def launch : (depth : Nat) → List String → Session ExitStatus
  | 0, _ => pure (.code 126)
  | depth + 1, words => Interpreter.launchStep ⟨run depth, expand depth, launch depth⟩ words

end

/-- The depth to which commands may be nested. -/
def maxDepth : Nat := 2000

/-- The interpreter with which programs are started. -/
def interpreter : Interpreter :=
  ⟨run maxDepth, expand maxDepth, launch maxDepth⟩

/-! ## Starting a program -/

/-- The process that starts a program from outside of any script. -/
def Process.outside (fs : FileSystem) : Process where
  fs := fs
  channels := #[.nothing]
  descriptors := [(0, 0), (1, 0), (2, 0)]
  number := 4241
  identity := 4241
  nextNumber := 4242
  name := ""
  bindings :=
    [("HOME", { value := some "/root", isExported := true }),
      ("PATH", { value := some Program.usualDirectories, isExported := true })]

/-- Does something in a directory, and comes back. -/
def inDirectory {α : Type} (fs : FileSystem) (directory : Path)
    (f : FileSystem → Except IoError (α × FileSystem)) : Except IoError (α × FileSystem) := do
  let location ← fs.locate true directory
  if fs.isDirectoryAt location then
    let (a, changed) ← f { fs with workingDirectory := location }
    pure (a, { changed with workingDirectory := fs.workingDirectory })
  else throw .notADirectory

/-- Runs a program.  A file that names no interpreter cannot be started. -/
def start : Programs := fun fs program arguments directory =>
  inDirectory fs directory fun fs => do
    if '\x00' ∈ program.toList then throw .badPath
    let p := Process.outside fs
    match ← p.program program with
    | (_, .text _, _) => throw .permissionDenied
    | (_, found, front) =>
      let (status, after) := (interpreter.start found (front ++ arguments)).run p
      pure (status, after.fs)

end Script

end Registrar
