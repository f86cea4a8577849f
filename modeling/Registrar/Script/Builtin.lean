/-
# Commands of a script's own

The commands that act on the script itself: they change its variables, options, directory and
arguments, and decide how it goes on.
-/
import Registrar.Script.Launch

namespace Registrar.Script

/-- The commands that come before functions of the same name; an error in one of them ends the
script. -/
def specialNames : List String :=
  [".", ":", "break", "continue", "eval", "exec", "exit", "export", "readonly", "return", "set",
    "shift", "times", "trap", "unset"]

/-- The other commands of a script's own. -/
def builtinNames : List String :=
  ["[", "alias", "bg", "cd", "chdir", "echo", "false", "fg", "getopts", "hash", "jobs", "kill",
    "local", "printf", "pwd", "read", "test", "true", "type", "ulimit", "umask", "unalias", "wait"]

/-- The number that an argument spells, unless it is too large. -/
def count? (text : String) : Option Nat :=
  if !text.isEmpty && text.toList.all Char.isDigit then
    text.toNat?.filter fun n => n < 0x80000000
  else none

/-- The name by which a script knows a signal. -/
def signalLabel (n : Nat) : String :=
  if n = 34 then "RTMIN"
  else if n = 64 then "RTMAX"
  else if 34 < n ∧ n < 50 then "RTMIN+" ++ toString (n - 34)
  else if 50 ≤ n ∧ n < 64 then "RTMAX-" ++ toString (64 - n)
  else if n = 16 then "16"
  else (ExitStatus.signalName? n).getD (toString n)

/-- The number of a signal that is given by its number or its name. -/
def signal? (text : String) : Option Nat :=
  match count? text with
  | some n => if n ≤ ExitStatus.maxSignal then some n else none
  | none =>
    let name := String.ofList (text.toList.map Char.toUpper)
    (List.range (ExitStatus.maxSignal + 1)).find? fun n => signalLabel n = name

namespace Process

/-- The assignment that an argument is, or the name alone. -/
def declaration? (arg : String) : Option (String × Option String) :=
  let (name, value) := match Text.breakOn? "=" arg with
    | some (name, value) => (name, some value)
    | none => (arg, none)
  if isName name.toList then some (name, value) else none

/-- Marks a variable, and gives it a value if there is one. -/
def mark (p : Process) (name : String) (value : Option String) (f : Variable → Variable) :
    Process :=
  let p := match value with
    | some value => p.assign name value
    | none => p
  if p.isRunning then
    p.putVariable name (some (f ((p.named? name).getD { value := none })))
  else p

/-- The path of a directory as a script sees it: dots in it are taken by their names. -/
def logicalPath (p : Process) (directory : String) : String :=
  let here := (p.valueOf? "PWD").getD "/"
  let whole := if directory.toList.head? = some '/' then directory else here ++ "/" ++ directory
  let pieces := (Chars.splitOn '/' whole.toList).foldl
    (fun (above : List (List Char)) piece =>
      if piece = [] ∨ piece = ['.'] then above
      else if piece = ['.', '.'] then above.drop 1
      else piece :: above)
    []
  "/" ++ "/".intercalate (pieces.reverse.map String.ofList)

/-- Goes to a directory that is given by its logical path; nothing if there is none. -/
def enter? (p : Process) (path : String) : Option Process :=
  match p.fs.locate true ⟨path⟩ with
  | .error _ => none
  | .ok location =>
    if !p.fs.isDirectoryAt location then none
    else
      let before := p.valueOf? "PWD"
      let p := { p with fs := { p.fs with workingDirectory := location } }
      some ((p.mark "OLDPWD" before id).mark "PWD" (some path) id)

end Process

namespace Interpreter

/-! ## How a script goes on -/

/-- Leaves loops, or goes through one of them again. -/
def leaveLoops (flow : Nat → Flow) (args : List String) : Session Unit := do
  match count? (args.headD "1") with
  | none | some 0 => Session.abort
  | some n =>
    modify fun p => { p with
      status := 0
      flow := if p.loops = 0 then p.flow else flow (min n p.loops) }

/-- Ends something with a status that is given or that of the last command. -/
def leaveWith (flow : Nat → Flow) (args : List String) : Session Unit := do
  let p ← get
  match match args with
    | [] => some p.status
    | n :: _ => count? n with
  | none => Session.abort
  | some n => set { p with status := n, flow := flow n }

/-! ## Variables and arguments -/

/-- Marks variables, whose names may be given with values. -/
def declare (f : Variable → Variable) (args : List String) : Session Unit := do
  Session.setStatus 0
  (args.filter (· ≠ "-p")).forM fun arg => Session.whenRunning do
    match Process.declaration? arg with
    | none => Session.abort
    | some (name, value) => modify fun p => p.mark name value f

/-- Makes variables the own ones of a function. -/
def declareLocal (args : List String) : Session Unit := do
  Session.setStatus 0
  args.forM fun arg => Session.whenRunning do
    let p ← get
    match Process.declaration? arg, p.saved with
    | some (name, value), frame :: frames =>
      let isSaved := frame.any fun entry => entry.1 = name
      let frame := if isSaved then frame else (name, p.named? name) :: frame
      let p := { p with saved := frame :: frames }
      set (match value with
        | some value => p.assign name value
        | none => p)
    | _, _ => Session.abort

/-- Takes away variables or functions. -/
def unset (args : List String) : Session Unit := do
  let isFunction := args.contains "-f"
  Session.setStatus 0
  (args.filter fun arg => arg ≠ "-f" && arg ≠ "-v").forM fun name => Session.whenRunning do
    let p ← get
    if isFunction then
      set { p with functions := p.functions.filter fun entry => entry.1 ≠ name }
    else if !isName name.toList || (p.named? name).any Variable.isReadonly then Session.abort
    else set (p.putVariable name none)

/-- Sets options and arguments, or writes the variables. -/
def setOptions (args : List String) : Session Unit := do
  let p ← get
  Session.setStatus 0
  if args.isEmpty then
    let sorted := p.bindings.mergeSort fun x y => decide (x.1 ≤ y.1)
    let lines := sorted.filterMap fun (name, v) =>
      v.value.map fun value => name ++ "='" ++ value ++ "'\n"
    Session.emit 1 (String.join lines).toUTF8
  else match p.readOptions? args with
    | none => Session.abort
    | some (changed, rest, isEnded) =>
      set { changed with
        status := 0
        arguments := if isEnded || !rest.isEmpty then rest else p.arguments }

/-- Takes away the first arguments. -/
def shift (args : List String) : Session Unit := do
  let p ← get
  match count? (args.headD "1") with
  | some n =>
    if n ≤ p.arguments.length then set { p with arguments := p.arguments.drop n, status := 0 }
    else Session.abort
  | none => Session.abort

/-! ## Reading lines -/

/-- The first line of some characters, each with whether it is quoted, the number of characters
that it takes up, and whether it has an end. -/
def takeLine (isRaw : Bool) : List Char → List (Char × Bool) × Nat × Bool
  | [] => ([], 0, false)
  | '\n' :: _ => ([], 1, true)
  | '\\' :: c :: cs =>
    if isRaw then
      let (line, n, isEnded) := takeLine isRaw (c :: cs)
      (('\\', true) :: line, n + 1, isEnded)
    else
      let (line, n, isEnded) := takeLine isRaw cs
      (if c = '\n' then line else (c, true) :: line, n + 2, isEnded)
  | c :: cs =>
    let (line, n, isEnded) := takeLine isRaw cs
    ((c, false) :: line, n + 1, isEnded)

/-- The texts for some variables: the fields of a line, of which the last variable gets all that
are left. -/
def distribute (separators : List Char) : (names : Nat) → List (Char × Bool) → List String
  | 0, _ => []
  | names + 1, line =>
    let isGap (c : Char × Bool) : Bool := !c.2 && separators.contains c.1
    let isBlank (c : Char × Bool) : Bool :=
      isGap c && (c.1 = ' ' || c.1 = '\t' || c.1 = '\n')
    let line := line.dropWhile isBlank
    if names = 0 then
      [String.ofList ((line.reverse.dropWhile isBlank).reverse.map Prod.fst)]
    else
      let rest := match (line.dropWhile fun c => !isGap c).dropWhile isBlank with
        | c :: cs => if isGap c then cs else c :: cs
        | [] => []
      String.ofList ((line.takeWhile fun c => !isGap c).map Prod.fst) ::
        distribute separators names rest

/-- Reads a line of the input into variables. -/
def readLine (args : List String) : Session Unit := do
  let p ← get
  let names := dropOptions ['p', 't', 'n', 'd'] args
  let isRaw := (args.take (args.length - names.length)).contains "-r"
  let contents := p.input 0
  let (line, count, isEnded) := takeLine isRaw (textOf contents).toList
  let size := (String.ofList ((textOf contents).toList.take count)).utf8ByteSize
  set (p.consume 0 size)
  let values := distribute p.separators names.length line
  (names.zip values).forM fun (name, value) => modify fun p => p.assign name value
  if (← get).isRunning then Session.setStatus (if isEnded then 0 else 1)

/-! ## Options of a script -/

/-- The next option among some arguments: its letter, the value behind it if it takes one, the
number of the argument behind it, and how many letters have been read of its own argument if that
has more.  A letter that is no option is given as a question mark, and one without its value as a
colon. -/
def nextOption? (options : List Char) (args : List String) (number offset : Nat) :
    Option (Char × Option String × Nat × Nat) := do
  let current := if offset = 0 then number else number - 1
  let cs := (← args[current - 1]?).toList
  let isOption := cs.head? = some '-' && cs.length > 1 && cs ≠ ['-', '-']
  let offset := max 1 offset
  let letter ← if isOption then cs[offset]? else none
  let rest := cs.drop (offset + 1)
  let further := if rest.isEmpty then 0 else offset + 1
  let itself := some (String.singleton letter)
  match if letter = ':' then none else options.idxOf? letter with
  | none => pure ('?', itself, current + 1, further)
  | some i =>
    if options[i + 1]? = some ':' then
      if !rest.isEmpty then pure (letter, some (String.ofList rest), current + 1, 0)
      else match args[current]? with
        | some value => pure (letter, some value, current + 2, 0)
        | none => pure (':', itself, current + 1, 0)
    else pure (letter, none, current + 1, further)

/-- Reads the next option of the script, or of some arguments, into a variable. -/
def readOption (args : List String) : Session Unit := do
  let p ← get
  match args with
  | options :: name :: given =>
    let args := if given.isEmpty then p.arguments else given
    let number := max 1 (((p.valueOf? "OPTIND").bind String.toNat?).getD 1)
    let isSilent := options.toList.head? = some ':'
    match nextOption? (options.toList.filter fun c => !(isSilent && c = '?')) args number
      p.optionOffset with
    | none =>
      let number := if args[number - 1]? = some "--" then number + 1 else number
      let p := (p.assign name "?").assign "OPTIND" (toString number)
      set { p with status := 1 }
    | some (letter, value, number, offset) =>
      let isFault := letter = '?' || letter = ':'
      let letter := if letter = ':' && !isSilent then '?' else letter
      let value := if isFault && !isSilent then none else value
      let p := (p.assign name (String.singleton letter)).assign "OPTIND" (toString number)
      let p := match value with
        | some value => p.assign "OPTARG" value
        | none => p.putVariable "OPTARG" none
      set { p with status := 0, optionOffset := offset }
  | _ => Session.setStatus 2

/-! ## Signals and other processes -/

/-- Sends a signal to a process that runs. -/
def sendSignal (signal : Nat) (target : String) : Session Bool := do
  let p ← get
  match count? target with
  | none => pure false
  | some n =>
    if n = p.identity || p.ancestors.contains n then
      set { p with sent := p.sent ++ [(n, signal)] }
      pure true
    else pure (p.jobs.any fun job => job.1 = n)

/-- Writes the names of all signals, or that of the one which is given by its number or by the
status that it leads to. -/
def listSignals (args : List String) : Session Unit := do
  let all := List.range (ExitStatus.maxSignal + 1)
  let chosen := match args with
    | [] => all
    | n :: _ => all.filter fun m => m ≠ 0 && (count? n = some m || count? n = some (128 + m))
  Session.setStatus (if chosen.isEmpty then 2 else 0)
  Session.emit 1 (String.join (chosen.map fun n => signalLabel n ++ "\n")).toUTF8

/-- Sends a signal to some processes. -/
def kill (args : List String) : Session Unit := do
  let (signal, targets) : Option Nat × List String := match args with
    | "-s" :: name :: targets => (signal? name, targets)
    | "--" :: targets => (some 15, targets)
    | arg :: targets =>
      match arg.toList with
      | '-' :: 's' :: name =>
        match signal? (String.ofList ('s' :: name)) with
        | some n => (some n, targets)
        | none => (signal? (String.ofList name), targets)
      | '-' :: name => (signal? (String.ofList name), targets)
      | _ => (some 15, arg :: targets)
    | [] => (none, [])
  let targets := if targets.head? = some "--" then targets.drop 1 else targets
  if args.head? = some "-l" then listSignals (args.drop 1)
  else match signal with
    | none => Session.setStatus 2
    | some signal =>
      let isUnclear := targets.isEmpty || targets.any fun target => (count? target).isNone
      if isUnclear then Session.setStatus 2
      else
        let reached ← targets.mapM (sendSignal signal)
        Session.setStatus (if reached.all id then 0 else 1)

/-- Sets the commands for signals. -/
def setTraps (args : List String) : Session Unit := do
  Session.setStatus 0
  let (action, signals) := match args with
    | [] => (none, [])
    | [signal] => (none, [signal])
    | action :: signals =>
      if (count? action).isSome then (none, action :: signals)
      else if action = "-" then (none, signals)
      else (some action, signals)
  signals.forM fun name => do
    match if name.toList.map Char.toUpper = "EXIT".toList then some 0 else signal? name with
    | none => Session.setStatus 1
    | some signal => modify fun p =>
      let others := p.traps.filter fun trap => trap.1 ≠ signal
      { p with traps := match action with
        | some commands => (signal, commands) :: others
        | none => others }

/-- Waits for programs in the background, which are over already. -/
def wait (args : List String) : Session Unit := do
  let p ← get
  match args.getLast? with
  | none => Session.setStatus 0
  | some target =>
    let found := match target.toList with
      | '%' :: _ => p.jobs.head?.map Prod.snd
      | _ => (target.toNat?).bind fun n => p.jobs.lookup n
    Session.setStatus (found.getD 127)

/-! ## Directories -/

/-- Goes to another directory. -/
def changeDirectory (args : List String) : Session Unit := do
  let p ← get
  let physical := args.takeWhile (fun arg => arg = "-P" || arg = "-L" || arg = "--")
  let operands := args.drop physical.length
  let target := match operands with
    | [] => p.valueOf? "HOME"
    | "-" :: _ => p.valueOf? "OLDPWD"
    | directory :: _ => some directory
  let path (directory : String) : String :=
    if physical.contains "-P" then
      match p.fs.locate true ⟨directory⟩ with
      | .ok location => (FileSystem.pathOf location).text
      | .error _ => directory
    else p.logicalPath directory
  match target.bind fun directory => p.enter? (path directory) with
  | none => Session.setStatus 2
  | some p =>
    set { p with status := 0 }
    if operands.head? = some "-" then
      Session.emit 1 ((p.valueOf? "PWD").getD "" ++ "\n").toUTF8

/-! ## Names -/

/-- What a name stands for as a command, in the words that say so; nothing if it stands for
nothing. -/
def describe? (p : Process) (name : String) : Option (String × String) :=
  if keywords.contains name then some (name, name ++ " is a shell keyword")
  else if specialNames.contains name then some (name, name ++ " is a special shell builtin")
  else if (p.functions.lookup name).isSome then some (name, name ++ " is a shell function")
  else if builtinNames.contains name || name = "command" then
    some (name, name ++ " is a shell builtin")
  else match p.program name with
    | .ok (path, _, _) => some (path, name ++ " is " ++ path)
    | .error _ => none

/-- Writes what names stand for. -/
def describe (isLong : Bool) (names : List String) : Session Unit := do
  let p ← get
  Session.setStatus (if names.all fun name => (describe? p name).isSome then 0 else 127)
  let lines := names.map fun name =>
    match describe? p name with
    | some (short, long) => (if isLong then long else short) ++ "\n"
    | none => if isLong then name ++ ": not found\n" else ""
  Session.emit 1 (String.join lines).toUTF8

/-! ## All of them -/

/-- Runs the commands of a file. -/
def runFile (i : Interpreter) (file : String) : Session Unit := do
  let p ← get
  let paths := if file.toList.contains '/' then [file]
    else Program.candidates ((p.valueOf? "PATH").getD Program.usualDirectories) file
  match paths.findSome? fun path => (p.fs.readFile ⟨path⟩).toOption with
  | none => Session.abort
  | some contents =>
    i.runWhole false (textOf contents)
    modify fun p => if p.flow = .returning then { p with flow := .running } else p

/-- Runs a utility as a command of the script's own. -/
def runOwn (run : Utility) (args : List String) : Session Unit := do
  let p ← get
  let e := run p.fs ByteArray.empty args
  Session.setStatus e.status
  Session.emit 1 e.output

/-- Runs a special command. -/
def runSpecial (i : Interpreter) (isTested : Bool) (name : String) (args : List String) :
    Session Unit := do
  match name with
  | "break" => leaveLoops Flow.leaving args
  | "continue" => leaveLoops Flow.resuming args
  | "exit" => leaveWith (fun n => .ended (.code (n % 256))) args
  | "return" => leaveWith (fun _ => .returning) args
  | "export" => declare (fun v => { v with isExported := true }) args
  | "readonly" => declare (fun v => { v with isReadonly := true }) args
  | "set" => setOptions args
  | "shift" => shift args
  | "trap" => setTraps args
  | "unset" => unset args
  | "times" =>
    Session.setStatus 0
    Session.emit 1 "0m0.000000s 0m0.000000s\n0m0.000000s 0m0.000000s\n".toUTF8
  | "eval" => i.runWhole isTested (" ".intercalate args)
  | "." =>
    match args with
    | file :: _ => i.runFile file
    | [] => Session.abort
  | "exec" =>
    if args.isEmpty then Session.setStatus 0
    else do
      let status ← i.launch (if args.head? = some "--" then args.drop 1 else args)
      modify fun p => { p with traps := [] }.finish status
  | _ => Session.setStatus 0

/-- Runs another command of the script's own. -/
def runBuiltin (name : String) (args : List String) : Session Unit := do
  let p ← get
  let isExtended := p.has extendedOption
  let compared (args : List String) : List String :=
    if isExtended then args.map fun arg => if arg = "==" then "=" else arg else args
  match name with
  | "echo" => runOwn (Utility.echo isExtended) args
  | "printf" => runOwn Utility.printf args
  | "test" => runOwn Utility.test (compared args)
  | "[" => runOwn Utility.bracket (compared args)
  | "false" => Session.setStatus 1
  | "bg" | "fg" => Session.setStatus 2
  | "cd" | "chdir" => changeDirectory args
  | "kill" => kill args
  | "local" => declareLocal args
  | "read" => readLine args
  | "type" => describe true args
  | "wait" => wait args
  | "getopts" => readOption args
  | "pwd" =>
    if args.contains "-P" then runOwn Utility.pwd []
    else do
      Session.setStatus 0
      Session.emit 1 ((p.valueOf? "PWD").getD "" ++ "\n").toUTF8
  | "umask" =>
    Session.setStatus 0
    if args.isEmpty then Session.emit 1 "0022\n".toUTF8
  | _ => Session.setStatus 0

/-- Calls a function. -/
def callFunction (i : Interpreter) (isTested : Bool) (body : Command) (args : List String) :
    Session Unit := do
  let before ← get
  set { before with arguments := args, loops := 0, saved := [] :: before.saved }
  i.run isTested body
  modify fun p =>
    let restored := (p.saved.headD []).foldl (fun p entry => p.putVariable entry.1 entry.2) p
    { restored with
      arguments := before.arguments
      loops := before.loops
      saved := before.saved
      flow := if p.flow = .returning then .running else p.flow }

/-- Runs the command that the first of some arguments names. -/
def invoke (i : Interpreter) (isTested usesFunctions : Bool) : List String → Session Unit
  | [] => Session.setStatus 0
  | "command" :: "-v" :: names => do describe false names
  | "command" :: "-V" :: names => do describe true names
  | "command" :: "-p" :: args => i.invoke isTested false args
  | "command" :: "--" :: args => i.invoke isTested false args
  | "command" :: args => i.invoke isTested false args
  | name :: args => do
    let p ← get
    if specialNames.contains name then i.runSpecial isTested name args
    else match if usesFunctions then p.functions.lookup name else none with
      | some body => i.callFunction isTested body args
      | none =>
        if builtinNames.contains name then runBuiltin name args
        else do
          let status ← i.launch (name :: args)
          Session.whenRunning (Session.setStatus status.number)

end Interpreter

end Registrar.Script
