/-
# Starting programs

What the programs do that a script starts: utilities, other scripts, and programs that start
further ones.
-/
import Registrar.Script.Program
import Registrar.Script.Redirection

namespace Registrar.Script

/-! ## Scripts -/

/-- The names of the options that are letters, too. -/
def optionNames : List (String × Char) :=
  [("allexport", 'a'), ("noclobber", 'C'), ("errexit", 'e'), ("noglob", 'f'), ("noexec", 'n'),
    ("nounset", 'u'), ("verbose", 'v'), ("xtrace", 'x'), ("ignoreeof", 'I'), ("notify", 'b'),
    ("monitor", 'm'), ("vi", 'V'), ("emacs", 'E'), ("interactive", 'i'), ("stdin", 's')]

/-- The letter of the option that only some shells have: a pipeline fails if one of its commands
does. -/
def pipelineOption : Char := 'P'

/-- The letter that marks an extended shell. -/
def extendedOption : Char := 'X'

namespace Process

/-- Turns an option on or off. -/
def setOption (p : Process) (isOn : Bool) (letter : Char) : Process :=
  let others := p.options.filter (· ≠ letter)
  { p with options := if isOn then letter :: others else others }

/-- Turns an option that is given by its letter on or off, if there is one. -/
def setLetter? (p : Process) (isOn : Bool) (letter : Char) : Option Process :=
  if optionNames.any fun entry => entry.2 = letter then some (p.setOption isOn letter) else none

/-- Turns an option that is given by its name on or off, if there is one. -/
def setName? (p : Process) (isOn : Bool) (name : String) : Option Process :=
  if name = "pipefail" && p.has extendedOption then some (p.setOption isOn pipelineOption)
  else (optionNames.lookup name).map fun letter => p.setOption isOn letter

/-- Reads the options at the front of some arguments.  The answer has the arguments behind them and
whether they were ended by a mark. -/
def readOptions? (p : Process) : List String → Option (Process × List String × Bool)
  | [] => some (p, [], false)
  | "--" :: args => some (p, args, true)
  | "-" :: args => some (p, args, true)
  | "-o" :: name :: args => (p.setName? true name).bind fun p => p.readOptions? args
  | "+o" :: name :: args => (p.setName? false name).bind fun p => p.readOptions? args
  | arg :: args =>
    match arg.toList with
    | sign :: letter :: letters =>
      if sign = '-' || sign = '+' then
        let isNamed := (letter :: letters).contains 'o'
        let plain := (letter :: letters).filter (· ≠ 'o')
        match plain.foldlM (fun p letter => p.setLetter? (sign = '-') letter) p, isNamed, args with
        | none, _, _ => none
        | some p, false, args => p.readOptions? args
        | some p, true, name :: args =>
          (p.setName? (sign = '-') name).bind fun p => p.readOptions? args
        | some p, true, [] => some (p, [], false)
      else some (p, arg :: args, false)
    | _ => some (p, arg :: args, false)

/-- The process of a script that another process starts: it knows only what is exported. -/
def newScript (p : Process) (isExtended : Bool) : Process :=
  let parent := p.ancestors.headD 0
  let fresh : Process := { p with
    number := p.identity
    name := if isExtended then "bash" else "sh"
    arguments := []
    bindings := p.environment
    functions := []
    saved := []
    options := if isExtended then [extendedOption] else []
    status := 0
    outputStatus := 0
    jobs := []
    loops := 0 }
  let isHere (path : String) : Bool := match p.fs.locate true ⟨path⟩ with
    | .ok location => location = p.fs.workingDirectory
    | .error _ => false
  let fresh := if (fresh.valueOf? "PWD").any isHere then fresh
    else fresh.putVariable "PWD"
      (some { value := some ((p.fs.workingPath?.map Path.text).getD "/") })
  let usual := [("IFS", " \t\n"), ("OPTIND", "1"), ("PS1", "# "), ("PS2", "> "), ("PS4", "+ "),
    ("PPID", toString parent)]
  usual.foldl (fun p entry => p.putVariable entry.1 (some { value := some entry.2 })) fresh

end Process

/-- Where the commands of a script come from. -/
inductive ScriptSource where
  | given (text : String)
  | file (path : String)
  | input
  deriving DecidableEq

/-- Reads the arguments of a program that runs scripts: its options, where the commands come from,
and the arguments of the script. -/
def readShellArguments? (p : Process) (args : List String) :
    Option (Process × ScriptSource) :=
  let isCluster (arg : String) : Bool :=
    match arg.toList with
    | '-' :: c :: cs => c ≠ '-' && (c :: cs).contains 'c'
    | _ => false
  /- The letters that are no options of a script are taken away first. -/
  let options := args.takeWhile fun arg =>
    match arg.toList with
    | '-' :: c :: _ => c ≠ '-'
    | '+' :: _ :: _ => true
    | _ => false
  let hasText := options.any isCluster
  let hasInput := options.any fun arg => arg.toList.contains 's' && !isCluster arg
  let cleaned := args.zipIdx.filterMap fun (arg, n) =>
    if n < options.length then
      let letters := arg.toList.filter fun c => c ≠ 'c' && c ≠ 'l' && c ≠ 's'
      if letters.length ≤ 1 then none else some (String.ofList letters)
    else some arg
  match p.readOptions? cleaned with
  | none => none
  | some (p, args, _) =>
    if hasText then
      match args with
      | [] => none
      | text :: name :: args => some ({ p with name := name, arguments := args }, .given text)
      | [text] => some (p, .given text)
    else if hasInput then some ({ p with arguments := args }, .input)
    else match args with
      | [] => some (p, .input)
      | file :: args => some ({ p with name := file, arguments := args }, .file file)

namespace Interpreter

/-- Runs a script in a process of its own. -/
def runScript (i : Interpreter) (isExtended : Bool) (args : List String) : Session ExitStatus :=
  i.inSubshell (fun p => p.newScript isExtended) do
    match readShellArguments? (← get) args with
    | none => Session.abort
    | some (p, source) =>
      set p
      match source with
      | .given text => i.runWhole false text
      | .file path =>
        match p.fs.readFile ⟨path⟩ with
        | .ok contents => i.runWhole false (textOf contents)
        | .error .isADirectory => pure ()
        | .error _ => Session.abort
      | .input =>
        let contents := p.input 0
        set (p.consume 0 contents.size)
        i.runWhole false (textOf contents)

/-- Runs a utility. -/
def runUtility (run : Utility) (args : List String) : Session ExitStatus := do
  let p ← get
  let input := p.input 0
  let e := run p.fs input args
  let p := { p with fs := e.fs }
  set (if e.readsInput then p.consume 0 input.size else p)
  Session.emit 1 e.output
  pure (.code e.status)

/-! ## Programs that start others -/

/-- Arguments without the options at their front, of which some take the next argument. -/
def dropOptions (valued : List Char) : List String → List String
  | [] => []
  | "--" :: args => args
  | arg :: args =>
    match arg.toList with
    | ['-', c] => dropOptions valued (if valued.contains c then args.drop 1 else args)
    | '-' :: _ :: _ => dropOptions valued args
    | _ => arg :: args
termination_by args => args.length
decreasing_by
  · split
    · simp only [List.length_cons, List.length_drop]
      omega
    · simp
  · simp

/-- Writes the variables that programs get to know. -/
def writeEnvironment : Session Unit := do
  let lines := (← get).environment.map fun (name, v) => name ++ "=" ++ v.value.getD "" ++ "\n"
  Session.emit 1 (String.join lines).toUTF8

/-- Changes variables as the arguments of a program say that starts another one with them, and
gives back the arguments behind them. -/
def changeEnvironment (p : Process) : List String → Process × List String
  | [] => (p, [])
  | "-" :: args => changeEnvironment { p with bindings := [] } args
  | "-i" :: args => changeEnvironment { p with bindings := [] } args
  | "-u" :: name :: args => changeEnvironment (p.putVariable name none) args
  | "--" :: args => changeEnvironment p args
  | arg :: args =>
    match Text.breakOn? "=" arg with
    | some (name, value) =>
      if name.isEmpty then (p, arg :: args)
      else changeEnvironment
        (p.putVariable name (some { value := some value, isExported := true })) args
    | none => (p, arg :: args)

/-- Starts a program with other variables, or writes the variables. -/
def runWithEnvironment (i : Interpreter) (args : List String) : Session ExitStatus := do
  let words (text : String) : List String :=
    ((Chars.splitOn ' ' text.toList).filter fun word => !word.isEmpty).map String.ofList
  let args := match args with
    | "-S" :: text :: args => words text ++ args
    | arg :: args =>
      match Text.dropStart? "-S" arg with
      | some text => words text ++ args
      | none => arg :: args
    | [] => []
  let p ← get
  let (changed, command) := changeEnvironment p args
  if command.any fun word => word.toList.head? = some '-' && command.head? = some word then
    pure (.code 125)
  else do
    set changed
    let status ← if command.isEmpty then do
        writeEnvironment
        pure (ExitStatus.code 0)
      else i.launch command
    modify fun after => { after with bindings := p.bindings }
    pure status

/-- The words of a text, which may be quoted. -/
def inputWords (cs : List Char) : List String :=
  let step (state : List (List Char) × Option (List Char) × Option Char × Bool) (c : Char) :=
    let (done, current, quote, isEscaped) := state
    let extended := some (c :: current.getD [])
    if isEscaped then (done, extended, quote, false)
    else match quote with
      | some q => if c = q then (done, current, none, false) else (done, extended, quote, false)
      | none =>
        if c = '\\' then (done, current, none, true)
        else if c = '"' || c = '\x27' then (done, some (current.getD []), some c, false)
        else if c = ' ' || c = '\t' || c = '\n' then
          match current with
          | some word => (word.reverse :: done, none, none, false)
          | none => (done, none, none, false)
        else (done, extended, none, false)
  let (done, current, _, _) := cs.foldl step ([], none, none, false)
  let all := match current with
    | some word => word.reverse :: done
    | none => done
  all.reverse.map String.ofList

/-- Groups of at most some members each. -/
def groupsOf {α : Type} (size : Nat) : (count : Nat) → List α → List (List α)
  | 0, _ => []
  | count + 1, xs => if xs.isEmpty then [] else xs.take size :: groupsOf size count (xs.drop size)

/-- Starts a program for each of some groups of arguments. -/
def launchAll (i : Interpreter) (hasFailed : Bool) : List (List String) → Session ExitStatus
  | [] => pure (.code (if hasFailed then 123 else 0))
  | words :: rest => do
    match ← i.launch words with
    | .code 0 => i.launchAll hasFailed rest
    | .code 126 => pure (.code 126)
    | .code 127 => pure (.code 127)
    | .code 255 => pure (.code 124)
    | .signal _ => pure (.code 125)
    | .code _ => i.launchAll true rest

/-- Starts a program with arguments from the input. -/
def runForInput (i : Interpreter) (args : List String) : Session ExitStatus := do
  let command := dropOptions ['n', 'I', 'L', 'd', 'P', 's', 'E', 'a'] args
  let a := Arguments.read ['n', 'I', 'L', 'd', 'P', 's', 'E', 'a'] {}
    (args.take (args.length - command.length))
  let command := if command.isEmpty then ["echo"] else command
  let p ← get
  let contents := p.input 0
  set (p.consume 0 contents.size)
  let cs := (textOf contents).toList
  let parts (mark : Char) : List String :=
    let pieces := Chars.splitOn mark cs
    (if pieces.getLast? = some [] then pieces.dropLast else pieces).map String.ofList
  let separator := (a.value? 'd').map fun text => (unescape text.toList).headD '\n'
  let items := if a.has ['0'] then parts '\x00'
    else match separator with
      | some c => parts c
      | none => if (a.value? 'I').isSome then parts '\n' else inputWords cs
  match a.value? 'I' with
  | some mark =>
    let filled (item word : String) : String :=
      String.ofList
        (item.toList.intercalate (splitText mark.toList word.toList.length word.toList))
    i.launchAll false ((items.filter fun item => !item.isEmpty).map fun item =>
      command.map (filled item))
  | none =>
    let size := ((a.value? 'n').orElse fun _ => a.value? 'L').bind String.toNat?
    let groups := if items.isEmpty then if a.has ['r'] then [] else [[]]
      else groupsOf (max 1 (size.getD items.length)) items.length items
    i.launchAll false (groups.map fun group => command ++ group)
where
  /-- The pieces between the occurrences of a mark. -/
  splitText (mark : List Char) : (count : Nat) → List Char → List (List Char)
    | 0, cs => [cs]
    | count + 1, cs =>
      match Chars.breakOn? mark cs with
      | some (before, after) => before :: splitText mark count after
      | none => [cs]

/-- A word with a path in place of the marks in it. -/
def withPath (path word : String) : String :=
  String.ofList (path.toList.intercalate
    (runForInput.splitText ['{', '}'] word.toList.length word.toList))

/-- Goes through the steps of a search for an entry.  The answer says whether all of them hold, and
has the paths that are to be used later, with the commands for them. -/
def takeSteps (i : Interpreter) (f : Found) : (isNegated : Bool) → List SearchStep →
    Session (Bool × List (List String × String))
  | _, [] => pure (true, [])
  | isNegated, step :: steps => do
    let further (holds : Bool) : Session (Bool × List (List String × String)) :=
      if holds != isNegated then i.takeSteps f false steps else pure (false, [])
    match step with
    | .negation => i.takeSteps f (!isNegated) steps
    | .print ending =>
      Session.emit 1 (f.path ++ ending).toUTF8
      further true
    | .delete =>
      let fs := (← get).fs
      let removed := if f.node.isDirectory then fs.removeDirectory ⟨f.path⟩
        else fs.removeFile ⟨f.path⟩
      match removed with
      | .ok fs =>
        modify fun p => { p with fs := fs }
        further true
      | .error _ =>
        Session.setStatus 1
        further false
    | .execute words isBatch =>
      if isBatch then do
        let (holds, later) ← further true
        pure (holds, (words, f.path) :: later)
      else do
        let status ← i.launch (words.map (withPath f.path))
        further status.isSuccess
    | step => further (step.holdsFor (← get).fs f)

/-- Goes through the alternatives of a search for an entry up to the first one that holds. -/
def takeAlternatives (i : Interpreter) (f : Found) :
    List (List SearchStep) → Session (List (List String × String))
  | [] => pure []
  | steps :: others => do
    let (holds, later) ← i.takeSteps f false steps
    if holds then pure later else pure (later ++ (← i.takeAlternatives f others))

/-- Runs a search. -/
def runSearch (i : Interpreter) (args : List String) : Session ExitStatus := do
  match Search.ofArguments? args with
  | none => pure (.code 1)
  | some search =>
    let before := (← get).status
    Session.setStatus 0
    let (found, isComplete) := search.found (← get).fs
    let later := (← found.mapM fun f => i.takeAlternatives f search.alternatives).flatten
    let commands := (later.map Prod.fst).eraseDups
    let statuses ← commands.mapM fun words =>
      let paths := (later.filter fun entry => entry.1 = words).map Prod.snd
      i.launch (words.filter (· ≠ r"{}") ++ paths)
    let isSound := isComplete && (← get).status = 0 && statuses.all ExitStatus.isSuccess
    Session.setStatus before
    pure (.code (if isSound then 0 else 1))

/-- Runs a program that starts others. -/
def runStarter (i : Interpreter) (name : String) (args : List String) : Session ExitStatus := do
  match name with
  | "env" => i.runWithEnvironment args
  | "xargs" => i.runForInput args
  | "find" => i.runSearch args
  | "printenv" =>
    let p ← get
    let values := args.filterMap fun name =>
      (p.environment.lookup name).bind Variable.value
    if args.isEmpty then writeEnvironment
    else Session.emit 1 (String.join (values.map fun value => value ++ "\n")).toUTF8
    pure (.code (if values.length = args.length then 0 else 1))
  | "which" =>
    let p ← get
    let names := dropOptions [] args
    let paths := names.filterMap fun name => ((p.program name).toOption).map Prod.fst
    Session.emit 1 (String.join (paths.map fun path => path ++ "\n")).toUTF8
    pure (.code (if paths.length = names.length && !names.isEmpty then 0 else 1))
  | "timeout" =>
    match dropOptions ['s', 'k'] args with
    | duration :: word :: words =>
      if Utility.isDuration duration then i.launch (word :: words) else pure (.code 125)
    | _ => pure (.code 125)
  | "stdbuf" =>
    let command := dropOptions ['i', 'o', 'e'] args
    if command.isEmpty || command.length = args.length then pure (.code 125) else i.launch command
  | _ =>
    match dropOptions ['n'] args with
    | [] => pure (.code (if name = "nice" then 0 else 125))
    | words => i.launch words

/-- Runs a program with arguments. -/
def start (i : Interpreter) (program : Program) (args : List String) : Session ExitStatus :=
  match program with
  | .utility run => runUtility run args
  | .shell isExtended => i.runScript isExtended args
  | .starter name => i.runStarter name args
  | .text path => i.runScript false (path :: args)

/-- Starts a program by its name.  The status is 127 if there is none, and 126 if it cannot be
executed. -/
def launchStep (i : Interpreter) (words : List String) : Session ExitStatus := do
  match words with
  | [] => pure (.code 0)
  | name :: args =>
    match (← get).program name with
    | .ok (_, program, front) => i.start program (front ++ args)
    | .error .notFound | .error .notADirectory | .error .tooManyLinks | .error .nameTooLong =>
      pure (.code 127)
    | .error _ => pure (.code 126)

end Interpreter

end Registrar.Script
