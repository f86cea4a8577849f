/-
# Arguments

A command line is read from left to right.  The first mistake in it, or the first wish for help
or for the version, ends the reading.
-/
import Registrar.Path.Basic
import Registrar.Text.Lines

namespace Registrar.CommandLine

/-- Why a command line asks for no run. -/
inductive Stop where
  | usage
  | help
  | version
  deriving DecidableEq, Repr

/-- What a command line asks for. -/
structure Arguments where
  input : Path
  output : Path
  outerNamespace : String
  isForced : Bool := false
  configuration : Option Path := none
  /-- The directory of documents that are there already. -/
  xmlDir : Option Path := none
  logLevel : String := "info"
  deriving DecidableEq, Repr

/-! ## Switches -/

/-- A switch that stands for itself. -/
inductive Flag where
  | help
  | version
  | force
  deriving DecidableEq, Repr

/-- A switch that takes a value. -/
inductive Setting where
  | logLevel
  | configuration
  | xmlDir
  deriving DecidableEq, Repr

/-- A switch of either kind. -/
inductive Switch where
  | flag (f : Flag)
  | setting (s : Setting)
  deriving DecidableEq, Repr

/-- The part of the command line that is being read. -/
inductive Stage where
  /-- In front of the command. -/
  | program
  /-- Behind the command `help`, with or without the command that it is about. -/
  | help (hasTopic : Bool)
  /-- Behind the command `generate`. -/
  | generate
  deriving DecidableEq, Repr

namespace Stage

/-- The switch that a letter stands for. -/
def letter? : Stage → Char → Option Switch
  | _, 'h' => some (.flag .help)
  | _, 'l' => some (.setting .logLevel)
  | program, 'V' => some (.flag .version)
  | generate, 'f' => some (.flag .force)
  | generate, 'c' => some (.setting .configuration)
  | _, _ => none

/-- The switch that a word stands for. -/
def word? : Stage → String → Option Switch
  | _, "help" => some (.flag .help)
  | _, "log-level" => some (.setting .logLevel)
  | program, "version" => some (.flag .version)
  | generate, "force" => some (.flag .force)
  | generate, "config" => some (.setting .configuration)
  | generate, "xml-dir" => some (.setting .xmlDir)
  | _, _ => none

end Stage

/-! ## Reading -/

/-- What has been read so far. -/
structure Reading where
  stage : Stage := .program
  /-- The switch whose value is the next argument. -/
  awaiting : Option Setting := none
  /-- Nothing is a switch any more. -/
  isLiteral : Bool := false
  /-- The arguments of the command that are neither switches nor their values. -/
  operands : List String := []
  /-- The level in front of the command. -/
  programLevel : Option String := none
  /-- The level in front of the command was given again. -/
  isLevelRepeated : Bool := false
  /-- The level behind the command, which takes precedence. -/
  commandLevel : Option String := none
  isForced : Bool := false
  configuration : Option Path := none
  xmlDir : Option Path := none

namespace Reading

/-- A path, which must not be empty. -/
def path (text : String) : Except Stop Path :=
  if text.isEmpty then throw .usage else pure ⟨text⟩

/-- A value that is given for the first time. -/
def once {α : Type} (before : Option α) (a : α) : Except Stop (Option α) :=
  match before with
  | some _ => throw .usage
  | none => pure (some a)

/-- Notes the value of a switch. -/
def assign (r : Reading) (value : String) : Setting → Except Stop Reading
  | .logLevel => do
    match r.stage with
    | .generate => pure { r with commandLevel := ← once r.commandLevel value }
    | _ => pure { r with programLevel := ← once r.programLevel value }
  | .configuration => do pure { r with configuration := ← once r.configuration (← path value) }
  | .xmlDir => do pure { r with xmlDir := ← once r.xmlDir (← path value) }

/-- Notes the value of a switch that stands as an argument of its own.  A level that is given
again in front of the command is a mistake, but one that is not noticed yet. -/
def assignNext (r : Reading) (value : String) (s : Setting) : Except Stop Reading :=
  let r := { r with awaiting := none }
  if r.stage = .program && r.programLevel.isSome then pure { r with isLevelRepeated := true }
  else r.assign value s

/-- Notices, at a switch in front of the command, that the level was given again.  A switch behind
the command is obeyed first, and the repetition noticed when nothing is left to read. -/
def noticeRepetition (r : Reading) : Except Stop Reading :=
  if r.stage = .program && r.isLevelRepeated then throw .usage else pure r

/-- Obeys a switch that stands for itself. -/
def obey (r : Reading) : Flag → Except Stop Reading
  | .help => throw .help
  | .version => throw .version
  | .force => if r.isForced then throw .usage else pure { r with isForced := true }

/-- Reads letters behind a dash.  The first one that takes a value has the rest as its value. -/
def letters (r : Reading) : List Char → Except Stop Reading
  | [] => pure r
  | c :: cs =>
    match r.stage.letter? c with
    | none => throw .usage
    | some (.flag f) => do (← r.obey f).letters cs
    | some (.setting s) =>
      match cs with
      | [] => pure { r with awaiting := some s }
      | '=' :: value => r.assign (String.ofList value) s
      | value => r.assign (String.ofList value) s

/-- Reads what follows two dashes: a word, and behind an equals sign its value. -/
def word (r : Reading) (cs : List Char) : Except Stop Reading :=
  match r.stage.word? (String.ofList (cs.takeWhile (· ≠ '='))), cs.dropWhile (· ≠ '=') with
  | some (.flag f), [] => r.obey f
  | some (.setting s), [] => pure { r with awaiting := some s }
  | some (.setting s), _ :: value => r.assign (String.ofList value) s
  | _, _ => throw .usage

/-- Reads an argument that is no switch. -/
def operand (r : Reading) (text : String) : Except Stop Reading :=
  match r.stage with
  | .program =>
    if r.isLiteral then throw .usage
    else if text = "generate" then pure { r with stage := .generate }
    else if text = "help" then pure { r with stage := .help false }
    else throw .usage
  | _ => do
    if r.operands.length < 2 then
      let _ ← path text
    if r.operands.length < 3 then pure { r with operands := r.operands ++ [text] }
    else throw .usage

/-- Reads the command that help is wanted about. -/
def topic (r : Reading) (hasTopic : Bool) (text : String) : Except Stop Reading :=
  if !hasTopic && (text = "generate" || text = "help") then pure { r with stage := .help true }
  else throw .usage

/-- Whether an argument can be the value of the switch in front of it. -/
def isValue (text : String) : Bool :=
  text = "-" || !Text.startsWith text "-"

/-- Reads one argument. -/
def step (r : Reading) (text : String) : Except Stop Reading :=
  match r.stage, r.awaiting with
  | .help hasTopic, _ => r.topic hasTopic text
  | _, some s => if isValue text then r.assignNext text s else throw .usage
  | _, none =>
    if r.isLiteral then r.operand text
    else match text.toList with
      | ['-', '-'] => pure { r with isLiteral := true }
      | '-' :: '-' :: cs => do (← r.noticeRepetition).word cs
      | '-' :: c :: cs => do (← r.noticeRepetition).letters (c :: cs)
      | _ => r.operand text

/-- What is asked for when all arguments have been read. -/
def finish (r : Reading) : Except Stop Arguments :=
  match r.stage, r.operands with
  | .help _, _ => throw .help
  | .generate, [input, output, outerNamespace] =>
    if r.awaiting.isSome || r.isLevelRepeated then throw .usage
    else pure
      { input := ⟨input⟩
        output := ⟨output⟩
        outerNamespace := outerNamespace
        isForced := r.isForced
        configuration := r.configuration
        xmlDir := r.xmlDir
        logLevel := (r.commandLevel.orElse fun _ => r.programLevel).getD "info" }
  | _, _ => throw .usage

end Reading

/-- What a command line asks for. -/
def Arguments.parse (arguments : List String) : Except Stop Arguments := do
  let r ← arguments.foldlM Reading.step {}
  r.finish

/-- How the program is used. -/
def usageText : String :=
  Text.joinLines
    ["Usage: reflect [-l LEVEL] generate <INPUT> <OUTPUT> <NAMESPACE> [OPTIONS]",
      "",
      "Generates type registration code from documented headers.",
      "",
      "  -f, --force            generate even if the output is up to date",
      "  -c, --config <FILE>    JSON file that overrides the default settings",
      "      --xml-dir <DIR>    documents that are there already",
      "  -l, --log-level <LEVEL>",
      "                         error, warn, info, debug or trace",
      "  -h, --help             this text",
      "  -V, --version          the version",
      ""]

end Registrar.CommandLine
