/-
# The command line

What the program does with its arguments: it answers at once, or runs the generator and says what
the chosen level lets through.
-/
import Registrar.CommandLine.Arguments
import Registrar.Run.Generator
import Registrar.Settings.File

namespace Registrar

/-- The level that a text names: by its name in any case, or by a number from 1 for `error` to 5
for `trace`. -/
def Level.ofText? (text : String) : Option Level :=
  let digits := match text.toList with
    | '+' :: cs => cs
    | cs => cs
  if digits ≠ [] ∧ digits.all Char.isDigit then
    match digits.dropWhile (· = '0') with
    | ['1'] => some error
    | ['2'] => some warn
    | ['3'] => some info
    | ['4'] => some debug
    | ['5'] => some trace
    | _ => none
  else [error, warn, info, debug, trace].find? fun level => level.label = text.toLower

/-- How a character is printed on a terminal.  The ones that may control it are spelled out. -/
def LogLine.printedCharacter (c : Char) : List Char :=
  let digits := Nat.toDigits 16 c.toNat
  if c = '\x1b' || c = '\x07' || c = '\x08' || c = '\x0c' || c = '\x7f' then
    ['\\', 'x'] ++ List.replicate (2 - digits.length) '0' ++ digits
  else if 0x80 ≤ c.toNat && c.toNat ≤ 0x9f then ['\\', 'u', '{'] ++ digits ++ ['}']
  else [c]

/-- The line as it is printed on a terminal. -/
def LogLine.printed (line : LogLine) : LogLine :=
  { line with message := String.ofList (line.message.toList.flatMap printedCharacter) }

/-- The lines that are at least as important as a level. -/
def Log.atLeast (log : Log) (level : Level) : Log :=
  log.filter fun line => level.rank ≤ line.level.rank

namespace CommandLine

/-- The version of the program. -/
def version : String := "0.1.0"

/-- Why the program fails. -/
inductive Failure where
  | logLevel (text : String)
  | settings (e : SettingsError)
  | run (e : RunError)
  deriving DecidableEq, Repr

/-- The wording of a failure. -/
def Failure.message : Failure → String
  | logLevel text => "invalid log level '" ++ text ++ "'"
  | settings e => e.message
  | run e => e.message

/-- How the program ends. -/
inductive Ending where
  /-- It has done what it was asked for. -/
  | done
  /-- It has shown a text that it was asked for. -/
  | shown (text : String)
  /-- Its arguments make no sense. -/
  | misused
  | failed (e : Failure)
  deriving DecidableEq, Repr

/-- The number that the program ends with. -/
def Ending.exitCode : Ending → Nat
  | done => 0
  | shown _ => 0
  | misused => 2
  | failed _ => 1

/-- The end that a command line without a run comes to. -/
def Stop.ending : Stop → Ending
  | usage => .misused
  | help => .shown usageText
  | version => .shown ("reflect " ++ CommandLine.version ++ "\n")

/-- The settings that a run is to have. -/
def settings (fs : FileSystem) (arguments : Arguments) : Except SettingsError Settings :=
  match arguments.configuration with
  | none => .ok {}
  | some path => Settings.load fs path

/-- The generator that is asked for. -/
def generator (programs : Programs) (arguments : Arguments) (s : Settings) : Generator where
  input := arguments.input
  output := arguments.output
  outerNamespace := arguments.outerNamespace
  settings := s
  producer :=
    match arguments.xmlDir with
    | none => .doxygen programs
    | some dir => .prebuilt dir

/-- Runs the generator. -/
def generate (programs : Programs) (arguments : Arguments) (s : Settings) : Step Unit := do
  Step.say .debug ("Reflect v" ++ version)
  match ← (generator programs arguments s).run arguments.isForced with
  | .upToDate => pure ()
  | .generated report => Step.say .debug ("Generated " ++ report.output.text)

/-- Runs the program: its end, the lines that it prints, and the file system it leaves. -/
def run (programs : Programs) (arguments : List String) (fs : FileSystem) :
    Logged (Ending × FileSystem) :=
  match Arguments.parse arguments with
  | .error stop => pure (stop.ending, fs)
  | .ok arguments =>
    match Level.ofText? arguments.logLevel with
    | none => pure (.failed (.logLevel arguments.logLevel), fs)
    | some level =>
      match settings fs arguments with
      | .error e => pure (.failed (.settings e), fs)
      | .ok s =>
        let answer := (generate programs arguments s).run.run fs
        let ending := match answer.result.1 with
          | .ok () => Ending.done
          | .error e => .failed (.run e)
        ⟨(ending, answer.result.2), (answer.log.atLeast level).map LogLine.printed⟩

end CommandLine

end Registrar
