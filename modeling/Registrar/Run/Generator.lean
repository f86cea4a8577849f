/-
# Runs

A run makes sure that the generated file is current.  It has the documents produced, takes them
in, links and classifies the types, and replaces the generated file at once.  A scratch directory
that the producer needed is removed afterwards, whether or not the run succeeded.
-/
import Registrar.Emission
import Registrar.Run.Producer
import Registrar.Run.Report
import Registrar.Run.Staleness
import Registrar.Template.Directory

namespace Registrar

/-- What a run has done. -/
inductive Outcome where
  /-- The generated file was current, and nothing was touched. -/
  | upToDate
  | generated (report : Report)

/-- One header tree, one output directory, one namespace. -/
structure Generator where
  input : Path
  output : Path
  outerNamespace : String
  settings : Settings := {}
  producer : Producer := .doxygen Script.start

namespace Generator

/-- The generated file. -/
def outputPath (g : Generator) : Path :=
  g.output / g.settings.outputFileName

/-- The directory for intermediate files. -/
def scratchDir (g : Generator) : Path :=
  g.output / g.settings.scratchDirName

/-- Whether the generated file is current. -/
def isUpToDate (g : Generator) (fs : FileSystem) : Logged Bool :=
  fs.isUpToDate g.input g.outputPath g.settings.filePatterns

/-- A path as seen from the root. -/
def resolve (p : Path) : Step Path := do
  match (← get).workingPath?, p.isAbsolute with
  | some base, _ =>
    match Path.absolute? base p with
    | some q => pure q
    | none => throw (.resolve p)
  | none, true =>
    match Path.absolute? ⟨"/"⟩ p with
    | some q => pure q
    | none => throw (.resolve p)
  | none, false => throw (.resolve p)

/-- Makes a directory and the ones above it that are missing. -/
def createDirectory (p : Path) : Step Unit := do
  let (fs, outcome) := (← get).createDirectories p
  set fs
  match outcome with
  | .ok () => pure ()
  | .error _ => throw (.createDirectory p)

/-- Removes the scratch directory.  If it cannot be removed, that is said and no failure. -/
def removeScratch (scratch : Path) : StateT FileSystem Logged Unit := do
  let (fs, outcome) := (← get).removeTree scratch
  set fs
  match outcome with
  | .ok () => pure ()
  | .error _ => StateT.lift (Logged.say .warn ("failed to remove '" ++ scratch.text ++ "'"))

/-- A phase of a run.  Its time is noted in the report. -/
def phase {α : Type} (r : Report) (name : String) (x : Step α) : Step (α × Report) := do
  let before := (← get).clock
  let a ← x
  let after := (← get).clock
  pure (a, r.timePhase name (after - before).toNat)

/-- Links the types of a model and gives them their roles. -/
def classifyStep (m : Model) (bases : BaseSettings) : Step Model := do
  let classified ← ExceptT.lift (StateT.lift (m.classify bases))
  match classified.failure with
  | none => pure classified.model
  | some e => throw (.classify e)

/-- Generates the file in an output directory. -/
def generate (g : Generator) (input output scratch : Path) (templates : TemplateSet) :
    Step Report := do
  let target := output / g.settings.outputFileName
  let (ast, report) ← phase { output := target } "produce"
    (g.producer.produce input scratch g.settings)
  Step.say .info "Parsing AST..."
  let (m, report) ← phase report "ingest" do
    Step.ofLogged .ingest (Documentation.readDirectory (← get) g.settings.tags ast)
  let (m, report) ← phase report "link" (pure m.link)
  let (m, report) ← phase report "classify" (classifyStep m g.settings.bases)
  let plan ← ExceptT.lift (StateT.lift (Plan.make m g.settings))
  let report := report.recordPlan m.size plan
  Step.say .info "Generating reflection code..."
  let emitter : Emitter :=
    { templates := templates, outputDir := output, outerNamespace := g.outerNamespace }
  let (code, report) ← phase report "emit" (Step.ofLogged .template (emitter.emit m plan))
  Step.change (.write target) fun fs => fs.replaceFile target code.toUTF8
  pure report

/-- The templates that the settings ask for. -/
def templates (g : Generator) : Step TemplateSet := do
  match g.settings.templateDir with
  | none => pure {}
  | some dir => Step.ofLogged .template (TemplateSet.load (← get) dir)

/-- Generates the file, and makes and removes the directories around that. -/
def regenerate (g : Generator) : Step Report := do
  let templates ← g.templates
  let input ← resolve g.input
  let output ← resolve g.output
  createDirectory output
  let scratch := output / g.settings.scratchDirName
  if g.producer.usesScratch then createDirectory scratch
  let outcome ← ExceptT.lift (g.generate input output scratch templates).run
  if g.producer.usesScratch then ExceptT.lift (removeScratch scratch)
  let report ← ExceptT.mk (pure outcome)
  ExceptT.lift (StateT.lift report.announce)
  pure report

/-- Makes sure that the generated file is current, or generates it in any case if `force` is
set. -/
def run (g : Generator) (force : Bool) : Step Outcome := do
  let isCurrent ← if force then pure false else
    ExceptT.lift (StateT.lift (g.isUpToDate (← get)))
  if isCurrent then
    Step.say .info "Reflection code is up to date"
    pure .upToDate
  else
    let report ← g.regenerate
    pure (.generated report)

end Generator

end Registrar
