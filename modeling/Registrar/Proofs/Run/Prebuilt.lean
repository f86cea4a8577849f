/-
# Runs over documents that are there already

Such a run has no use for a scratch directory.  It either ends with the text of the generated file
at the place that the output path names, or it fails and has touched no file.  Besides that it makes
at most the output directory and the directories above it that are missing.
-/
import Registrar.Proofs.Emission.File
import Registrar.Proofs.FileSystem.Opening
import Registrar.Proofs.FileSystem.Replacement
import Registrar.Proofs.Run.Stages

namespace Registrar

/-- Where there is nothing, no type is declared. -/
theorem Documentation.readDirectory_of_empty {fs : FileSystem} {dir : Path}
    (h : fs.listDirectory dir = .ok []) (tags : TagSettings) :
    (Documentation.readDirectory fs tags dir).run.result = .ok {} := by
  have hnames : Documentation.documentNames fs dir [] = [] := List.mergeSort_nil
  unfold Documentation.readDirectory
  rw [h]
  dsimp only
  rw [hnames]
  rfl

namespace Generator

open Step FileSystem

variable {g : Generator} {fs : FileSystem}

/-- The same generator over the documents in a directory. -/
def withDocuments (g : Generator) (dir : Path) : Generator :=
  { g with producer := .prebuilt dir }

/-! ## The text of the generated file -/

/-- The templates that the settings ask for, as they are in a file system. -/
def templatesIn (g : Generator) (fs : FileSystem) : Except RunError TemplateSet :=
  match g.settings.templateDir with
  | none => .ok {}
  | some dir => (TemplateSet.load fs dir).run.result.mapError .template

/-- The text that the documents in a directory give for an output directory. -/
def textFrom (g : Generator) (fs : FileSystem) (dir output : Path) (templates : TemplateSet) :
    Except RunError String :=
  match (Documentation.readDirectory fs g.settings.tags dir).run.result with
  | .error e => .error (.ingest e)
  | .ok m =>
    let classified := (m.link.classify g.settings.bases).result
    match classified.failure with
    | some e => .error (.classify e)
    | none =>
      let plan := (Plan.make classified.model g.settings).result
      let emitter : Emitter :=
        { templates := templates, outputDir := output, outerNamespace := g.outerNamespace }
      (emitter.emit classified.model plan).run.result.mapError .template

/-- With the built-in templates there is a text also for a directory without documents. -/
theorem exists_textFrom_of_empty (g : Generator) {dir : Path} (h : fs.listDirectory dir = .ok [])
    (output : Path) : ∃ code, g.textFrom fs dir output {} = .ok code := by
  have hlink : ({} : Model).link = {} := by
    show Model.markPending {} [] = {}
    rw [Model.markPending]
  have hclassify : (({} : Model).classify g.settings.bases).result = ⟨{}, none⟩ := rfl
  unfold textFrom
  rw [Documentation.readDirectory_of_empty h]
  dsimp only
  rw [hlink, hclassify]
  dsimp only
  rw [Emitter.emit_builtin rfl (fun d hd => absurd hd (by simp))]
  exact ⟨_, rfl⟩

theorem fst_on_templates (g : Generator) (fs : FileSystem) :
    (g.templates.on fs).1 = g.templatesIn fs := by
  unfold templates templatesIn
  cases g.settings.templateDir with
  | none => rfl
  | some dir => rfl

/-- Over documents that are there already, the text is composed from what is in the file system, and
nothing is done to it. -/
theorem on_compose_prebuilt (g : Generator) (dir input output scratch : Path)
    (templates : TemplateSet) (fs : FileSystem) :
    ∃ report : String → Report,
      ((g.withDocuments dir).compose input output scratch templates).on fs =
        ((g.textFrom fs dir output templates).map fun code => (code, report code), fs) := by
  have hproduce : ((Producer.prebuilt dir).produce input scratch g.settings).on fs =
    (.ok dir, fs) := rfl
  unfold compose textFrom withDocuments
  dsimp only
  rw [on_bind, on_phase, hproduce]
  dsimp only
  rw [on_bind, on_say]
  dsimp only
  rw [on_bind, on_phase, on_bind, on_get]
  dsimp only
  rw [on_ofLogged]
  cases (Documentation.readDirectory fs g.settings.tags dir).run.result with
  | error e => exact ⟨fun _ => { output := output }, rfl⟩
  | ok m =>
    dsimp only [Except.mapError]
    rw [on_bind, on_phase, on_pure]
    dsimp only
    rw [on_bind, on_phase, on_classifyStep]
    cases (m.link.classify g.settings.bases).result.failure with
    | some e => exact ⟨fun _ => { output := output }, rfl⟩
    | none =>
      dsimp only
      rw [on_bind, on_lift_logged]
      dsimp only
      rw [on_bind, on_say]
      dsimp only
      rw [on_phase, on_ofLogged]
      cases (Emitter.emit _ _ _).run.result with
      | error e => exact ⟨fun _ => { output := output }, rfl⟩
      | ok code => exact ⟨fun _ => _, rfl⟩

/-- The text, if there is one, is put in its place. -/
theorem on_generate_prebuilt (g : Generator) (dir input output scratch : Path)
    (templates : TemplateSet) (fs : FileSystem) :
    ∃ report : String → Report,
      ((g.withDocuments dir).generate input output scratch templates).on fs =
        match g.textFrom fs dir output templates with
        | .error e => (.error e, fs)
        | .ok code =>
          match fs.replaceFile (output / g.settings.outputFileName) code.toUTF8 with
          | .ok fs' => (.ok (report code), fs')
          | .error _ => (.error (.write (output / g.settings.outputFileName)), fs) := by
  obtain ⟨report, hcompose⟩ := on_compose_prebuilt g dir input output scratch templates fs
  refine ⟨report, ?_⟩
  rw [on_generate, hcompose]
  cases g.textFrom fs dir output templates with
  | error e => rfl
  | ok code =>
    cases hreplace : fs.replaceFile (output / g.settings.outputFileName) code.toUTF8 <;>
      simp only [Except.map, withDocuments, hreplace]

/-! ## The output directory -/

theorem on_prepare (h : g.producer.usesScratch = false) (fs : FileSystem) :
    g.prepare.on fs =
      match g.templatesIn fs, whole? fs g.input, whole? fs g.output with
      | .error e, _, _ => (.error e, fs)
      | .ok _, none, _ => (.error (.resolve g.input), fs)
      | .ok _, some _, none => (.error (.resolve g.output), fs)
      | .ok templates, some input, some output =>
        match fs.createDirectories output with
        | (fs', .ok ()) => (.ok (templates, input, output), fs')
        | (fs', .error _) => (.error (.createDirectory output), fs') := by
  unfold prepare
  simp only [h, Bool.false_eq_true, if_false]
  rw [g.templates_isQuiet.on_bind, fst_on_templates]
  cases g.templatesIn fs with
  | error e => rfl
  | ok templates =>
    dsimp only
    rw [on_bind, on_resolve]
    cases whole? fs g.input with
    | none => rfl
    | some input =>
      dsimp only
      rw [on_bind, on_resolve]
      cases whole? fs g.output with
      | none => rfl
      | some output =>
        dsimp only
        rw [on_bind, on_createDirectory]
        rcases fs.createDirectories output with ⟨fs', e | u⟩ <;> rfl

/-- A run without a scratch directory makes the output directory and those above it that are
missing, and nothing else, before it has its documents produced. -/
theorem opening_opens (h : g.producer.usesScratch = false) (fs : FileSystem) :
    Opens (g.outputDir fs) fs (g.opening fs) := by
  unfold opening
  rw [on_prepare h]
  split
  case h_4 output _ _ houtput =>
    obtain rfl : g.outputDir fs = output := congrArg (Option.getD · g.output) houtput
    have hopens := createDirectories_opens fs (g.outputDir fs)
    rcases hmade : fs.createDirectories (g.outputDir fs) with ⟨fs', e | u⟩ <;>
      rwa [hmade] at hopens
  all_goals exact Opens.refl _ fs

/-- When its documents are produced, the templates are there, and so is the output directory. -/
theorem of_prepare (h : g.producer.usesScratch = false) {fs' : FileSystem}
    {templates : TemplateSet} {input output : Path}
    (hready : g.prepare.on fs = (.ok (templates, input, output), fs')) :
    g.templatesIn fs = .ok templates ∧ fs'.isDirectory output = true := by
  rw [on_prepare h] at hready
  split at hready
  case h_4 _ output' htemplates _ houtput =>
    rcases hmade : fs.createDirectories output' with ⟨fs₁, e | u⟩ <;> rw [hmade] at hready
    · exact absurd (Prod.mk.inj hready).1 (by simp)
    · obtain ⟨hanswer, rfl⟩ := Prod.mk.inj hready
      obtain ⟨rfl, hpaths⟩ := Prod.mk.inj (Except.ok.inj hanswer)
      obtain ⟨-, rfl⟩ := Prod.mk.inj hpaths
      refine ⟨htemplates, isDirectory_of_createBelow ?_ hmade⟩
      rw [Path.components, if_pos (isAbsolute_of_whole? houtput)]
      simp
  all_goals exact absurd (Prod.mk.inj hready).1 (by simp)

/-! ## All or nothing -/

/-- What is left of a run over the documents in a directory.  A run that finds the generated file
current does nothing, and one that fails has made directories at most.  One that generates has put
the text, read from what was there once the output directory was open, at the place that the path of
the file names.  It is read under this path unless the way to the directory of the file leads
through the file itself. -/
def IsAllOrNothing (g : Generator) (dir : Path) (force : Bool) (fs : FileSystem) : Prop :=
  match ((g.withDocuments dir).run force).on fs with
  | (.ok .upToDate, fs') => fs' = fs
  | (.error _, fs') => Opens (g.outputDir fs) fs fs'
  | (.ok (.generated _), fs') =>
    ∃ templates opened code above name,
      g.templatesIn fs = .ok templates ∧
      Opens (g.outputDir fs) fs opened ∧ opened.isDirectory (g.outputDir fs) = true ∧
      g.textFrom opened dir (g.outputDir fs) templates = .ok code ∧
      PutsFile opened (g.targetPath fs) code.toUTF8 above name fs' ∧
      (fs'.contents? (g.targetPath fs) = some code.toUTF8 ↔
        ∀ q ∈ opened.slotPlaces (g.targetPath fs), ¬ above ++ [name] <+: q)

/-- A run over documents that are there already is all or nothing. -/
theorem isAllOrNothing_prebuilt (g : Generator) (dir : Path) (force : Bool) (fs : FileSystem) :
    g.IsAllOrNothing dir force fs := by
  unfold IsAllOrNothing
  have hscratch : (g.withDocuments dir).producer.usesScratch = false := rfl
  have hopens := opening_opens hscratch fs
  have hregenerate := on_regenerate (g.withDocuments dir) fs
  unfold opening at hopens
  rcases on_run (g.withDocuments dir) force fs with hrun | hrun <;> rw [hrun]
  rcases hprepare : (g.withDocuments dir).prepare.on fs with
    ⟨e | ⟨templates, input, output⟩, opened⟩ <;> rw [hprepare] at hopens hregenerate
  · rw [hregenerate]
    exact hopens
  · obtain ⟨htemplates, hdir⟩ := of_prepare hscratch hprepare
    obtain ⟨houtput, habsolute⟩ := outputDir_of_prepare hprepare
    obtain rfl : g.outputDir fs = output := houtput
    have htarget : (g.targetPath fs).isAbsolute = true := Path.isAbsolute_div habsolute _
    obtain ⟨report, hgenerate⟩ := on_generate_prebuilt g dir input (g.outputDir fs)
      (g.scratchPath fs) templates opened
    replace hregenerate : (g.withDocuments dir).regenerate.on fs =
        ((g.withDocuments dir).generate input (g.outputDir fs) (g.scratchPath fs) templates).on
          opened := hregenerate
    rw [hregenerate, hgenerate]
    -- nothing was touched but the output directory until the text is put in its place
    cases htext : g.textFrom opened dir (g.outputDir fs) templates with
    | error e => exact hopens
    | ok code =>
      dsimp only
      cases hreplace : opened.replaceFile (g.outputDir fs / g.settings.outputFileName)
        code.toUTF8 with
      | error e => exact hopens
      | ok fs' =>
        obtain ⟨above, name, hputs⟩ := replaceFile_puts htarget hreplace
        exact ⟨templates, opened, code, above, name, htemplates, hopens, hdir, htext, hputs,
          hputs.contents?_iff htarget⟩

/-- An output directory with a link to itself. -/
def loopedTree : FileSystem where
  root := .directory 0 true
    [("ast", .directory 0 true []), ("out", .directory 0 true [("l", .link 0 ".")])]
  workingDirectory := []
  clock := 0

/-- A generator whose file lies behind this link and takes its place. -/
def looped : Generator where
  input := ⟨"/in"⟩
  output := ⟨"/out"⟩
  outerNamespace := "n"
  settings := { outputFileName := "l/l" }

theorem writeFile_loopedTree (contents : ByteArray) :
    loopedTree.writeFile ⟨"/out/l/.tmp000000"⟩ contents =
      .ok (loopedTree.setEntry ["out", ".tmp000000"] (some (.file 1 false contents))) := by
  unfold writeFile
  rw [fileSlot]
  rfl

/-- A file that takes the place of the link on the way to it is not found under its path. -/
theorem replaceFile_loopedTree (contents : ByteArray) :
    ∃ fs', loopedTree.replaceFile ⟨"/out/l/l"⟩ contents = .ok fs' ∧
      fs'.contents? ⟨"/out/l/l"⟩ = none ∧ fs'.modified ⟨"/out/l/l"⟩ = .error .notADirectory ∧
      fs'.entry? ["ast"] = some (.directory 0 true []) ∧
      fs'.locate true ⟨"/ast"⟩ = .ok ["ast"] := by
  show ∃ fs', (loopedTree.writeFile ⟨"/out/l/.tmp000000"⟩ contents >>=
    fun written => written.rename ⟨"/out/l/.tmp000000"⟩ ⟨"/out/l/l"⟩) = .ok fs' ∧ _
  rw [writeFile_loopedTree]
  exact ⟨_, rfl, rfl, rfl, rfl, rfl⟩

/-- A run may generate the file and leave nothing to read under its path: the way to its directory
led through the link that it replaced. -/
theorem generated_unreadable :
    ∃ report code fs',
      ((looped.withDocuments ⟨"/ast"⟩).run true).on loopedTree = (.ok (.generated report), fs') ∧
      looped.textFrom loopedTree ⟨"/ast"⟩ ⟨"/out"⟩ {} = .ok code ∧
      fs'.contents? ⟨"/out/l/l"⟩ = none := by
  obtain ⟨code, hcode⟩ := looped.exists_textFrom_of_empty
    (rfl : loopedTree.listDirectory ⟨"/ast"⟩ = .ok []) ⟨"/out"⟩
  obtain ⟨fs', hreplace, hcontents, -⟩ := replaceFile_loopedTree code.toUTF8
  have htarget : (⟨"/out"⟩ : Path) / looped.settings.outputFileName = ⟨"/out/l/l"⟩ := rfl
  obtain ⟨report, hgenerate⟩ := on_generate_prebuilt looped ⟨"/ast"⟩ ⟨"/in"⟩ ⟨"/out"⟩
    ((⟨"/out"⟩ : Path) / looped.settings.scratchDirName) {} loopedTree
  rw [hcode, htarget] at hgenerate
  dsimp only at hgenerate
  rw [hreplace] at hgenerate
  refine ⟨report code, code, fs', ?_, hcode, hcontents⟩
  have hregenerate : (looped.withDocuments ⟨"/ast"⟩).regenerate.on loopedTree =
      (.ok (report code), fs') :=
    (on_regenerate (looped.withDocuments ⟨"/ast"⟩) loopedTree).trans hgenerate
  rw [on_run_true, hregenerate]
  rfl

end Generator

end Registrar
