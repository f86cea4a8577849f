/-
# The stages of a run

A run prepares the directories, composes the text of the generated file, puts it in its place and
takes the scratch directory away.  Between the directories and the text only the producer changes
anything.
-/
import Registrar.Proofs.FileSystem.Opening
import Registrar.Proofs.Path.Absolute
import Registrar.Proofs.Run.Step
import Registrar.Run.Generator

namespace Registrar

namespace Path

/-- The path of a location is an absolute one. -/
theorem isAbsolute_pathOf (location : FileSystem.Location) :
    (FileSystem.pathOf location).isAbsolute = true := by
  unfold FileSystem.pathOf isAbsolute
  simp

end Path

namespace Generator

open Step FileSystem

/-! ## Paths as seen from the root -/

/-- A path as seen from the root, if it can be. -/
def whole? (fs : FileSystem) (p : Path) : Option Path :=
  match fs.workingPath? with
  | some base => Path.absolute? base p
  | none => if p.isAbsolute then Path.absolute? ⟨"/"⟩ p else none

/-- A path is made whole, or the run fails with it, and the file system stays as it is. -/
theorem on_resolve (p : Path) (fs : FileSystem) :
    (resolve p).on fs =
      (match whole? fs p with
        | some q => .ok q
        | none => .error (.resolve p), fs) := by
  unfold resolve whole?
  rw [on_bind, on_get]
  dsimp only
  cases fs.workingPath? with
  | some base => cases hq : Path.absolute? base p <;> simp [hq]
  | none =>
    cases p.isAbsolute with
    | true => cases hq : Path.absolute? ⟨"/"⟩ p <;> simp
    | false => rfl

/-- Making a path whole changes nothing. -/
theorem resolve_isQuiet (p : Path) : IsQuiet (resolve p) := by
  intro fs
  rw [on_resolve]

/-- A path that is made whole is absolute. -/
theorem isAbsolute_of_whole? {fs : FileSystem} {p q : Path} (h : whole? fs p = some q) :
    q.isAbsolute = true := by
  unfold whole? at h
  cases hbase : fs.workingPath? with
  | some base =>
    rw [hbase] at h
    unfold workingPath? at hbase
    split at hbase
    · rw [← Option.some.inj hbase] at h
      exact Path.isAbsolute_of_absolute? (Path.isAbsolute_pathOf _) h
    · exact absurd hbase (by simp)
  | none =>
    rw [hbase] at h
    simp only at h
    split at h
    · exact Path.isAbsolute_of_absolute? rfl h
    · exact absurd h (by simp)

/-- The output directory as seen from the root, as far as it can be. -/
def outputDir (g : Generator) (fs : FileSystem) : Path :=
  (whole? fs g.output).getD g.output

/-- The path under which the text is put. -/
def targetPath (g : Generator) (fs : FileSystem) : Path :=
  g.outputDir fs / g.settings.outputFileName

/-- The path of the directory that is made for the producer and removed again. -/
def scratchPath (g : Generator) (fs : FileSystem) : Path :=
  g.outputDir fs / g.settings.scratchDirName

/-! ## The stages -/

/-- Makes the directories of a run, and says where its headers and its output are. -/
def prepare (g : Generator) : Step (TemplateSet × Path × Path) := do
  let templates ← g.templates
  let input ← resolve g.input
  let output ← resolve g.output
  createDirectory output
  if g.producer.usesScratch then createDirectory (output / g.settings.scratchDirName)
  pure (templates, input, output)

/-- Has the documents produced and composes the text of the generated file from them. -/
def compose (g : Generator) (input output scratch : Path) (templates : TemplateSet) :
    Step (String × Report) := do
  let target := output / g.settings.outputFileName
  let (ast, report) ← phase { output := target } "produce"
    (g.producer.produce input scratch g.settings)
  Step.say .info "Parsing AST..."
  let (m, report) ← phase report "ingest" do
    Step.ofLogged .ingest (Documentation.readDirectory (← get) g.settings.tags ast)
  let (m, report) ← phase report "link" (pure m.link)
  let (m, report) ← phase report "classify" (classifyStep m g.settings.bases)
  let plan ← ExceptT.lift (StateT.lift (Plan.make m g.settings))
  let report := report.recordPlan m.size plan
  Step.say .info "Generating reflection code..."
  let emitter : Emitter :=
    { templates := templates, outputDir := output, outerNamespace := g.outerNamespace }
  phase report "emit" (Step.ofLogged .template (emitter.emit m plan))

/-- A file is generated by composing its text and putting it in its place. -/
theorem generate_eq (g : Generator) (input output scratch : Path) (templates : TemplateSet) :
    g.generate input output scratch templates = (do
      let (code, report) ← g.compose input output scratch templates
      let target := output / g.settings.outputFileName
      Step.change (.write target) fun fs => fs.replaceFile target code.toUTF8
      pure report) := by
  unfold generate compose
  simp only [bind_assoc]

/-- A run prepares the directories, generates the file, and takes the scratch directory away
whether or not that succeeded, if the producer needs one. -/
theorem regenerate_eq (g : Generator) :
    g.regenerate = (do
      let (templates, input, output) ← g.prepare
      let scratch := output / g.settings.scratchDirName
      let outcome ← ExceptT.lift (g.generate input output scratch templates).run
      if g.producer.usesScratch then ExceptT.lift (removeScratch scratch)
      let report ← ExceptT.mk (pure outcome)
      ExceptT.lift (StateT.lift report.announce)
      pure report) := by
  unfold regenerate prepare
  cases g.producer.usesScratch <;> simp only [bind_assoc, if_true, if_false, pure_bind,
    Bool.false_eq_true]

/-- The stages up to the text, which is given with the report. -/
def draft (g : Generator) : Step (String × Report) := do
  let (templates, input, output) ← g.prepare
  g.compose input output (output / g.settings.scratchDirName) templates

/-- The stages up to the moment at which the scratch directory is taken away. -/
def attempt (g : Generator) : Step Report := do
  let (templates, input, output) ← g.prepare
  g.generate input output (output / g.settings.scratchDirName) templates

/-- The file system in which the producer starts. -/
def opening (g : Generator) (fs : FileSystem) : FileSystem :=
  (g.prepare.on fs).2

/-- The file system from which the scratch directory is taken away. -/
def closing (g : Generator) (fs : FileSystem) : FileSystem :=
  (g.attempt.on fs).2

/-! ## What the stages do to the file system -/

/-- Reading the templates changes nothing. -/
theorem templates_isQuiet (g : Generator) : IsQuiet g.templates := by
  unfold templates
  cases g.settings.templateDir with
  | none => exact fun fs => rfl
  | some dir =>
    refine IsQuiet.bind (fun fs => rfl) fun fs' => ?_
    exact fun fs => rfl

/-- A directory is made with those above it, or the run fails with its path. -/
theorem on_createDirectory (p : Path) (fs : FileSystem) :
    (createDirectory p).on fs =
      match fs.createDirectories p with
      | (fs', .ok ()) => (.ok (), fs')
      | (fs', .error _) => (.error (.createDirectory p), fs') := by
  unfold createDirectory
  rw [on_bind, on_get]
  simp only
  rcases fs.createDirectories p with ⟨fs', e | u⟩ <;> rfl

/-- What is made on the way stays, also if the directory cannot be made. -/
theorem snd_on_createDirectory (p : Path) (fs : FileSystem) :
    ((createDirectory p).on fs).2 = (fs.createDirectories p).1 := by
  rw [on_createDirectory]
  rcases fs.createDirectories p with ⟨fs', e | u⟩ <;> rfl

/-- Making a directory adds directories and does nothing else. -/
theorem createDirectory_growsTo (p : Path) : Keeps GrowsTo (createDirectory p) := by
  intro fs
  rw [snd_on_createDirectory]
  exact createDirectories_growsTo fs p

/-- A phase answers what is answered in it, with its time in the report. -/
theorem on_phase {α : Type} (r : Report) (name : String) (x : Step α) (fs : FileSystem) :
    (phase r name x).on fs =
      match x.on fs with
      | (.ok a, fs') => (.ok (a, r.timePhase name (fs'.clock - fs.clock).toNat), fs')
      | (.error e, fs') => (.error e, fs') := by
  unfold phase
  rw [on_bind, on_get]
  dsimp only
  rw [on_bind]
  rcases x.on fs with ⟨e | a, fs'⟩ <;> rfl

/-- A phase does what is done in it. -/
theorem snd_on_phase {α : Type} (r : Report) (name : String) (x : Step α) (fs : FileSystem) :
    ((phase r name x).on fs).2 = (x.on fs).2 := by
  rw [on_phase]
  rcases x.on fs with ⟨e | a, fs'⟩ <;> rfl

/-- Timing a step that changes nothing changes nothing. -/
theorem phase_isQuiet {α : Type} {x : Step α} (hx : IsQuiet x) (r : Report) (name : String) :
    IsQuiet (phase r name x) := by
  intro fs
  rw [snd_on_phase]
  exact hx fs

/-- Classification answers with the model, or fails with the first failure. -/
theorem on_classifyStep (m : Model) (bases : BaseSettings) (fs : FileSystem) :
    (classifyStep m bases).on fs =
      (match (m.classify bases).result.failure with
        | none => .ok (m.classify bases).result.model
        | some e => .error (.classify e), fs) := by
  unfold classifyStep
  rw [on_bind, on_lift]
  show on (match (m.classify bases).result.failure with
    | none => pure (m.classify bases).result.model
    | some e => throw (.classify e)) fs = _
  cases (m.classify bases).result.failure <;> rfl

/-- Classification changes nothing in the file system. -/
theorem classifyStep_isQuiet (m : Model) (bases : BaseSettings) :
    IsQuiet (classifyStep m bases) := by
  intro fs
  rw [on_classifyStep]

/-- Nothing but the producer changes the file system while the text is composed. -/
theorem snd_on_compose (g : Generator) (input output scratch : Path) (templates : TemplateSet)
    (fs : FileSystem) :
    ((g.compose input output scratch templates).on fs).2 =
      ((g.producer.produce input scratch g.settings).on fs).2 := by
  unfold compose
  dsimp only
  -- every step behind the producer is quiet, whatever it is given
  refine (snd_on_bind ?_ fs).trans (snd_on_phase _ _ _ fs)
  rintro ⟨ast, report⟩
  refine IsQuiet.bind (fun fs => rfl) fun _ => ?_
  refine IsQuiet.bind (phase_isQuiet (IsQuiet.bind (fun fs => rfl) fun _ fs => rfl) _ _) ?_
  rintro ⟨m, report⟩
  refine IsQuiet.bind (phase_isQuiet (fun fs => rfl) _ _) ?_
  rintro ⟨m, report⟩
  refine IsQuiet.bind (phase_isQuiet (classifyStep_isQuiet _ _) _ _) ?_
  rintro ⟨m, report⟩
  refine IsQuiet.bind (fun fs => rfl) fun plan => ?_
  refine IsQuiet.bind (fun fs => rfl) fun _ => ?_
  exact phase_isQuiet (fun fs => rfl) _ _

/-- Either a run fails before it has made a directory, or it knows the output directory and does
nothing but make directories.  If it fails, then some of them may be there already. -/
theorem prepare_cases (g : Generator) (fs : FileSystem) :
    (∃ e, g.prepare.on fs = (.error e, fs)) ∨
      ∃ output, whole? fs g.output = some output ∧ GrowsTo fs (g.prepare.on fs).2 ∧
        ∀ templates input output' fs', g.prepare.on fs = (.ok (templates, input, output'), fs') →
          output' = output := by
  unfold prepare
  rw [g.templates_isQuiet.on_bind]
  rcases (g.templates.on fs).1 with e | templates
  · exact Or.inl ⟨e, rfl⟩
  · simp only
    rw [(resolve_isQuiet g.input).on_bind]
    rcases ((resolve g.input).on fs).1 with e | input
    · exact Or.inl ⟨e, rfl⟩
    · simp only
      rw [(resolve_isQuiet g.output).on_bind, on_resolve]
      rcases whole? fs g.output with _ | output
      · exact Or.inl ⟨_, rfl⟩
      · -- up to here nothing was done, and from here on directories are made
        refine Or.inr ⟨output, rfl, ?_, ?_⟩
        · refine Keeps.bind (r := GrowsTo) GrowsTo.trans (createDirectory_growsTo output)
            (fun _ => ?_) fs
          split
          · refine Keeps.bind (r := GrowsTo) GrowsTo.trans (createDirectory_growsTo _) fun _ => ?_
            exact IsQuiet.keeps GrowsTo.refl fun fs => rfl
          · exact IsQuiet.keeps GrowsTo.refl fun fs => rfl
        · intro templates' input' output' fs' h
          obtain ⟨_, fs₁, -, h⟩ := on_bind_eq_ok.1 h
          split at h
          · obtain ⟨_, fs₂, -, h⟩ := on_bind_eq_ok.1 h
            rw [on_pure] at h
            simp_all
          · rw [on_pure] at h
            simp_all

/-- A run that comes to its producer has found the output directory. -/
theorem whole?_of_prepare {g : Generator} {fs fs' : FileSystem} {templates : TemplateSet}
    {input output : Path} (h : g.prepare.on fs = (.ok (templates, input, output), fs')) :
    whole? fs g.output = some output := by
  rcases prepare_cases g fs with ⟨e, he⟩ | ⟨output', houtput, -, hanswer⟩
  · rw [h] at he
    exact absurd (congrArg Prod.fst he) (by simp)
  · obtain rfl := hanswer templates input output fs' h
    exact houtput

/-- Once the run is prepared, the output directory is known by its absolute path. -/
theorem outputDir_of_prepare {g : Generator} {fs fs' : FileSystem} {templates : TemplateSet}
    {input output : Path} (h : g.prepare.on fs = (.ok (templates, input, output), fs')) :
    g.outputDir fs = output ∧ output.isAbsolute = true := by
  have hwhole := whole?_of_prepare h
  rw [outputDir, hwhole]
  exact ⟨rfl, isAbsolute_of_whole? hwhole⟩

/-! ## What a run does -/

/-- The text that is composed is put in the place of the file, or the run fails with its path. -/
theorem on_generate (g : Generator) (input output scratch : Path) (templates : TemplateSet)
    (fs : FileSystem) :
    (g.generate input output scratch templates).on fs =
      match (g.compose input output scratch templates).on fs with
      | (.error e, fs') => (.error e, fs')
      | (.ok (code, report), fs') =>
        match fs'.replaceFile (output / g.settings.outputFileName) code.toUTF8 with
        | .ok fs'' => (.ok report, fs'')
        | .error _ => (.error (.write (output / g.settings.outputFileName)), fs') := by
  rw [generate_eq, on_bind]
  rcases (g.compose input output scratch templates).on fs with ⟨e | ⟨code, report⟩, fs'⟩
  · rfl
  · dsimp only
    rw [on_bind, on_change]
    cases fs'.replaceFile (output / g.settings.outputFileName) code.toUTF8 <;> rfl

/-- The scratch directory is removed as far as that succeeds. -/
theorem snd_removeScratch (scratch : Path) (fs : FileSystem) :
    ((removeScratch scratch).run fs).result.2 = (fs.removeTree scratch).1 := by
  unfold removeScratch
  rw [StateT.run_bind, StateT.run_get, pure_bind]
  rcases fs.removeTree scratch with ⟨fs', e | u⟩ <;> rfl

/-- A scratch directory that is needed is taken away whatever has become of the generation. -/
theorem on_regenerate (g : Generator) (fs : FileSystem) :
    g.regenerate.on fs =
      match g.prepare.on fs with
      | (.error e, fs') => (.error e, fs')
      | (.ok (templates, input, output), fs') =>
        let scratch := output / g.settings.scratchDirName
        let ended := (g.generate input output scratch templates).on fs'
        (ended.1, if g.producer.usesScratch then (ended.2.removeTree scratch).1 else ended.2) := by
  -- in the end the outcome is announced and passed on, and nothing is done to the file system
  have hend : ∀ (outcome : Except RunError Report) (fs' : FileSystem),
      on (do
        let report ← ExceptT.mk (pure outcome)
        ExceptT.lift (StateT.lift report.announce)
        pure report) fs' = (outcome, fs') := by
    intro outcome fs'
    rw [on_bind]
    cases outcome <;> rfl
  rw [regenerate_eq g, on_bind]
  rcases g.prepare.on fs with ⟨e | ⟨templates, input, output⟩, fs'⟩
  · rfl
  · dsimp only
    rw [on_bind, on_lift]
    dsimp only
    cases g.producer.usesScratch with
    | true =>
      rw [if_pos rfl, if_pos rfl, on_bind, on_lift]
      dsimp only
      rw [snd_removeScratch]
      exact hend _ _
    | false =>
      rw [if_neg Bool.false_ne_true, if_neg Bool.false_ne_true]
      exact hend _ _

/-- How a run that needs a scratch directory goes, with what it answers and what it leaves. -/
inductive Course (g : Generator) (fs : FileSystem) : Except RunError Outcome → FileSystem → Prop
  | current : Course g fs (.ok .upToDate) fs
  /-- Nothing was produced, and the directories that were made stay. -/
  | unprepared (e : RunError) (hprepare : g.prepare.on fs = (.error e, g.opening fs))
      (hclosing : g.closing fs = g.opening fs) : Course g fs (.error e) (g.opening fs)
  /-- There is no text, or it could not be put in its place. -/
  | failed (e : RunError) (hprepare : ∃ ready, g.prepare.on fs = (.ok ready, g.opening fs))
      (hdraft : (g.draft.on fs).2 = g.closing fs) :
      Course g fs (.error e) ((g.closing fs).removeTree (g.scratchPath fs)).1
  | generated (code : String) (report : Report) (fs' : FileSystem)
      (hprepare : ∃ ready, g.prepare.on fs = (.ok ready, g.opening fs))
      (hdraft : g.draft.on fs = (.ok (code, report), fs'))
      (hreplace : fs'.replaceFile (g.targetPath fs) code.toUTF8 = .ok (g.closing fs)) :
      Course g fs (.ok (.generated report)) ((g.closing fs).removeTree (g.scratchPath fs)).1

/-- What a run does that needs a scratch directory and generates the file is one of its courses. -/
theorem course_regenerate (g : Generator) (h : g.producer.usesScratch = true) (fs : FileSystem) :
    g.Course fs ((g.regenerate.on fs).1.map .generated) (g.regenerate.on fs).2 := by
  have hrun := on_regenerate g fs
  simp only [h, if_true] at hrun
  have hattempt : g.attempt.on fs = _ := on_bind _ _ fs
  have hdraft : g.draft.on fs = _ := on_bind _ _ fs
  -- the four ways part at the first stage that fails
  rcases hprepare : g.prepare.on fs with ⟨e | ⟨templates, input, output⟩, fs₁⟩
  · have hopening : g.opening fs = fs₁ := congrArg Prod.snd hprepare
    have hclosing : g.closing fs = fs₁ := by
      rw [hprepare] at hattempt
      exact congrArg Prod.snd hattempt
    rw [hprepare] at hrun
    rw [hrun, ← hopening]
    exact .unprepared e (hopening ▸ hprepare) (hclosing.trans hopening.symm)
  · have hopening : g.opening fs = fs₁ := congrArg Prod.snd hprepare
    have houtput : g.outputDir fs = output := (outputDir_of_prepare hprepare).1
    have hready : ∃ ready, g.prepare.on fs = (.ok ready, g.opening fs) := ⟨_, hopening ▸ hprepare⟩
    rw [hprepare] at hrun hattempt hdraft
    dsimp only at hrun hattempt hdraft
    rw [← houtput] at hrun hattempt hdraft
    rw [on_generate, ← hdraft] at hattempt hrun
    rcases hcompose : g.draft.on fs with ⟨e | ⟨code, report⟩, fs₂⟩ <;>
      rw [hcompose] at hattempt hrun
    · have hclosing : g.closing fs = fs₂ := congrArg Prod.snd hattempt
      rw [hrun, ← hclosing]
      exact .failed e hready (by rw [hcompose, hclosing])
    · dsimp only at hattempt hrun
      cases hreplace : fs₂.replaceFile (g.outputDir fs / g.settings.outputFileName) code.toUTF8 with
      | error io =>
        rw [hreplace] at hattempt hrun
        have hclosing : g.closing fs = fs₂ := congrArg Prod.snd hattempt
        rw [hrun, ← hclosing]
        exact .failed _ hready (by rw [hcompose, hclosing])
      | ok fs₃ =>
        rw [hreplace] at hattempt hrun
        have hclosing : g.closing fs = fs₃ := congrArg Prod.snd hattempt
        rw [hrun, ← hclosing]
        exact .generated code report fs₂ hready hcompose (hclosing ▸ hreplace)

/-- A run that is forced regenerates the file. -/
theorem on_run_true (g : Generator) (fs : FileSystem) :
    (g.run true).on fs = ((g.regenerate.on fs).1.map .generated, (g.regenerate.on fs).2) := by
  show on (g.regenerate >>= fun report => pure (Outcome.generated report)) fs = _
  rw [on_bind]
  rcases g.regenerate.on fs with ⟨e | report, fs'⟩ <;> rfl

/-- A run that is not forced regenerates the file unless it is current. -/
theorem on_run_false (g : Generator) (fs : FileSystem) :
    (g.run false).on fs =
      if (g.isUpToDate fs).result then (.ok .upToDate, fs)
      else ((g.regenerate.on fs).1.map .generated, (g.regenerate.on fs).2) := by
  unfold run
  dsimp only
  rw [if_neg (by simp), on_bind, on_get]
  dsimp only
  rw [on_bind, on_lift]
  cases hcurrent : (g.isUpToDate fs).result with
  | true => exact congrArg (on · fs) (if_pos hcurrent)
  | false =>
    have hstale : ¬ (g.isUpToDate fs).result = true := by simp [hcurrent]
    exact (congrArg (on · fs) (if_neg hstale)).trans (on_run_true g fs)

/-- A run keeps the file and changes nothing, or it generates the file. -/
theorem on_run (g : Generator) (force : Bool) (fs : FileSystem) :
    (g.run force).on fs = (.ok .upToDate, fs) ∨
      (g.run force).on fs =
        ((g.regenerate.on fs).1.map .generated, (g.regenerate.on fs).2) := by
  cases force with
  | true => exact Or.inr (on_run_true g fs)
  | false =>
    rw [on_run_false]
    split
    · exact Or.inl rfl
    · exact Or.inr rfl

/-- Every run goes in one of four ways. -/
theorem course_run (g : Generator) (h : g.producer.usesScratch = true) (force : Bool)
    (fs : FileSystem) :
    g.Course fs ((g.run force).on fs).1 ((g.run force).on fs).2 := by
  rcases on_run g force fs with hrun | hrun <;> rw [hrun]
  · exact .current
  · exact course_regenerate g h fs

end Generator

end Registrar
