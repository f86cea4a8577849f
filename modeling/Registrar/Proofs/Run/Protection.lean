/-
# What a run does to its output

A run that fails should leave the generated file alone, and one that succeeds should leave the text
that it has emitted.  Both hold as long as the scratch directory keeps apart from the path of the
generated file.  If it does not, then removing it takes the generated file away.
-/
import Registrar.Proofs.FileSystem.Replacement
import Registrar.Proofs.Run.Stages

namespace Registrar.Generator

open Step FileSystem

variable {g : Generator} {force : Bool} {fs : FileSystem}

/-! ## What is promised, and when -/

/-- The producer of a run changes nothing but what is in the scratch directory that it is given. -/
def StaysInScratch (g : Generator) (fs : FileSystem) : Prop :=
  ∀ templates input output, (g.prepare.on fs).1 = .ok (templates, input, output) →
    AgreeOutside ((g.opening fs).Inside (output / g.settings.scratchDirName)) (g.opening fs)
      ((g.producer.produce input (output / g.settings.scratchDirName) g.settings).on
        (g.opening fs)).2

/-- A run that fails leaves under the output path what was there before, or nothing if nothing was
there, and a run that generates leaves the text that it has emitted. -/
def Protects (g : Generator) (force : Bool) (fs : FileSystem) : Prop :=
  match (g.run force).on fs with
  | (.ok .upToDate, fs') => fs' = fs
  | (.error _, fs') => fs'.leadsTo? (g.targetPath fs) = fs.leadsTo? (g.targetPath fs)
  | (.ok (.generated report), fs') =>
    ∃ code, (g.draft.on fs).1 = .ok (code, report) ∧
      fs'.contents? (g.targetPath fs) = some code.toUTF8

/-- A place of the scratch directory: the producer may change what is there, or it is taken away in
the end. -/
def IsScratch (g : Generator) (fs : FileSystem) (q : Location) : Prop :=
  (g.opening fs).Inside (g.scratchPath fs) q ∨ (g.closing fs).InTree (g.scratchPath fs) q

/-- The output path keeps apart from the scratch directory.  If the run fails, then also no entry
comes into reach by the directories that are made; if it generates, then the path does not go
through the file that it names. -/
def KeepsApart (g : Generator) (force : Bool) (fs : FileSystem) : Prop :=
  match ((g.run force).on fs).1 with
  | .ok .upToDate => True
  | .error _ =>
    (∀ q ∈ (g.opening fs).places true (g.targetPath fs), ¬ g.IsScratch fs q) ∧
      (fs.leadsTo? (g.targetPath fs) = none → (g.opening fs).leadsTo? (g.targetPath fs) = none)
  | .ok (.generated _) =>
    (∀ q ∈ (g.opening fs).places false (g.targetPath fs), ¬ g.IsScratch fs q) ∧
      ∀ above name hasSlash, (g.opening fs).slot (g.targetPath fs) =
          .ok (.name above name hasSlash) →
        ∀ q ∈ (g.opening fs).slotPlaces (g.targetPath fs), ¬ above ++ [name] <+: q

/-- The run fails, and the output path goes through the scratch directory, but led nowhere
before. -/
def HasNothingToLose (g : Generator) (force : Bool) (fs : FileSystem) : Prop :=
  match ((g.run force).on fs).1 with
  | .ok _ => False
  | .error _ =>
    fs.leadsTo? (g.targetPath fs) = none ∧
      ∃ q ∈ (g.opening fs).places true (g.targetPath fs), g.IsScratch fs q

/-- Nothing of the scratch directory is left after the run. -/
def Clears (g : Generator) (force : Bool) (fs : FileSystem) : Prop :=
  ∀ q, g.IsScratch fs q → ((g.run force).on fs).2.face? q = none

/-! ## The file systems of a run -/

/-- Once the run is prepared, the path of the output directory is absolute. -/
theorem isAbsolute_outputDir {ready : TemplateSet × Path × Path} {fs' : FileSystem}
    (h : g.prepare.on fs = (.ok ready, fs')) : (g.outputDir fs).isAbsolute = true := by
  obtain ⟨templates, input, output⟩ := ready
  obtain ⟨houtput, habsolute⟩ := outputDir_of_prepare h
  rw [houtput]
  exact habsolute

theorem isAbsolute_targetPath {ready : TemplateSet × Path × Path} {fs' : FileSystem}
    (h : g.prepare.on fs = (.ok ready, fs')) : (g.targetPath fs).isAbsolute = true :=
  Path.isAbsolute_div (isAbsolute_outputDir h) _

theorem isAbsolute_scratchPath {ready : TemplateSet × Path × Path} {fs' : FileSystem}
    (h : g.prepare.on fs = (.ok ready, fs')) : (g.scratchPath fs).isAbsolute = true :=
  Path.isAbsolute_div (isAbsolute_outputDir h) _

/-- What was under the output path is there still when the producer starts. -/
theorem leadsTo?_opening {a : Face} (h : fs.leadsTo? (g.targetPath fs) = some a) :
    (g.opening fs).leadsTo? (g.targetPath fs) = some a := by
  rcases prepare_cases g fs with ⟨e, he⟩ | ⟨output, houtput, hgrows, -⟩
  · rw [opening, he]
    exact h
  · have habsolute : (g.targetPath fs).isAbsolute = true := by
      rw [targetPath, outputDir, houtput]
      exact Path.isAbsolute_div (isAbsolute_of_whole? houtput) _
    refine GrowsTo.leadsTo?_eq_some hgrows ?_ h
    rw [start_of_isAbsolute _ habsolute, start_of_isAbsolute _ habsolute]

/-- While the text is composed, nothing changes but what is in the scratch directory. -/
theorem draft_agrees {ready : TemplateSet × Path × Path} (hstays : g.StaysInScratch fs)
    (h : g.prepare.on fs = (.ok ready, g.opening fs)) :
    AgreeOutside ((g.opening fs).Inside (g.scratchPath fs)) (g.opening fs) (g.draft.on fs).2 := by
  obtain ⟨templates, input, output⟩ := ready
  have houtput : g.outputDir fs = output := (outputDir_of_prepare h).1
  have hagree := hstays templates input output (congrArg Prod.fst h)
  have hdraft : (g.draft.on fs).2 = _ := congrArg Prod.snd (on_bind _ _ fs)
  rw [hdraft, h, scratchPath, houtput]
  dsimp only
  rw [snd_on_compose]
  exact hagree

/-- A run that fails after its producer has started changes nothing outside the scratch
directory. -/
theorem failed_agrees {ready : TemplateSet × Path × Path} (hstays : g.StaysInScratch fs)
    (h : g.prepare.on fs = (.ok ready, g.opening fs))
    (hdraft : (g.draft.on fs).2 = g.closing fs) :
    AgreeOutside (g.IsScratch fs) (g.opening fs)
      ((g.closing fs).removeTree (g.scratchPath fs)).1 := by
  have hcomposed := draft_agrees hstays h
  rw [hdraft] at hcomposed
  have hremoved := removeTree_agrees (g.closing fs) (isAbsolute_scratchPath h)
  exact (hcomposed.mono fun q hq => Or.inl hq).trans (hremoved.mono fun q hq => Or.inr hq)

/-! ## Where the scratch directory keeps apart -/

/-- What the path of the file leads to is as before the run if it is as when the producer starts. -/
theorem leadsTo?_eq_of_opening {after : FileSystem}
    (hopening : after.leadsTo? (g.targetPath fs) = (g.opening fs).leadsTo? (g.targetPath fs))
    (hreach : fs.leadsTo? (g.targetPath fs) = none →
      (g.opening fs).leadsTo? (g.targetPath fs) = none) :
    after.leadsTo? (g.targetPath fs) = fs.leadsTo? (g.targetPath fs) := by
  rw [hopening]
  cases hbefore : fs.leadsTo? (g.targetPath fs) with
  | none => exact hreach hbefore
  | some a => exact leadsTo?_opening hbefore

/-- The text that is put in its place is there after the scratch directory is gone. -/
theorem contents?_of_generated {ready : TemplateSet × Path × Path} {code : String}
    {fs' : FileSystem} (hstays : g.StaysInScratch fs)
    (hprepare : g.prepare.on fs = (.ok ready, g.opening fs))
    (hdraft : (g.draft.on fs).2 = fs')
    (hreplace : fs'.replaceFile (g.targetPath fs) code.toUTF8 = .ok (g.closing fs))
    (hway : ∀ q ∈ (g.opening fs).places false (g.targetPath fs), ¬ g.IsScratch fs q)
    (hdirect : ∀ above name hasSlash, (g.opening fs).slot (g.targetPath fs) =
        .ok (.name above name hasSlash) →
      ∀ q ∈ (g.opening fs).slotPlaces (g.targetPath fs), ¬ above ++ [name] <+: q) :
    contents? ((g.closing fs).removeTree (g.scratchPath fs)).1 (g.targetPath fs) =
      some code.toUTF8 := by
  have htarget := isAbsolute_targetPath hprepare
  have hscratch := isAbsolute_scratchPath hprepare
  have hcomposed := draft_agrees hstays hprepare
  rw [hdraft] at hcomposed
  -- the producer has not touched the way to the directory of the file
  have hsame : ∀ q ∈ (g.opening fs).slotPlaces (g.targetPath fs),
      fs'.face? q = (g.opening fs).face? q := fun q hq =>
    hcomposed q fun hinside => hway q (slotPlaces_subset_places _ _ _ hq) (Or.inl hinside)
  obtain ⟨above, name, hslot, hagree, hface⟩ := replaceFile_spec htarget hreplace
  have hstart := start_congr fs'.workingDirectory (g.opening fs).workingDirectory htarget
  have hslot' := (slot_congr hstart hsame).symm.trans hslot
  have hplaces := slotPlaces_congr hstart hsame
  obtain ⟨hcontents, hnew⟩ := contents?_of_replaced htarget hslot hagree hface
    (hplaces ▸ hdirect above name false hslot')
  rw [← hcontents, contents?_eq, contents?_eq]
  refine congrArg (Option.bind · _) ?_
  -- and removing the scratch directory does not touch the way to the new file
  apply leadsTo?_congr (start_congr _ _ htarget)
  intro q hq
  refine removeTree_agrees (g.closing fs) hscratch q fun htree => hway q ?_ (Or.inr htree)
  rcases hnew q hq with hq | rfl
  · exact slotPlaces_subset_places _ _ _ (hplaces ▸ hq)
  · obtain ⟨-, last, back, hnames⟩ := names_of_slot hslot'
    exact hnames.mem_places false

/-- A run whose output path keeps apart from the scratch directory protects the file. -/
theorem protects_of_keepsApart (h : g.producer.usesScratch = true)
    (hstays : g.StaysInScratch fs) (hapart : g.KeepsApart force fs) : g.Protects force fs := by
  have hcourse := course_run g h force fs
  unfold KeepsApart at hapart
  unfold Protects
  generalize (g.run force).on fs = ended at hcourse hapart ⊢
  obtain ⟨answer, after⟩ := ended
  cases hcourse with
  | current => rfl
  | unprepared e hprepare hclosing => exact leadsTo?_eq_of_opening rfl hapart.2
  | failed e hprepare hdraft =>
    obtain ⟨ready, hready⟩ := hprepare
    obtain ⟨hway, hreach⟩ := hapart
    have htarget := isAbsolute_targetPath hready
    have hagree := failed_agrees hstays hready hdraft
    refine leadsTo?_eq_of_opening ?_ hreach
    exact leadsTo?_congr (start_congr _ _ htarget) fun q hq => hagree q (hway q hq)
  | generated code report fs' hprepare hdraft hreplace =>
    obtain ⟨ready, hready⟩ := hprepare
    obtain ⟨hway, hdirect⟩ := hapart
    refine ⟨code, congrArg Prod.fst hdraft, ?_⟩
    exact contents?_of_generated hstays hready (congrArg Prod.snd hdraft) hreplace hway hdirect

/-! ## Where it does not -/

/-- What was taken away with the scratch directory was not on the way to anything that is left. -/
theorem not_isScratch_of_leadsTo? {after : FileSystem} {a : Face}
    (htarget : (g.targetPath fs).isAbsolute = true)
    (hagree : AgreeOutside (g.IsScratch fs) (g.opening fs) after)
    (hclears : ∀ q, g.IsScratch fs q → after.face? q = none)
    (h : after.leadsTo? (g.targetPath fs) = some a) :
    ∀ q ∈ (g.opening fs).places true (g.targetPath fs), ¬ g.IsScratch fs q := by
  obtain ⟨q', hlocate, hface⟩ := leadsTo?_eq_some_iff.1 h
  have hagree' : AgreeOutside (fun q => after.face? q = none) (g.opening fs) after :=
    fun q hq => hagree q fun hscratch => hq (hclears q hscratch)
  have hroot : ¬ after.face? (start (g.opening fs).workingDirectory (g.targetPath fs)) = none := by
    rw [start_of_isAbsolute _ htarget]
    exact Option.isSome_iff_ne_none.1 (isSome_face?_nil after)
  rcases locate_of_blocks hagree' (Blocks.free after) (start_congr _ _ htarget) hroot with
    hfree | hnone
  · intro q hq hscratch
    exact hfree q hq (hclears q hscratch)
  · rw [hnone q' hlocate] at hface
    exact absurd hface (by simp)

/-- A run that generates changes nothing outside the scratch directory but the file that the output
path names, and puts nothing else but a file in its place. -/
theorem generated_agrees {ready : TemplateSet × Path × Path} {code : String} {fs' : FileSystem}
    (hstays : g.StaysInScratch fs) (hprepare : g.prepare.on fs = (.ok ready, g.opening fs))
    (hdraft : (g.draft.on fs).2 = fs')
    (hreplace : fs'.replaceFile (g.targetPath fs) code.toUTF8 = .ok (g.closing fs)) :
    ∃ above name, fs'.slot (g.targetPath fs) = .ok (.name above name false) ∧
      AgreeOutside (fun q => g.IsScratch fs q ∨ above ++ [name] <+: q) (g.opening fs)
        ((g.closing fs).removeTree (g.scratchPath fs)).1 ∧
      (¬ g.IsScratch fs (above ++ [name]) →
        face? ((g.closing fs).removeTree (g.scratchPath fs)).1 (above ++ [name]) =
          some (.file false code.toUTF8)) := by
  have htarget := isAbsolute_targetPath hprepare
  have hscratch := isAbsolute_scratchPath hprepare
  have hcomposed := draft_agrees hstays hprepare
  rw [hdraft] at hcomposed
  have hremoved := removeTree_agrees (g.closing fs) hscratch
  obtain ⟨above, name, hslot, hreplaced, hface⟩ := replaceFile_spec htarget hreplace
  refine ⟨above, name, hslot, ?_, ?_⟩
  · -- the draft, the replacement and the removal change a region each
    refine (hcomposed.mono ?_).trans ((hreplaced.mono ?_).trans (hremoved.mono ?_))
    · exact fun q hq => Or.inl (Or.inl hq)
    · exact fun q hq => Or.inr hq
    · exact fun q hq => Or.inl (Or.inr hq)
  · intro hfree
    rw [hremoved _ fun htree => hfree (Or.inr htree)]
    exact hface

/-- Where nothing is left, or at most a file, nothing passes. -/
theorem blocks_of_generated {after : FileSystem} {place : Location} {isExecutable : Bool}
    {contents : ByteArray} (hclears : ∀ q, g.IsScratch fs q → after.face? q = none)
    (hface : ¬ g.IsScratch fs place → after.face? place = some (.file isExecutable contents)) :
    Blocks (fun q => after.face? q = none ∨ place <+: q) after := by
  refine (Blocks.free after).or ?_
  by_cases hscratch : g.IsScratch fs place
  · have hnone := hclears place hscratch
    refine blocks_leaf ?_ ?_
    · rw [isDirectoryAt_eq_false_iff, hnone]
      simp
    · rw [hnone]
      simp
  · exact blocks_file (hface hscratch)

/-- If the text is there after the scratch directory is gone, then the way to it was apart. -/
theorem keepsApart_of_generated {ready : TemplateSet × Path × Path} {code : String}
    {fs' : FileSystem} {a : Face} (hstays : g.StaysInScratch fs)
    (hprepare : g.prepare.on fs = (.ok ready, g.opening fs))
    (hdraft : (g.draft.on fs).2 = fs')
    (hreplace : fs'.replaceFile (g.targetPath fs) code.toUTF8 = .ok (g.closing fs))
    (hclears : ∀ q, g.IsScratch fs q →
      face? ((g.closing fs).removeTree (g.scratchPath fs)).1 q = none)
    (h : leadsTo? ((g.closing fs).removeTree (g.scratchPath fs)).1 (g.targetPath fs) = some a) :
    (∀ q ∈ (g.opening fs).places false (g.targetPath fs), ¬ g.IsScratch fs q) ∧
      ∀ above name hasSlash, (g.opening fs).slot (g.targetPath fs) =
          .ok (.name above name hasSlash) →
        ∀ q ∈ (g.opening fs).slotPlaces (g.targetPath fs), ¬ above ++ [name] <+: q := by
  have htarget := isAbsolute_targetPath hprepare
  have hcomposed := draft_agrees hstays hprepare
  rw [hdraft] at hcomposed
  obtain ⟨above, name, hslot, hagree, hface⟩ :=
    generated_agrees hstays hprepare hdraft hreplace
  generalize ((g.closing fs).removeTree (g.scratchPath fs)).1 = after at *
  obtain ⟨q', hlocate, -⟩ := leadsTo?_eq_some_iff.1 h
  -- nothing passes where the scratch directory was, nor through the new file
  have hblocks := blocks_of_generated hclears hface
  have hagree' : AgreeOutside (fun q => after.face? q = none ∨ above ++ [name] <+: q)
      (g.opening fs) after :=
    hagree.mono fun q hq => hq.imp_left (hclears q)
  have hroot : ¬ (after.face? (start (g.opening fs).workingDirectory (g.targetPath fs)) = none ∨
      above ++ [name] <+: start (g.opening fs).workingDirectory (g.targetPath fs)) := by
    rw [start_of_isAbsolute _ htarget, List.prefix_nil]
    simpa using Option.isSome_iff_ne_none.1 (isSome_face?_nil after)
  have hfree := not_mem_slotPlaces_of_locate hagree' hblocks (start_congr _ _ htarget) hroot hlocate
  have hway : ∀ q ∈ (g.opening fs).slotPlaces (g.targetPath fs), ¬ g.IsScratch fs q :=
    fun q hq hscratch => hfree q hq (Or.inl (hclears q hscratch))
  -- so the path names the same entry all along
  have hslot' : (g.opening fs).slot (g.targetPath fs) = .ok (.name above name false) := by
    rw [← hslot]
    refine (slot_congr (start_congr _ _ htarget) fun q hq => ?_).symm
    exact hcomposed q fun hinside => hway q hq (Or.inl hinside)
  have hslot'' : after.slot (g.targetPath fs) = .ok (.name above name false) := by
    rw [← hslot']
    exact slot_congr (start_congr _ _ htarget) fun q hq => hagree' q (hfree q hq)
  have hplace : ¬ g.IsScratch fs (above ++ [name]) := by
    intro hscratch
    obtain ⟨-, last, back, hnames⟩ := names_of_slot hslot''
    have hsome := isSome_face?_of_locate hlocate _ (hnames.mem_places true)
    rw [hclears _ hscratch] at hsome
    exact absurd hsome (by simp)
  constructor
  · intro q hq
    obtain ⟨hslash, last, back, hnames⟩ := names_of_slot hslot'
    rcases hnames.mem_places_false hslash.symm hq with hq | rfl
    · exact hway q hq
    · exact hplace
  · rintro above' name' hasSlash hnamed q hq
    obtain ⟨rfl, rfl, -⟩ := Slot.name.inj (Except.ok.inj (hslot'.symm.trans hnamed))
    exact fun hunder => hfree q hq (Or.inr hunder)

/-- A run that fails, with nothing of the scratch directory left, leaves the output as it was exactly
if the output path was apart or had nothing to lose. -/
theorem protects_iff_of_failed {after : FileSystem}
    (hstart : start after.workingDirectory (g.targetPath fs) =
      start (g.opening fs).workingDirectory (g.targetPath fs))
    (hlost : ∀ a, after.leadsTo? (g.targetPath fs) = some a →
      ∀ q ∈ (g.opening fs).places true (g.targetPath fs), ¬ g.IsScratch fs q)
    (hagree : AgreeOutside (g.IsScratch fs) (g.opening fs) after) :
    after.leadsTo? (g.targetPath fs) = fs.leadsTo? (g.targetPath fs) ↔
      ((∀ q ∈ (g.opening fs).places true (g.targetPath fs), ¬ g.IsScratch fs q) ∧
        (fs.leadsTo? (g.targetPath fs) = none →
          (g.opening fs).leadsTo? (g.targetPath fs) = none)) ∨
      fs.leadsTo? (g.targetPath fs) = none ∧
        ∃ q ∈ (g.opening fs).places true (g.targetPath fs), g.IsScratch fs q := by
  -- if the path is apart, then it leads where it led when the producer started, else nowhere
  by_cases hway : ∀ q ∈ (g.opening fs).places true (g.targetPath fs), ¬ g.IsScratch fs q
  · have hopening : after.leadsTo? (g.targetPath fs) = (g.opening fs).leadsTo? (g.targetPath fs) :=
      leadsTo?_congr hstart fun q hq => hagree q (hway q hq)
    constructor
    · intro hsame
      refine Or.inl ⟨hway, fun hnone => ?_⟩
      rw [← hopening, hsame, hnone]
    · rintro (⟨-, hreach⟩ | ⟨-, q, hq, hscratch⟩)
      · exact leadsTo?_eq_of_opening hopening hreach
      · exact absurd hscratch (hway q hq)
  · have hnone : after.leadsTo? (g.targetPath fs) = none := by
      cases hafter : after.leadsTo? (g.targetPath fs) with
      | none => rfl
      | some a => exact absurd (hlost a hafter) hway
    push Not at hway
    rw [hnone]
    constructor
    · exact fun hbefore => Or.inr ⟨hbefore.symm, hway⟩
    · rintro (⟨hfree, -⟩ | ⟨hbefore, -⟩)
      · obtain ⟨q, hq, hscratch⟩ := hway
        exact absurd hscratch (hfree q hq)
      · exact hbefore.symm

/-- A run that clears the scratch directory protects the file exactly if the output path keeps apart
from it, or had nothing to lose. -/
theorem protects_iff_of_clears (h : g.producer.usesScratch = true)
    (hstays : g.StaysInScratch fs) (hclears : g.Clears force fs) :
    g.Protects force fs ↔ g.KeepsApart force fs ∨ g.HasNothingToLose force fs := by
  have hapart : g.KeepsApart force fs → g.Protects force fs := protects_of_keepsApart h hstays
  have hcourse := course_run g h force fs
  unfold KeepsApart at hapart ⊢
  unfold Clears at hclears
  unfold Protects at hapart ⊢
  unfold HasNothingToLose
  generalize (g.run force).on fs = ended at hcourse hclears hapart ⊢
  obtain ⟨answer, after⟩ := ended
  cases hcourse with
  | current => simp
  | unprepared e hprepare hclosing =>
    -- nothing was removed, so a place that is free now was not on the way before
    refine protects_iff_of_failed rfl (fun a ha q hq hscratch => ?_) (AgreeOutside.refl _ _)
    obtain ⟨q', hlocate, -⟩ := leadsTo?_eq_some_iff.1 ha
    have hsome := isSome_face?_of_locate hlocate q hq
    rw [hclears q hscratch] at hsome
    exact absurd hsome (by simp)
  | failed e hprepare hdraft =>
    obtain ⟨ready, hready⟩ := hprepare
    have htarget := isAbsolute_targetPath hready
    have hagree := failed_agrees hstays hready hdraft
    exact protects_iff_of_failed (start_congr _ _ htarget)
      (fun a => not_isScratch_of_leadsTo? htarget hagree hclears) hagree
  | generated code report fs' hprepare hdraft hreplace =>
    refine ⟨fun ⟨code', hcode', hcontents⟩ => Or.inl ?_, fun h => hapart (h.resolve_right id)⟩
    obtain ⟨ready, hready⟩ := hprepare
    rw [contents?_eq] at hcontents
    obtain ⟨a, ha, -⟩ := Option.bind_eq_some_iff.1 hcontents
    exact keepsApart_of_generated hstays hready (congrArg Prod.snd hdraft) hreplace hclears ha

/-- A run keeps its promise if the output path keeps apart from the scratch directory.  If nothing
of that directory is left, then it breaks its promise in every other case in which there was
something to lose. -/
theorem protects_iff_keepsApart (h : g.producer.usesScratch = true) (hstays : g.StaysInScratch fs) :
    (g.KeepsApart force fs → g.Protects force fs) ∧
      (g.Clears force fs →
        (g.Protects force fs ↔ g.KeepsApart force fs ∨ g.HasNothingToLose force fs)) :=
  ⟨protects_of_keepsApart h hstays, protects_iff_of_clears h hstays⟩

/-- A run whose tool cannot be started. -/
def missingTool (scratchDirName : String) : Generator where
  input := ⟨"/in"⟩
  output := ⟨"/out"⟩
  outerNamespace := "n"
  settings := { scratchDirName := scratchDirName }
  producer :=
    { usesScratch := true
      produce := fun _ _ settings => throw (.spawn settings.doxygenExecutable) }

/-- A tool that cannot be started changes nothing. -/
theorem missingTool_staysInScratch (scratchDirName : String) (fs : FileSystem) :
    (missingTool scratchDirName).StaysInScratch fs :=
  fun _ _ _ _ => AgreeOutside.refl _ _

/-- A tree in which a file was generated before. -/
def generatedBefore : FileSystem where
  root := .directory 0 true
    [("in", .directory 0 true [("A.h", .file 0 false ByteArray.empty)]),
      ("out", .directory 0 true [("RegisterTypes.h", .file 0 false "previous\n".toUTF8)])]
  workingDirectory := []
  clock := 0

/-- The old file stays if the tool cannot be started and the scratch directory has its usual
name. -/
theorem protects_usual_name :
    (missingTool "xml").producer.usesScratch = true ∧
      (missingTool "xml").StaysInScratch generatedBefore ∧
      (missingTool "xml").KeepsApart true generatedBefore ∧
      (missingTool "xml").Protects true generatedBefore := by
  have hstays := missingTool_staysInScratch "xml" generatedBefore
  have hfailed : (((missingTool "xml").run true).on generatedBefore).1 =
      .error (.spawn "doxygen") := rfl
  have hscratch : ∀ q, (missingTool "xml").IsScratch generatedBefore q → ["out", "xml"] <+: q := by
    rintro q (⟨directory, hlocate, -, hbelow⟩ |
      ⟨directory, hlocate, -, hbelow⟩ | ⟨above, name, hasSlash, hslot, hunder⟩)
    · have hxml : ((missingTool "xml").opening generatedBefore).locate true
          ((missingTool "xml").scratchPath generatedBefore) = .ok ["out", "xml"] := rfl
      obtain rfl := Except.ok.inj (hxml.symm.trans hlocate)
      exact hbelow.1
    · have hxml : ((missingTool "xml").closing generatedBefore).locate true
          ((missingTool "xml").scratchPath generatedBefore) = .ok ["out", "xml"] := rfl
      obtain rfl := Except.ok.inj (hxml.symm.trans hlocate)
      exact hbelow.1
    · have hxml : ((missingTool "xml").closing generatedBefore).slot
          ((missingTool "xml").scratchPath generatedBefore) =
            .ok (.name ["out"] "xml" false) := rfl
      obtain ⟨rfl, rfl, -⟩ := Slot.name.inj (Except.ok.inj (hxml.symm.trans hslot))
      exact hunder
  have hway : ((missingTool "xml").opening generatedBefore).places true
      ((missingTool "xml").targetPath generatedBefore) =
        [[], [], ["out"], ["out", "RegisterTypes.h"]] := rfl
  have hbefore : generatedBefore.leadsTo? ((missingTool "xml").targetPath generatedBefore) =
      some (.file false "previous\n".toUTF8) := rfl
  have hapart : (missingTool "xml").KeepsApart true generatedBefore := by
    unfold KeepsApart
    rw [hfailed]
    refine ⟨fun q hq hin => ?_, fun hnone => ?_⟩
    · rw [hway] at hq
      have houtside : ∀ q ∈ [[], [], ["out"], ["out", "RegisterTypes.h"]],
          ¬ ["out", "xml"] <+: q := by decide
      exact houtside q hq (hscratch q hin)
    · rw [hbefore] at hnone
      exact absurd hnone (by simp)
  exact ⟨rfl, hstays, hapart, (protects_iff_keepsApart rfl hstays).1 hapart⟩

/-- With an empty name the scratch directory is the output directory itself, and the old file goes
with it. -/
theorem not_protects_empty_name :
    (missingTool "").producer.usesScratch = true ∧
      (missingTool "").StaysInScratch generatedBefore ∧
      ¬ (missingTool "").Protects true generatedBefore := by
  refine ⟨rfl, missingTool_staysInScratch "" generatedBefore, fun hprotects => ?_⟩
  have hbefore : generatedBefore.leadsTo? ((missingTool "").targetPath generatedBefore) =
      some (.file false "previous\n".toUTF8) := rfl
  have hafter : leadsTo? (((missingTool "").run true).on generatedBefore).2
      ((missingTool "").targetPath generatedBefore) = none := rfl
  have hfailed : (((missingTool "").run true).on generatedBefore).1 =
      .error (.spawn "doxygen") := rfl
  unfold Protects at hprotects
  generalize ((missingTool "").run true).on generatedBefore = ended at hprotects hafter hfailed
  obtain ⟨answer, after⟩ := ended
  obtain rfl : answer = .error (.spawn "doxygen") := hfailed
  have hsame : after.leadsTo? ((missingTool "").targetPath generatedBefore) =
      generatedBefore.leadsTo? ((missingTool "").targetPath generatedBefore) := hprotects
  rw [hbefore] at hsame
  rw [hafter] at hsame
  exact absurd hsame (by simp)

end Registrar.Generator
