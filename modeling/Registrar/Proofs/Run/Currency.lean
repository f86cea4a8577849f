/-
# A run after a run

Once a run has generated the file, the next one finds it current, as long as nothing else has
happened.  It does not as soon as a header is newer than the file.  That the file is looked for
under its path as written, and put under the path as seen from the root, makes no difference but for
the length of the path.
-/
import Registrar.Proofs.FileSystem.Spelling
import Registrar.Proofs.Run.Prebuilt
import Registrar.Proofs.Run.Staleness

namespace Registrar

namespace FileSystem

variable {fs : FileSystem} {p : Path} {q r : Location}

/-! ## A new time -/

/-- The face of an entry does not tell its time. -/
theorem Node.face_withModified (time : Instant) (n : Node) :
    (n.withModified time).face = n.face := by
  cases n <;> rfl

/-- An entry has the time that it was given. -/
theorem Node.modified_withModified (time : Instant) (n : Node) :
    (n.withModified time).modified = time := by
  cases n <;> rfl

/-- The time of an entry does not change what is below it. -/
theorem Node.get?_withModified (time : Instant) (n : Node) (hq : q ≠ []) :
    (n.withModified time).get? q = n.get? q := by
  cases q with
  | nil => exact absurd rfl hq
  | cons name q => cases n <;> rfl

/-- A new time shows in no face. -/
theorem face?_modifyEntry_withModified (fs : FileSystem) (q r : Location) (time : Instant) :
    (fs.modifyEntry q (Node.withModified time)).face? r = fs.face? r := by
  by_cases hunder : q <+: r
  · obtain ⟨rest, rfl⟩ := hunder
    unfold face?
    rw [entryAt_modifyEntry, entryAt_append]
    cases fs.entry? q with
    | none => rfl
    | some n =>
      show ((n.withModified time).get? rest).map Node.face = (n.get? rest).map Node.face
      by_cases hrest : rest = []
      · subst hrest
        rw [Node.get?_nil, Node.get?_nil, Option.map_some, Option.map_some,
          Node.face_withModified]
      · rw [Node.get?_withModified time n hrest]
  · exact modifyEntry_agrees fs q _ r hunder

/-- An entry that is changed in its place is the changed one. -/
theorem entry?_modifyEntry_self {n : Node} (h : fs.entry? q = some n) (f : Node → Node) :
    entry? (fs.modifyEntry q f) q = some (f n) := by
  have hentry := entryAt_modifyEntry fs q [] f
  rw [List.append_nil, h] at hentry
  exact hentry.trans (Node.get?_nil (f n))

/-- A file stays as it is if something else changes. -/
theorem entry?_modifyEntry_of_file {modified : Instant} {isExecutable : Bool}
    {contents : ByteArray} (h : fs.entry? r = some (.file modified isExecutable contents))
    (hunder : ¬ q <+: r) (f : Node → Node) :
    entry? (fs.modifyEntry q f) r = some (.file modified isExecutable contents) := by
  have hbare : (fs.modifyEntry q f).bare? r = fs.bare? r := Node.bare_get?_alter hunder _ fs.root
  unfold bare? at hbare
  rw [h] at hbare
  obtain ⟨n, hn, hfile⟩ := Option.map_eq_some_iff.1 hbare
  cases n with
  | directory | link | device => exact absurd hfile (by simp [Node.bare])
  | file modified' isExecutable' contents' =>
    rw [hn]
    exact congrArg some hfile

/-- A proper tree is proper with another time. -/
theorem Node.IsProper.withModified {n : Node} (h : n.IsProper) (time : Instant) :
    (n.withModified time).IsProper := by
  cases n with
  | file | link | device => exact .leaf rfl
  | directory modified isListable entries =>
    exact Node.isProper_directory_iff.2 (Node.isProper_directory_iff.1 h)

/-- A proper tree is proper with another time of one of its entries. -/
theorem isProper_modifyEntry_withModified (h : fs.root.IsProper) (q : Location) (time : Instant) :
    (fs.modifyEntry q (Node.withModified time)).root.IsProper := by
  refine h.alter (fun n hn m hm => ?_) q
  obtain ⟨child, hchild, rfl⟩ := Option.map_eq_some_iff.1 hm
  exact (hn child hchild).withModified time

/-- A header with a new time is a header with this time. -/
theorem IsHeader.withModified {dir : Path} {patterns : List String} {n : Node}
    (h : fs.IsHeader dir patterns q n) (time : Instant) :
    (fs.modifyEntry q (Node.withModified time)).IsHeader dir patterns q (n.withModified time) := by
  obtain ⟨root, front, name, hlocate, hq, hentry, hleaf, hname⟩ := h
  have hlocate' : (fs.modifyEntry q (Node.withModified time)).locate true dir = .ok root := by
    rw [← hlocate]
    exact locate_congr rfl fun r _ => face?_modifyEntry_withModified fs q r time
  have hleaf' : (n.withModified time).isDirectory = false := by
    rw [← hleaf]
    cases n <;> rfl
  exact ⟨root, front, name, hlocate', hq, entry?_modifyEntry_self hentry _, hleaf', hname⟩

/-- The time of a path is that of the entry that it leads to. -/
theorem modified_eq_ok_iff {time : Instant} :
    fs.modified p = .ok time ↔
      ∃ q n, fs.locate true p = .ok q ∧ fs.entry? q = some n ∧ n.modified = time := by
  unfold modified
  constructor
  · intro h
    cases hentry : fs.entry p with
    | error e =>
      rw [hentry] at h
      exact absurd h (by simp [Except.map])
    | ok n =>
      rw [hentry] at h
      obtain ⟨q, hlocate, hq⟩ := of_entry hentry
      exact ⟨q, n, hlocate, hq, Except.ok.inj h⟩
  · rintro ⟨q, n, hlocate, hq, rfl⟩
    rw [entry_of_locate hlocate hq]
    rfl

end FileSystem

namespace Generator

open Step FileSystem

variable {g : Generator} {fs opened fs' now : FileSystem} {dir : Path} {force : Bool}
  {place : Location} {written : Instant}

/-! ## What a run leaves that has generated the file -/

/-- What a run leaves that has generated the file: it has opened the output directory, and has put a
file at the place that the path of the file names there. -/
structure Leaves (g : Generator) (fs opened fs' : FileSystem) (place : Location)
    (written : Instant) : Prop where
  whole : whole? fs g.output = some (g.outputDir fs)
  opens : Opens (g.outputDir fs) fs opened
  puts : ∃ contents above name, place = above ++ [name] ∧
    PutsFile opened (g.targetPath fs) contents above name fs' ∧
      fs'.entry? place = some (.file written false contents)

/-- The tree in which the producer starts is proper if it was before. -/
theorem opening_isProper (h : g.producer.usesScratch = false) (hproper : fs.IsProper) :
    (g.opening fs).IsProper := by
  unfold opening
  rw [on_prepare h]
  split
  case h_4 output _ _ houtput =>
    have hmade := hproper.createDirectories output
    rcases hdirectories : fs.createDirectories output with ⟨fs', e | u⟩ <;>
      rwa [hdirectories] at hmade
  all_goals exact hproper

/-- A generation that succeeds has put some contents in the place of the file. -/
theorem of_generate_prebuilt {input output scratch : Path} {templates : TemplateSet}
    {report : Report}
    (h : ((g.withDocuments dir).generate input output scratch templates).on fs =
      (.ok report, fs')) :
    ∃ contents, fs.replaceFile (output / g.settings.outputFileName) contents = .ok fs' := by
  obtain ⟨report', hgenerate⟩ := on_generate_prebuilt g dir input output scratch templates fs
  rw [hgenerate] at h
  cases htext : g.textFrom fs dir output templates with
  | error e =>
    rw [htext] at h
    exact absurd (congrArg Prod.fst h) (by simp)
  | ok code =>
    rw [htext] at h
    dsimp only at h
    cases hreplace : fs.replaceFile (output / g.settings.outputFileName) code.toUTF8 with
    | error e =>
      rw [hreplace] at h
      exact absurd (congrArg Prod.fst h) (by simp)
    | ok fs₁ =>
      rw [hreplace] at h
      exact ⟨code.toUTF8, hreplace.trans (congrArg Except.ok (congrArg Prod.snd h))⟩

/-- A run that succeeds with a new file has a report of it. -/
theorem map_generated_eq_ok_iff {x : Except RunError Report} {outcome : Outcome} :
    x.map .generated = .ok outcome ↔ ∃ report, x = .ok report ∧ outcome = .generated report := by
  cases x <;> simp [Except.map, eq_comm]

/-- A run that has generated the file has replaced it at once when the output directory was open. -/
theorem of_generated {report : Report}
    (h : ((g.withDocuments dir).run force).on fs = (.ok (.generated report), fs')) :
    whole? fs g.output = some (g.outputDir fs) ∧
      ∃ contents, ((g.withDocuments dir).opening fs).replaceFile (g.targetPath fs) contents =
        .ok fs' := by
  have hregenerate := on_regenerate (g.withDocuments dir) fs
  rcases on_run (g.withDocuments dir) force fs with hrun | hrun <;> rw [hrun] at h
  · exact absurd (congrArg Prod.fst h) (by simp)
  · obtain ⟨hanswer, hleft⟩ := Prod.mk.inj h
    obtain ⟨report', hreport, -⟩ := map_generated_eq_ok_iff.1 hanswer
    unfold opening
    rcases hprepare : (g.withDocuments dir).prepare.on fs with
      ⟨e | ⟨templates, input, output⟩, opened⟩ <;> rw [hprepare] at hregenerate
    · rw [hregenerate] at hreport
      exact absurd hreport (by simp)
    · have hwhole := whole?_of_prepare hprepare
      obtain ⟨houtput, -⟩ := outputDir_of_prepare hprepare
      obtain rfl : g.outputDir fs = output := houtput
      replace hregenerate : (g.withDocuments dir).regenerate.on fs =
          ((g.withDocuments dir).generate input (g.outputDir fs) (g.scratchPath fs) templates).on
            opened := hregenerate
      rw [hregenerate] at hreport hleft
      have hgenerate : ((g.withDocuments dir).generate input (g.outputDir fs) (g.scratchPath fs)
        templates).on opened = (.ok report', fs') := Prod.ext hreport hleft
      exact ⟨hwhole, of_generate_prebuilt hgenerate⟩

/-- A run that has generated the file leaves it at some place. -/
theorem exists_leaves_of_generated {report : Report}
    (h : ((g.withDocuments dir).run force).on fs = (.ok (.generated report), fs')) :
    ∃ place written, g.Leaves fs ((g.withDocuments dir).opening fs) fs' place written := by
  obtain ⟨hwhole, contents, hreplace⟩ := of_generated h
  have habsolute : (g.targetPath fs).isAbsolute = true :=
    Path.isAbsolute_div (isAbsolute_of_whole? hwhole) _
  obtain ⟨above, name, hputs⟩ := replaceFile_puts habsolute hreplace
  obtain ⟨written, hfile⟩ := hputs.file
  have hscratch : (g.withDocuments dir).producer.usesScratch = false := rfl
  have hopens : Opens (g.outputDir fs) fs ((g.withDocuments dir).opening fs) :=
    opening_opens hscratch fs
  exact ⟨above ++ [name], written, hwhole, hopens, contents, above, name, rfl, hputs, hfile⟩

/-- The path of the file is an absolute one. -/
theorem Leaves.isAbsolute (h : g.Leaves fs opened fs' place written) :
    (g.targetPath fs).isAbsolute = true :=
  Path.isAbsolute_div (isAbsolute_of_whole? h.whole) _

/-- Seen from the root, a path stays what it is as long as the working directory stays. -/
theorem whole?_eq_of_directory {p q : Path} (hworking : now.workingDirectory = fs.workingDirectory)
    (hdir : fs.isDirectoryAt fs.workingDirectory = true →
      now.isDirectoryAt fs.workingDirectory = true) (h : whole? fs p = some q) :
    whole? now p = some q := by
  have hbase : p.isAbsolute = true → ∀ base base' : Path,
      Path.absolute? base p = Path.absolute? base' p := by
    intro hp base base'
    unfold Path.absolute?
    rw [hp]
    rfl
  unfold whole? workingPath? at h ⊢
  rw [hworking]
  cases hthere : fs.isDirectoryAt fs.workingDirectory with
  | true =>
    rw [hthere, if_pos rfl] at h
    rw [hdir hthere, if_pos rfl]
    exact h
  | false =>
    -- the path is absolute, so that nothing depends on the working directory
    rw [hthere, if_neg (by simp)] at h
    dsimp only at h
    split at h
    · next hp =>
      split
      · rw [hbase hp _ ⟨"/"⟩]
        exact h
      · rw [if_pos hp]
        exact h
    · exact absurd h (by simp)

/-- A directory stays one while the file is generated. -/
theorem Leaves.isDirectoryAt (h : g.Leaves fs opened fs' place written) {q : Location}
    (hq : fs.isDirectoryAt q = true) : fs'.isDirectoryAt q = true := by
  obtain ⟨contents, above, name, rfl, hputs, -⟩ := h.puts
  obtain ⟨l, hl⟩ := (isDirectoryAt_iff fs q).1 hq
  have hopened : opened.isDirectoryAt q = true :=
    (isDirectoryAt_iff opened q).2 ⟨l, h.opens.growsTo.face?_eq_some hl⟩
  have hne : q ≠ above ++ [name] := by
    rintro rfl
    exact absurd (hopened.symm.trans hputs.not_directory) (by simp)
  rw [isDirectoryAt_congr (face?_eq_of_bare? (hputs.others q hne))]
  exact hopened

/-- The path of the file as written leads to the file, or nowhere. -/
theorem Leaves.locate_outputPath_iff (h : g.Leaves fs opened fs' place written)
    (hworking : ∀ name ∈ fs.workingDirectory, IsEntryName name) {q : Location} :
    fs'.locate true g.outputPath = .ok q ↔
      q = place ∧ g.outputPath.text.utf8ByteSize ≤ maxPathLength ∧
        ∀ r ∈ opened.slotPlaces (g.targetPath fs), ¬ place <+: r := by
  obtain ⟨contents, above, name, rfl, hputs, -⟩ := h.puts
  have hstays : fs'.workingDirectory = fs.workingDirectory :=
    hputs.workingDirectory.trans h.opens.workingDirectory
  have hwhole : whole? fs' g.output = some (g.outputDir fs) :=
    whole?_eq_of_directory hstays h.isDirectoryAt h.whole
  obtain ⟨hslash, last, back, hnames⟩ := names_of_slot hputs.slot
  obtain rfl := hnames.back_eq_nil hslash.symm
  have hends : EndsOnward (g.targetPath fs).pieces := by
    rw [hnames.pieces, EndsOnward.append_iff (List.cons_ne_nil last [])]
    intro piece hpiece
    obtain rfl : last = piece := Option.some.inj hpiece
    exact leadsOn_of_ne (by simp [hnames.move])
  -- the path as written and the path as seen from the root lead to one place, if both can be paths
  have hsame : checkText g.outputPath = .ok () →
      fs'.locate true g.outputPath = fs'.locate true (g.targetPath fs) := fun hcheck =>
    locate_div_of_whole? (hstays ▸ hworking) hwhole hends hcheck hnames.check true
  have hlength : checkText g.outputPath = .ok () ↔ g.outputPath.text.utf8ByteSize ≤ maxPathLength :=
    checkText_div_of_whole? h.whole hnames.check
  constructor
  · intro hlocate
    have hcheck := (follow_of_locate hlocate).1
    rw [hsame hcheck, hputs.locate_eq_ok_iff h.isAbsolute] at hlocate
    exact ⟨hlocate.1, hlength.1 hcheck, hlocate.2⟩
  · rintro ⟨hq, hshort, hdirect⟩
    rw [hsame (hlength.2 hshort), hputs.locate_eq_ok_iff h.isAbsolute]
    exact ⟨hq, hdirect⟩

/-- The time that is found under the path of the file as written is that of the file.  The same
holds for any later state with the same files at the same places. -/
theorem Leaves.modified_outputPath_iff (h : g.Leaves fs opened fs' place written)
    (hworking : ∀ name ∈ fs.workingDirectory, IsEntryName name)
    (hstays : now.workingDirectory = fs'.workingDirectory)
    (hfaces : ∀ q, now.face? q = fs'.face? q) (hentry : now.entry? place = fs'.entry? place)
    (time : Instant) :
    now.modified g.outputPath = .ok time ↔
      time = written ∧ g.outputPath.text.utf8ByteSize ≤ maxPathLength ∧
        ∀ r ∈ opened.slotPlaces (g.targetPath fs), ¬ place <+: r := by
  have hlocate : now.locate true g.outputPath = fs'.locate true g.outputPath :=
    locate_congr (by rw [hstays]) fun q _ => hfaces q
  obtain ⟨contents, -, -, -, -, hfile⟩ := h.puts
  rw [modified_eq_ok_iff]
  constructor
  · rintro ⟨q, n, hq, hn, rfl⟩
    rw [hlocate, h.locate_outputPath_iff hworking] at hq
    obtain ⟨rfl, hreadable⟩ := hq
    rw [hentry, hfile] at hn
    exact ⟨congrArg Node.modified (Option.some.inj hn).symm, hreadable⟩
  · rintro ⟨rfl, hreadable⟩
    refine ⟨place, _, ?_, hentry.trans hfile, rfl⟩
    rw [hlocate, h.locate_outputPath_iff hworking]
    exact ⟨rfl, hreadable⟩

/-! ## The next run -/

/-- A run that is not forced keeps the file exactly if it is found current. -/
theorem run_false_eq_upToDate_iff (g : Generator) (fs : FileSystem) :
    ((g.run false).on fs).1 = .ok .upToDate ↔ (g.isUpToDate fs).result = true := by
  rw [on_run_false]
  split
  · next hcurrent => exact iff_of_true rfl hcurrent
  · next hstale =>
    refine iff_of_false (fun hanswer => ?_) hstale
    obtain ⟨report, -, hgenerated⟩ := map_generated_eq_ok_iff.1 hanswer
    exact absurd hgenerated (by simp)

/-- The file is current exactly if it is there, the headers can be read, and none of them is
newer. -/
theorem isUpToDate_withDocuments_iff (h : fs.root.IsProper) (g : Generator) (dir : Path) :
    ((g.withDocuments dir).isUpToDate fs).result = true ↔
      ∃ generated, fs.modified g.outputPath = .ok generated ∧ fs.IsReadable g.input ∧
        ∀ q n, fs.IsHeader g.input g.settings.filePatterns q n → n.modified ≤ generated :=
  isUpToDate_iff h g.input g.outputPath g.settings.filePatterns

/-- The next run finds the file current exactly if it is found under its path as written. -/
theorem Leaves.run_false_iff (h : g.Leaves fs opened fs' place written)
    (hworking : ∀ name ∈ fs.workingDirectory, IsEntryName name) (hproper : fs'.root.IsProper)
    (hreadable : fs'.IsReadable g.input)
    (hnewest : ∀ q n, fs'.IsHeader g.input g.settings.filePatterns q n → q ≠ place →
      n.modified ≤ written) (dir : Path) :
    ((g.withDocuments dir).run false).on fs' = (.ok .upToDate, fs') ↔
      g.outputPath.text.utf8ByteSize ≤ maxPathLength ∧
        ∀ q ∈ opened.slotPlaces (g.targetPath fs), ¬ place <+: q := by
  have htime := h.modified_outputPath_iff hworking rfl (fun _ => rfl) rfl
  obtain ⟨contents, -, -, -, -, hfile⟩ := h.puts
  constructor
  · intro hrun
    have hcurrent := (run_false_eq_upToDate_iff _ fs').1 (congrArg Prod.fst hrun)
    obtain ⟨generated, hmodified, -⟩ := (isUpToDate_withDocuments_iff hproper g dir).1 hcurrent
    exact ((htime generated).1 hmodified).2
  · intro hfound
    have hcurrent := (isUpToDate_withDocuments_iff hproper g dir).2
      ⟨written, (htime written).2 ⟨rfl, hfound⟩, hreadable, fun q n hheader => ?_⟩
    · rw [on_run_false, if_pos hcurrent]
    · -- the file itself may be a header, too
      by_cases hq : q = place
      · obtain ⟨root, front, name, -, -, hentry, -, -⟩ := hheader
        rw [hq, hfile] at hentry
        rw [← Option.some.inj hentry]
        exact le_refl written
      · exact hnewest q n hheader hq

/-- The next run does not find the file current once a header is newer. -/
theorem Leaves.run_false_ne (h : g.Leaves fs opened fs' place written)
    (hworking : ∀ name ∈ fs.workingDirectory, IsEntryName name) (hproper : fs'.root.IsProper)
    {q : Location} {n : Node} {time : Instant}
    (hheader : fs'.IsHeader g.input g.settings.filePatterns q n) (hfile : n.isFile = true)
    (hne : q ≠ place) (hlater : written < time) (dir : Path) :
    (((g.withDocuments dir).run false).on (fs'.modifyEntry q (Node.withModified time))).1 ≠
      .ok .upToDate := by
  obtain ⟨contents, -, -, -, -, hplace⟩ := h.puts
  have hentry : fs'.entry? q = some n := by
    obtain ⟨root, front, name, -, -, hentry, -, -⟩ := hheader
    exact hentry
  -- a header is a file, so the generated file is not below it
  have hunder : ¬ q <+: place := by
    rintro ⟨rest, hrest⟩
    have hleaf : fs'.isDirectoryAt q = false := by
      rw [isDirectoryAt_of_entryAt hentry]
      cases n with
      | file => rfl
      | link | directory | device => exact absurd hfile (by simp [Node.isFile])
    have hbelow : rest ≠ [] := by
      rintro rfl
      exact hne (by rw [← hrest, List.append_nil])
    rw [← hrest, entryAt_eq_none_of_not_directory hleaf hbelow] at hplace
    exact absurd hplace (by simp)
  have hkept := entry?_modifyEntry_of_file hplace hunder (Node.withModified time)
  rw [Ne, run_false_eq_upToDate_iff,
    isUpToDate_withDocuments_iff (isProper_modifyEntry_withModified hproper q time)]
  rintro ⟨generated, hmodified, -, hall⟩
  have hstays : (fs'.modifyEntry q (Node.withModified time)).workingDirectory =
    fs'.workingDirectory := rfl
  have hfound := (h.modified_outputPath_iff hworking hstays
    (fun r => face?_modifyEntry_withModified fs' q r time) (hkept.trans hplace.symm) generated).1
      hmodified
  have hle := hall q _ (hheader.withModified time)
  rw [Node.modified_withModified, hfound.1] at hle
  exact absurd hlater (Int.not_lt.2 hle)

/-- Over an empty directory of documents there is always a file to put in its place. -/
theorem exists_generated_of_empty {input output : Path} {left : ByteArray → FileSystem → Prop}
    (hprepare : (g.withDocuments dir).prepare.on fs = (.ok ({}, input, output), opened))
    (hempty : opened.listDirectory dir = .ok [])
    (hreplace : ∀ contents, ∃ fs',
      opened.replaceFile (output / g.settings.outputFileName) contents = .ok fs' ∧
        left contents fs') :
    ∃ report contents fs', ((g.withDocuments dir).run true).on fs = (.ok (.generated report), fs') ∧
      left contents fs' := by
  obtain ⟨code, hcode⟩ := g.exists_textFrom_of_empty hempty output
  obtain ⟨fs', hput, hleft⟩ := hreplace code.toUTF8
  obtain ⟨report, hgenerate⟩ := on_generate_prebuilt g dir input output
    (output / g.settings.scratchDirName) {} opened
  rw [hcode] at hgenerate
  dsimp only at hgenerate
  rw [hput] at hgenerate
  have hregenerate : (g.withDocuments dir).regenerate.on fs = (.ok (report code), fs') := by
    have hrun := on_regenerate (g.withDocuments dir) fs
    rw [hprepare] at hrun
    exact hrun.trans hgenerate
  refine ⟨report code, code.toUTF8, fs', ?_, hleft⟩
  rw [on_run_true, hregenerate]
  rfl

/-- A run that has generated the file leaves it current, if it is found under its path as written,
and until a header changes.  It is found unless this path is too long to be one, or the way to the
directory of the file leads through the file itself. -/
theorem current_until_changed (g : Generator) (dir : Path) (force : Bool) {fs fs' : FileSystem}
    {report : Report} (hproper : fs.IsProper)
    (hrun : ((g.withDocuments dir).run force).on fs = (.ok (.generated report), fs')) :
    ∃ place written, g.Leaves fs ((g.withDocuments dir).opening fs) fs' place written ∧
      (fs'.IsReadable g.input →
        (∀ q n, fs'.IsHeader g.input g.settings.filePatterns q n → q ≠ place →
          n.modified ≤ written) →
        (((g.withDocuments dir).run false).on fs' = (.ok .upToDate, fs') ↔
          g.outputPath.text.utf8ByteSize ≤ maxPathLength ∧
            ∀ q ∈ ((g.withDocuments dir).opening fs).slotPlaces (g.targetPath fs),
              ¬ place <+: q)) ∧
      ∀ q n time, fs'.IsHeader g.input g.settings.filePatterns q n → n.isFile = true →
        q ≠ place → written < time →
        (((g.withDocuments dir).run false).on
          (fs'.modifyEntry q (Node.withModified time))).1 ≠ .ok .upToDate := by
  obtain ⟨-, contents, hreplace⟩ := of_generated hrun
  have hscratch : (g.withDocuments dir).producer.usesScratch = false := rfl
  have hproper' := (opening_isProper hscratch hproper).replaceFile hreplace
  obtain ⟨place, written, hleaves⟩ := exists_leaves_of_generated hrun
  refine ⟨place, written, hleaves, fun hreadable hnewest => ?_, ?_⟩
  · exact hleaves.run_false_iff hproper.workingDirectory hproper'.root hreadable hnewest dir
  · intro q n time hheader hfile hne hlater
    exact hleaves.run_false_ne hproper.workingDirectory hproper'.root hheader hfile hne hlater dir

/-- A directory with one header, and one for the generated file. -/
def oneHeader : FileSystem where
  root := .directory 0 true
    [("ast", .directory 0 true []),
      ("in", .directory 0 true [("A.h", .file 0 false ByteArray.empty)]),
      ("out", .directory 0 true [])]
  workingDirectory := []
  clock := 0

/-- A generator over this header. -/
def overOneHeader : Generator where
  input := ⟨"/in"⟩
  output := ⟨"/out"⟩
  outerNamespace := "n"

/-- The file can be put into the output directory beside the one header. -/
theorem replaceFile_oneHeader (contents : ByteArray) :
    ∃ fs', oneHeader.replaceFile ⟨"/out/RegisterTypes.h"⟩ contents = .ok fs' ∧
      fs'.entry? ["out", "RegisterTypes.h"] = some (.file 1 false contents) ∧
      fs'.entry? ["in"] = some (.directory 0 true [("A.h", .file 0 false ByteArray.empty)]) ∧
      fs'.locate true ⟨"/in"⟩ = .ok ["in"] := by
  have hwritten : oneHeader.writeFile ⟨"/out/.tmp000000"⟩ contents =
      .ok (oneHeader.setEntry ["out", ".tmp000000"] (some (.file 1 false contents))) := by
    unfold writeFile
    rw [fileSlot]
    rfl
  show ∃ fs', (oneHeader.writeFile ⟨"/out/.tmp000000"⟩ contents >>=
    fun written => written.rename ⟨"/out/.tmp000000"⟩ ⟨"/out/RegisterTypes.h"⟩) = .ok fs' ∧ _
  rw [hwritten]
  exact ⟨_, rfl, rfl, rfl, rfl⟩

theorem areProper_oneHeader : Node.AreProper [("A.h", .file 0 false ByteArray.empty)] :=
  .cons (by simp) (.leaf rfl) .nil

theorem isProper_oneHeader : oneHeader.IsProper := by
  have hempty : (Node.directory 0 true []).IsProper := Node.isProper_directory_iff.2 .nil
  have hin : (Node.directory 0 true [("A.h", .file 0 false ByteArray.empty)]).IsProper :=
    Node.isProper_directory_iff.2 areProper_oneHeader
  have hlast : Node.AreProper [("out", .directory 0 true [])] := .cons (by simp) hempty .nil
  refine ⟨Node.isProper_directory_iff.2 ?_, fun name hname => absurd hname List.not_mem_nil⟩
  exact .cons (by simp) hempty (.cons (by simp) hin hlast)

/-- The one header is all that is found below the directory. -/
theorem isHeader_oneHeader {patterns : List String} {q : Location} {n : Node}
    (hentry : fs.entry? ["in"] = some (.directory 0 true [("A.h", .file 0 false ByteArray.empty)]))
    (hlocate : fs.locate true ⟨"/in"⟩ = .ok ["in"]) (h : fs.IsHeader ⟨"/in"⟩ patterns q n) :
    n.modified = 0 := by
  have hmem : n.modified ∈ {t | ∃ q m, fs.IsHeader ⟨"/in"⟩ patterns q m ∧ m.modified = t} :=
    ⟨q, n, h, rfl⟩
  rw [← sourceTimes_eq hlocate hentry,
    Node.sourceTimes_directory areProper_oneHeader _ ⟨"/in"⟩] at hmem
  rcases hmem with ⟨entry, hlisted, -, -, htime⟩ | ⟨d, hd, -⟩
  · rw [← htime, List.mem_singleton.1 hlisted]
    rfl
  · exact absurd hd List.not_mem_nil

/-- The next run finds the file current, and does not any more once the header is newer. -/
theorem current_until_oneHeader_changed :
    ∃ report fs', ((overOneHeader.withDocuments ⟨"/ast"⟩).run true).on oneHeader =
        (.ok (.generated report), fs') ∧
      ((overOneHeader.withDocuments ⟨"/ast"⟩).run false).on fs' = (.ok .upToDate, fs') ∧
      ∀ time, 1 < time → (((overOneHeader.withDocuments ⟨"/ast"⟩).run false).on
        (fs'.modifyEntry ["in", "A.h"] (Node.withModified time))).1 ≠ .ok .upToDate := by
  have hprepare : (overOneHeader.withDocuments ⟨"/ast"⟩).prepare.on oneHeader =
    (.ok ({}, ⟨"/in"⟩, ⟨"/out"⟩), oneHeader) := rfl
  obtain ⟨report, contents, fs', hrun, hfile, hin, hlocate⟩ :=
    exists_generated_of_empty hprepare rfl replaceFile_oneHeader
  obtain ⟨place, written, hleaves, hcurrent, hstale⟩ :=
    current_until_changed overOneHeader ⟨"/ast"⟩ true isProper_oneHeader hrun
  obtain ⟨contents', above, name, rfl, hputs, hentry⟩ := hleaves.puts
  have hslot : oneHeader.slot ⟨"/out/RegisterTypes.h"⟩ =
    .ok (.name ["out"] "RegisterTypes.h" false) := rfl
  obtain ⟨rfl, rfl, -⟩ := Slot.name.inj (Except.ok.inj (hputs.slot.symm.trans hslot))
  obtain ⟨rfl, -, -⟩ := Node.file.inj (Option.some.inj (hentry.symm.trans hfile))
  have hreadable : fs'.IsReadable ⟨"/in"⟩ := ⟨_, entry_of_locate hlocate hin,
    (Node.isReadable_directory_iff areProper_oneHeader).2
      ⟨rfl, rfl, fun d hd => absurd hd List.not_mem_nil⟩⟩
  have hplaces : oneHeader.slotPlaces ⟨"/out/RegisterTypes.h"⟩ = [[], [], ["out"]] := rfl
  have hheader : fs'.entry? ["in", "A.h"] = some (.file 0 false ByteArray.empty) := by
    rw [show ["in", "A.h"] = ["in"] ++ ["A.h"] from rfl, entryAt_append, hin]
    rfl
  have hname : ∃ pattern ∈ overOneHeader.settings.filePatterns,
      Pattern.matchesName pattern "A.h" = true := ⟨"*.h", List.mem_cons_self, rfl⟩
  refine ⟨report, fs', hrun, (hcurrent hreadable ?_).2 ⟨by decide, ?_⟩, fun time htime => ?_⟩
  · intro q n hheader _
    rw [isHeader_oneHeader hin hlocate hheader]
    decide
  · show ∀ q ∈ oneHeader.slotPlaces ⟨"/out/RegisterTypes.h"⟩, _
    rw [hplaces]
    decide
  · exact hstale _ _ time ⟨["in"], [], "A.h", hlocate, rfl, hheader, rfl, hname⟩ rfl (by decide)
      htime

/-- The generator whose file lies behind a link and takes its place, over a directory without
headers. -/
def loopedOverNothing : Generator :=
  { looped with input := ⟨"/ast"⟩ }

/-- A run may generate the file, and the next one does not find it current although there is no
header: the way to its directory led through the link that it replaced. -/
theorem generated_not_current :
    ∃ report fs', ((loopedOverNothing.withDocuments ⟨"/ast"⟩).run true).on loopedTree =
        (.ok (.generated report), fs') ∧
      fs'.IsReadable loopedOverNothing.input ∧
      (∀ q n, ¬ fs'.IsHeader loopedOverNothing.input loopedOverNothing.settings.filePatterns q n) ∧
      (((loopedOverNothing.withDocuments ⟨"/ast"⟩).run false).on fs').1 ≠ .ok .upToDate := by
  have hprepare : (loopedOverNothing.withDocuments ⟨"/ast"⟩).prepare.on loopedTree =
    (.ok ({}, ⟨"/ast"⟩, ⟨"/out"⟩), loopedTree) := rfl
  obtain ⟨report, contents, fs', hrun, -, hmodified, hast, hlocate⟩ :=
    exists_generated_of_empty hprepare rfl replaceFile_loopedTree
  refine ⟨report, fs', hrun, ⟨_, entry_of_locate hlocate hast, ?_⟩, ?_, ?_⟩
  · exact (Node.isReadable_directory_iff .nil).2
      ⟨rfl, rfl, fun d hd => absurd hd List.not_mem_nil⟩
  · rintro q n ⟨root, front, name, hroot, rfl, hentry, -, -⟩
    obtain rfl := Except.ok.inj (hlocate.symm.trans hroot)
    rw [List.append_assoc, entryAt_append, hast] at hentry
    cases front <;> exact absurd hentry (by simp [Node.get?])
  · rw [Ne, run_false_eq_upToDate_iff]
    show ¬ (fs'.isUpToDate ⟨"/ast"⟩ ⟨"/out/l/l"⟩ _).result = true
    unfold FileSystem.isUpToDate
    rw [hmodified]
    exact Bool.false_ne_true

end Generator

end Registrar
