/-
# Opening a directory

Making a directory with the ones above it that are missing.  Whether that succeeds or fails
half-way, what was there stays as it was, and what is new are empty directories to which the path,
or a path above it, leads.
-/
import Registrar.Proofs.FileSystem.Directory

namespace Registrar

/-- A path, or one of the paths to the directories above it. -/
def Path.IsUpTo (r p : Path) : Prop :=
  r = p ∨ ∃ front, front <+: p.components ∧ r = Path.ofComponents front

namespace FileSystem

variable {fs fs' fs'' : FileSystem} {p : Path}

/-- Everything is as before, but there may be new directories to which a path, or a path above it,
leads. -/
structure Opens (p : Path) (fs fs' : FileSystem) : Prop where
  workingDirectory : fs'.workingDirectory = fs.workingDirectory
  places : ∀ q, fs'.bare? q = fs.bare? q ∨
    fs.bare? q = none ∧ fs'.bare? q = some (Node.emptyDirectory 0) ∧
      ∃ r : Path, r.IsUpTo p ∧ fs'.locate true r = .ok q

namespace Opens

/-- Where nothing happens nothing is opened. -/
theorem refl (p : Path) (fs : FileSystem) : Opens p fs fs :=
  ⟨rfl, fun _ => Or.inl rfl⟩

/-- What is opened are directories where nothing was. -/
theorem growsTo (h : Opens p fs fs') : GrowsTo fs fs' := by
  intro q
  rcases h.places q with hsame | ⟨hnone, hnew, -⟩
  · exact Or.inl (face?_eq_of_bare? hsame)
  · refine Or.inr ⟨(bare?_eq_none_iff fs q).1 hnone, ?_⟩
    rw [face?_eq_map_bare?, hnew]
    rfl

end Opens

/-- A path leads where it led before if nothing has happened but that directories were added. -/
theorem GrowsTo.locate_eq {followLast : Bool} {r : Path} {q : Location} (hgrows : GrowsTo fs fs')
    (hworking : fs'.workingDirectory = fs.workingDirectory)
    (h : fs.locate followLast r = .ok q) : fs'.locate followLast r = .ok q := by
  rw [← h]
  apply locate_congr (by rw [hworking])
  intro q' hq'
  obtain ⟨a, ha⟩ := Option.isSome_iff_exists.1 (isSome_face?_of_locate h q' hq')
  rw [ha]
  exact hgrows.face?_eq_some ha

theorem Opens.trans (h : Opens p fs fs') (h' : Opens p fs' fs'') : Opens p fs fs'' := by
  refine ⟨h'.workingDirectory.trans h.workingDirectory, fun q => ?_⟩
  rcases h.places q with hsame | ⟨hnone, hnew, r, hr, hlocate⟩
  · rcases h'.places q with hsame' | ⟨hnone', hnew', hlead'⟩
    · exact Or.inl (hsame'.trans hsame)
    · exact Or.inr ⟨hsame ▸ hnone', hnew', hlead'⟩
  · -- a directory that was new stays, and its path leads to it still
    rcases h'.places q with hsame' | ⟨hnone', -⟩
    · exact Or.inr ⟨hnone, hsame'.trans hnew, r, hr,
        h'.growsTo.locate_eq h'.workingDirectory hlocate⟩
    · rw [hnew] at hnone'
      exact absurd hnone' (by simp)

/-! ## Making one directory -/

/-- Empty pieces stay where they are. -/
theorem walk_empty (followLast : Bool) (location : Location) {back : List (List Char)}
    (h : ∀ piece ∈ back, piece = []) :
    fs.walk followLast location back = .done (.ok (.present location)) := by
  induction back with
  | nil => rfl
  | cons piece back ih =>
    obtain rfl := h piece List.mem_cons_self
    rw [walk_stay _ _ _ _ rfl]
    exact ih fun piece hpiece => h piece (List.mem_cons_of_mem _ hpiece)

/-- A path that names a directory leads to it. -/
theorem Names.locate_directory {directory : Location} {name : String} {last : List Char}
    {back : List (List Char)} (h : Names fs p directory name last back)
    (hdir : fs.isDirectoryAt (directory ++ [name]) = true) :
    fs.locate true p = .ok (directory ++ [name]) := by
  obtain ⟨isListable, hface⟩ := (isDirectoryAt_iff fs _).1 hdir
  have hwalk : fs.walk true directory (last :: back) =
      .done (.ok (.present (directory ++ [name]))) := by
    rw [walk_down _ _ _ _ h.move, hface]
    exact walk_empty true _ h.empty
  obtain ⟨l, hfollow, -⟩ := follow_append (List.cons_ne_nil last back) h.isDirectory h.follow true
  rw [← h.pieces, follow_of_done hwalk] at hfollow
  exact locate_of_follow h.check h.start hfollow

/-- A directory that was made is the only thing that is new, and its path leads to it. -/
theorem of_createDirectory (h : fs.createDirectory p = .ok fs') :
    ∃ place, fs'.workingDirectory = fs.workingDirectory ∧ fs.bare? place = none ∧
      fs'.bare? place = some (Node.emptyDirectory 0) ∧ fs'.locate true p = .ok place ∧
      ∀ q, q ≠ place → fs'.bare? q = fs.bare? q := by
  obtain ⟨above, name, hasSlash, hslot, hfree, rfl⟩ := of_addEntry h
  obtain ⟨-, last, back, hnames⟩ := names_of_slot hslot
  have hput := entryAt_setEntry_self hnames.isDirectory name (Node.emptyDirectory fs.nextTime)
  refine ⟨above ++ [name], rfl, ?_, ?_, ?_, ?_⟩
  · rw [bare?, hfree]
    rfl
  · rw [bare?, hput]
    rfl
  · obtain ⟨-, last', back', hnames'⟩ := names_of_slot (slot_setEntry_of_free hslot hfree _)
    exact hnames'.locate_directory (isDirectoryAt_of_entryAt hput)
  · intro q hq
    by_cases hunder : above ++ [name] <+: q
    · -- below the place there was nothing, and below an empty directory there is nothing
      obtain ⟨rest, rfl⟩ := hunder
      unfold bare?
      rw [entryAt_eq_none_of_isPrefix hfree (List.prefix_append _ rest),
        entryAt_setEntry hnames.isDirectory]
      cases rest with
      | nil => exact absurd (List.append_nil _) hq
      | cons other rest => rfl
    · exact bare?_setEntry hunder _

/-- A directory that is made is opened and nothing else. -/
theorem createDirectory_opens {r : Path} (hr : r.IsUpTo p) (h : fs.createDirectory r = .ok fs') :
    Opens p fs fs' := by
  obtain ⟨place, hworking, hnone, hnew, hlocate, hothers⟩ := of_createDirectory h
  refine ⟨hworking, fun q => ?_⟩
  by_cases hq : q = place
  · subst hq
    exact Or.inr ⟨hnone, hnew, r, hr, hlocate⟩
  · exact Or.inl (hothers q hq)

/-! ## Making a directory and those above it -/

section

variable {R : FileSystem → FileSystem → Prop}

/-- What holds of each single directory that is made holds of making a directory and those above it
that are missing, also if it fails half-way. -/
theorem createBelow_induction {r : Path} {cs : List Component} (refl : ∀ fs, R fs fs)
    (trans : ∀ {fs₁ fs₂ fs₃}, R fs₁ fs₂ → R fs₂ fs₃ → R fs₁ fs₃)
    (step : ∀ {r fs fs'}, r.IsUpTo p → fs.createDirectory r = .ok fs' → R fs fs')
    (fs : FileSystem) (hr : r.IsUpTo p) (hcs : cs.reverse <+: p.components) :
    R fs (fs.createBelow r cs).1 := by
  induction cs generalizing r with
  | nil => exact refl fs
  | cons c above ih =>
    rw [List.reverse_cons] at hcs
    have habove : above.reverse <+: p.components := (List.prefix_append _ [c]).trans hcs
    rw [createBelow]
    split
    · next hmade => exact step hr hmade
    · have hbelow : R fs (fs.createBelow (Path.ofComponents above.reverse) above).1 :=
        ih (Or.inr ⟨above.reverse, habove, rfl⟩) habove
      split
      · next hfailed => simpa [hfailed] using hbelow
      · next fs₁ hmade =>
        rw [hmade] at hbelow
        -- those above are there now, and the directory itself is tried once more
        split
        · next hmade' => exact trans hbelow (step hr hmade')
        · exact hbelow
    · exact refl fs

/-- What holds of each single directory that is made holds of all that are made for a path. -/
theorem createDirectories_induction (refl : ∀ fs, R fs fs)
    (trans : ∀ {fs₁ fs₂ fs₃}, R fs₁ fs₂ → R fs₂ fs₃ → R fs₁ fs₃)
    (step : ∀ {r fs fs'}, r.IsUpTo p → fs.createDirectory r = .ok fs' → R fs fs')
    (fs : FileSystem) : R fs (fs.createDirectories p).1 :=
  createBelow_induction refl trans step fs (Or.inl rfl) (by rw [List.reverse_reverse])

end

/-- Making a directory and those above it that are missing adds nothing but these directories, also
if it fails half-way. -/
theorem createDirectories_opens (fs : FileSystem) (p : Path) :
    Opens p fs (fs.createDirectories p).1 :=
  createDirectories_induction (Opens.refl p) Opens.trans createDirectory_opens fs

/-- Making a directory and those above it adds directories where nothing was. -/
theorem createDirectories_growsTo (fs : FileSystem) (p : Path) :
    GrowsTo fs (fs.createDirectories p).1 :=
  (createDirectories_opens fs p).growsTo

/-- The entry at a place is found by a path that leads there. -/
theorem entry_of_locate {q : Location} {n : Node} (h : fs.locate true p = .ok q)
    (hentry : fs.entry? q = some n) : fs.entry p = .ok n := by
  refine bind_eq_ok.2 ⟨q, h, ?_⟩
  rw [hentry]
  rfl

/-- A path that leads to a directory is one of a directory. -/
theorem isDirectory_of_locate {q : Location} (h : fs.locate true p = .ok q)
    (hdir : fs.isDirectoryAt q = true) : fs.isDirectory p = true := by
  unfold isDirectoryAt at hdir
  unfold isDirectory
  cases hentry : fs.entry? q with
  | none => exact absurd hdir (by simp [hentry])
  | some n =>
    rw [hentry] at hdir
    rw [entry_of_locate h hentry]
    exact hdir

/-- A directory that is made is there. -/
theorem isDirectory_of_createDirectory (h : fs.createDirectory p = .ok fs') :
    fs'.isDirectory p = true := by
  obtain ⟨place, -, -, hnew, hlocate, -⟩ := of_createDirectory h
  refine isDirectory_of_locate hlocate ?_
  rw [isDirectoryAt_iff]
  refine ⟨true, ?_⟩
  rw [face?_eq_map_bare?, hnew]
  rfl

/-- If it succeeds, then the path leads to a directory. -/
theorem isDirectory_of_createBelow {cs : List Component} (hcs : cs ≠ [])
    (h : fs.createBelow p cs = (fs', .ok ())) : fs'.isDirectory p = true := by
  obtain ⟨c, above, rfl⟩ := List.exists_cons_of_ne_nil hcs
  -- a step that is no success by itself is one if the directory is there
  have hthere : ∀ {fs₁ : FileSystem} {e : IoError},
      (fs₁, if fs₁.isDirectory p then .ok () else .error e) = (fs', Except.ok ()) →
        fs'.isDirectory p = true := by
    intro fs₁ e heq
    obtain ⟨rfl, hok⟩ := Prod.mk.inj heq
    split at hok
    · assumption
    · exact absurd hok (by simp)
  rw [createBelow] at h
  split at h
  · next hmade =>
    obtain ⟨rfl, -⟩ := Prod.mk.inj h
    exact isDirectory_of_createDirectory hmade
  · split at h
    · exact absurd (Prod.mk.inj h).2 (by simp)
    · split at h
      · next hmade =>
        obtain ⟨rfl, -⟩ := Prod.mk.inj h
        exact isDirectory_of_createDirectory hmade
      · exact hthere h
  · exact hthere h

end FileSystem

end Registrar
