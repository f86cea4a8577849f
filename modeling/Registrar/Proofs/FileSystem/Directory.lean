/-
# Adding and removing entries

An entry is added to the directory in which the path names it, or taken out of it.  Removing the
tree at a path changes nothing but the entry that the path names and what is in the directory that
it leads to.
-/
import Registrar.Proofs.FileSystem.Resolution

namespace Registrar.FileSystem

variable {fs fs' : FileSystem} {p : Path}

/-! ## Single entries -/

/-- What is known of a place where an entry was added. -/
theorem of_addEntry {n : Node} (h : fs.addEntry p n = .ok fs') :
    ∃ above name hasSlash, fs.slot p = .ok (.name above name hasSlash) ∧
      fs.entry? (above ++ [name]) = none ∧ fs' = fs.setEntry (above ++ [name]) (some n) := by
  obtain ⟨above, name, hasSlash, hslot, h⟩ := of_slot_bind (fun ending => by simp) h
  refine ⟨above, name, hasSlash, hslot, ?_⟩
  simp only at h
  split at h
  · exact absurd h (by simp)
  · next hfree =>
    split at h
    · exact absurd h (by simp)
    · exact ⟨by simpa using hfree, (Except.ok.inj h).symm⟩

/-- A file or a link that is removed is taken out of the directory in which the path names it. -/
theorem of_removeFile (h : fs.removeFile p = .ok fs') :
    ∃ above name hasSlash, fs.slot p = .ok (.name above name hasSlash) ∧
      fs' = fs.setEntry (above ++ [name]) none := by
  obtain ⟨above, name, hasSlash, hslot, h⟩ := of_slot_bind (fun ending => by simp) h
  refine ⟨above, name, hasSlash, hslot, ?_⟩
  simp only at h
  split at h
  · exact absurd h (by simp)
  · exact absurd h (by simp)
  · split at h
    · exact absurd h (by simp)
    · exact (Except.ok.inj h).symm

/-- A directory that is removed is taken out of the one in which the path names it. -/
theorem of_removeDirectory (h : fs.removeDirectory p = .ok fs') :
    ∃ above name hasSlash, fs.slot p = .ok (.name above name hasSlash) ∧
      fs' = fs.setEntry (above ++ [name]) none := by
  obtain ⟨above, name, hasSlash, hslot, h⟩ :=
    of_slot_bind (fun ending => by cases ending <;> simp) h
  refine ⟨above, name, hasSlash, hslot, ?_⟩
  simp only at h
  split at h
  · exact absurd h (by simp)
  · split at h
    · exact (Except.ok.inj h).symm
    · exact absurd h (by simp)
  · exact absurd h (by simp)

/-! ## Removing a tree -/

/-- A place below another one. -/
def Below (location q : Location) : Prop :=
  location <+: q ∧ q ≠ location

theorem Below.append {location q : Location} (h : Below location q) (name : String) :
    Below location (q ++ [name]) := by
  refine ⟨h.1.trans (List.prefix_append q [name]), fun heq => ?_⟩
  have hlength := h.1.length_le
  rw [← heq, List.length_append, List.length_singleton] at hlength
  omega

theorem not_below_nil (location : Location) : ¬ Below location [] := by
  rintro ⟨hunder, hne⟩
  exact hne (List.prefix_nil.1 hunder).symm

/-- What is in the directory that a path leads to. -/
def Inside (fs : FileSystem) (p : Path) (q : Location) : Prop :=
  ∃ directory, fs.locate true p = .ok directory ∧ fs.isDirectoryAt directory = true ∧
    Below directory q

/-- The entry that a path names with everything below it, and what is in the directory that the
path leads to. -/
def InTree (fs : FileSystem) (p : Path) (q : Location) : Prop :=
  fs.Inside p q ∨ ∃ above name hasSlash,
    fs.slot p = .ok (.name above name hasSlash) ∧ above ++ [name] <+: q

theorem face?_emptyDirectory (t : Instant) (q : Location) :
    ((Node.emptyDirectory t).get? q).map Node.face =
      if q = [] then some (.directory true) else none := by
  cases q <;> rfl

/-- Taking out what is in a directory changes nothing outside of it, and leaves nothing in it. -/
theorem emptied_agrees {q : Location} {modified t : Instant} {entries : List (String × Node)}
    (hentry : fs.entry? q = some (.directory modified true entries))
    (h : (if entries.isEmpty = true then fs
      else fs.modifyEntry q fun _ => Node.emptyDirectory t) = fs') :
    AgreeOutside (Below q) fs fs' ∧ ∀ r, Below q r → fs'.face? r = none := by
  -- an empty directory is not touched at all, and shows the same
  have hface : ∀ rest, fs'.face? (q ++ rest) =
      if rest = [] then some (.directory true) else none := by
    intro rest
    unfold face?
    by_cases hempty : entries.isEmpty = true
    · rw [if_pos hempty] at h
      rw [← h, entryAt_append, hentry, List.isEmpty_iff.1 hempty]
      cases rest <;> rfl
    · rw [if_neg hempty] at h
      rw [← h, entryAt_modifyEntry, hentry]
      exact face?_emptyDirectory t rest
  constructor
  · intro r hr
    by_cases hunder : q <+: r
    · obtain rfl : r = q := by
        by_contra hne
        exact hr ⟨hunder, hne⟩
      have hself := hface []
      rw [List.append_nil, if_pos rfl] at hself
      rw [hself, face?, hentry]
      rfl
    · rw [← h]
      split
      · rfl
      · exact modifyEntry_agrees fs q _ r hunder
  · rintro r ⟨⟨rest, rfl⟩, hne⟩
    rw [hface rest, if_neg]
    rintro rfl
    exact hne (List.append_nil q)

/-- The region below a directory that was emptied lets nothing pass. -/
theorem blocks_below {q : Location} (h : ∀ r, Below q r → fs.face? r = none) :
    Blocks (Below q) fs where
  below r name hr := hr.append name
  not_directory r hr := by
    rw [isDirectoryAt_eq_false_iff, h r hr]
    simp
  not_link r target hr := by
    rw [h r hr]
    simp

theorem setEntry_none_agrees {above : Location} {name : String} {hasSlash : Bool}
    (hslot : fs.slot p = .ok (.name above name hasSlash))
    (hfs : AgreeOutside (fs.InTree p) fs fs') :
    AgreeOutside (fs.InTree p) fs (fs'.setEntry (above ++ [name]) none) :=
  hfs.trans ((setEntry_agrees fs' _ none).mono
    fun _ hq => Or.inr ⟨above, name, hasSlash, hslot, hq⟩)

/-- A place that a path names after a region was blocked is named by it before, too. -/
theorem slot_eq_of_blocks {R : Location → Prop} (hp : p.isAbsolute = true)
    (hagree : AgreeOutside R fs fs') (hblocks : Blocks R fs') (hnil : ¬ R [])
    {above : Location} {name : String} {hasSlash : Bool}
    (h : fs'.slot p = .ok (.name above name hasSlash)) :
    fs.slot p = .ok (.name above name hasSlash) := by
  have hstart := start_of_isAbsolute fs.workingDirectory hp
  have hsame := start_congr fs'.workingDirectory fs.workingDirectory hp
  rcases slot_of_blocks hagree hblocks hsame (hstart ▸ hnil) with hfree | hnone
  · rw [← h]
    exact (slot_congr hsame fun q hq => hagree q (hfree q hq)).symm
  · exact absurd h (hnone above name hasSlash)

/-- What is below a directory that a path leads to is inside, whether or not a link at the end of
the path was to be followed. -/
theorem inside_of_locate {q r : Location} (hlocate : fs.locate false p = .ok q)
    (hdir : fs.isDirectoryAt q = true) (hr : Below q r) : fs.Inside p r := by
  obtain ⟨hcheck, hstart, hfollow⟩ := follow_of_locate hlocate
  obtain ⟨l, hl⟩ := (isDirectoryAt_iff fs q).1 hdir
  obtain ⟨hfollow', -⟩ := follow_true_of_follow_false hfollow (by rw [hl]; simp)
  exact ⟨q, locate_of_follow hcheck hstart hfollow', hdir, hr⟩

/-- Removing a tree takes away nothing but what the path stands for, also if it fails half-way. -/
theorem removeTree_agrees (fs : FileSystem) (hp : p.isAbsolute = true) :
    AgreeOutside (fs.InTree p) fs (fs.removeTree p).1 := by
  unfold removeTree
  split
  · exact AgreeOutside.refl _ fs
  · exact AgreeOutside.refl _ fs
  · exact AgreeOutside.refl _ fs
  · split
    · next fs₁ hremoved =>
      obtain ⟨above, name, hasSlash, hslot, rfl⟩ := of_removeFile hremoved
      exact setEntry_none_agrees hslot (AgreeOutside.refl _ fs)
    · exact AgreeOutside.refl _ fs
  · next modified isListable entries hlink =>
    split
    · exact AgreeOutside.refl _ fs
    · next hlistable =>
      split
      · exact AgreeOutside.refl _ fs
      · next location hlocate =>
        obtain ⟨q, hq, hentry⟩ := of_linkEntry hlink
        obtain rfl : q = location := Except.ok.inj (hq.symm.trans hlocate)
        have hlistable : isListable = true := by
          cases isListable with
          | true => rfl
          | false => exact absurd (by simp [Node.isAllListable]) hlistable
        have hdir : fs.isDirectoryAt q = true := by
          rw [isDirectoryAt_iff, face?, hentry]
          exact ⟨isListable, rfl⟩
        have hinside : ∀ r, Below q r → fs.InTree p r :=
          fun r hr => Or.inl (inside_of_locate hlocate hdir hr)
        generalize hemptied : (if entries.isEmpty = true then fs
          else fs.modifyEntry q fun _ => Node.emptyDirectory fs.nextTime) = emptied
        obtain ⟨hagree, hnone⟩ := emptied_agrees (hlistable ▸ hentry) hemptied
        simp only
        split
        · next fs₁ hremoved =>
          obtain ⟨above, name, hasSlash, hslot, rfl⟩ := of_removeDirectory hremoved
          -- the path names its own entry still, unless it went through what was taken out
          have hslot' := slot_eq_of_blocks hp hagree (blocks_below hnone) (not_below_nil q) hslot
          exact setEntry_none_agrees hslot' (hagree.mono hinside)
        · exact hagree.mono hinside
        · exact hagree.mono hinside

end Registrar.FileSystem
