/-
# Replacing a file

The contents of a file are replaced at once: they are written to a new file in the directory of the
old one, which then takes its place.  Afterwards the entry that the path names is a file with the
new contents, and nothing else has changed.
-/
import Mathlib.Data.List.Nodup
import Mathlib.Data.List.Perm.Subperm
import Registrar.Proofs.FileSystem.Directory

namespace Registrar.FileSystem

variable {fs fs' : FileSystem} {p : Path}

/-! ## New names -/

theorem toList_temporaryName (n : Nat) :
    (temporaryName n).toList = ['.', 't', 'm', 'p'] ++ (Nat.toDigits 10 n).leftpad 6 '0' := by
  unfold temporaryName
  rw [String.toList_append]
  exact congrArg (['.', 't', 'm', 'p'] ++ ·) String.toList_ofList

/-- The zeros in front do not change which number the digits are. -/
theorem ofDigitChars_leftpad_toDigits (width n : Nat) :
    Nat.ofDigitChars 10 ((Nat.toDigits 10 n).leftpad width '0') 0 = n := by
  rw [List.leftpad, Nat.ofDigitChars_append, Nat.ofDigitChars_replicate_zero, Nat.mul_zero,
    Nat.ofDigitChars_toDigits (by decide) (by decide)]

/-- Different numbers give different names. -/
theorem temporaryName_injective : Function.Injective temporaryName := by
  intro m n h
  have hdigits := congrArg String.toList h
  rw [toList_temporaryName, toList_temporaryName] at hdigits
  have hvalue := congrArg (Nat.ofDigitChars 10 · 0) (List.append_cancel_left hdigits)
  simpa only [ofDigitChars_leftpad_toDigits] using hvalue

/-- A temporary name is one name, not a way through a directory. -/
theorem slash_notMem_temporaryName (n : Nat) : '/' ∉ (temporaryName n).toList := by
  rw [toList_temporaryName, List.leftpad, List.mem_append, List.mem_append, not_or, not_or]
  refine ⟨by decide, fun hzero => ?_, fun hmem => ?_⟩
  · exact absurd (List.eq_of_mem_replicate hzero) (by decide)
  · have hdigit := Nat.isDigit_of_mem_toDigits (by decide) (by decide) hmem
    exact absurd hdigit (by decide)

/-- A new name is one of the names for temporary files, and a free one. -/
theorem exists_temporaryName (entries : List (String × Node)) :
    ∃ n, freshName entries = temporaryName n ∧ entries.lookup (temporaryName n) = none := by
  unfold freshName
  simp only
  cases hfind : ((List.range (entries.length + 1)).map temporaryName).find?
      fun name => (entries.lookup name).isNone with
  | some name =>
    have hmem := List.mem_of_find?_eq_some hfind
    obtain ⟨n, -, rfl⟩ := List.mem_map.1 hmem
    exact ⟨n, rfl, by simpa using List.find?_some hfind⟩
  | none =>
    -- there are more candidates than entries, so they cannot all be taken
    exfalso
    have htaken : (List.range (entries.length + 1)).map temporaryName ⊆
        entries.map Prod.fst := by
      intro name hname
      have hsome := List.find?_eq_none.1 hfind name hname
      obtain ⟨n, hn⟩ : ∃ n, (name, n) ∈ entries := by simpa using hsome
      exact List.mem_map.2 ⟨(name, n), hn, rfl⟩
    have hnodup := (List.nodup_range (n := entries.length + 1)).map temporaryName_injective
    have hlength := (hnodup.subperm htaken).length_le
    rw [List.length_map, List.length_map, List.length_range] at hlength
    omega

/-- A new name in a directory is free and holds no slash. -/
theorem freshName_spec (entries : List (String × Node)) :
    entries.lookup (freshName entries) = none ∧ '/' ∉ (freshName entries).toList ∧
      (freshName entries).toList ≠ [] := by
  obtain ⟨n, hname, hfree⟩ := exists_temporaryName entries
  rw [hname]
  refine ⟨hfree, slash_notMem_temporaryName n, ?_⟩
  rw [toList_temporaryName]
  simp

/-! ## A name behind a path -/

theorem text_ne_of_locate {followLast : Bool} {q : Location}
    (h : fs.locate followLast p = .ok q) : p.text ≠ "" := by
  have hcheck := (follow_of_locate h).1
  unfold checkText at hcheck
  rintro htext
  rw [htext] at hcheck
  exact absurd hcheck (by simp)

/-- An empty piece at the end of a path that leads to a directory does not count. -/
theorem follow_of_pieces {directory : Location} {pieces : List (List Char)}
    (hpieces : p.pieces = pieces ∨ p.pieces = pieces ++ [[]])
    (hlocate : fs.locate true p = .ok directory) :
    fs.follow true maxLinks (start fs.workingDirectory p) pieces = .ok (.present directory) ∧
      fs.followPlaces true maxLinks (start fs.workingDirectory p) pieces ⊆ fs.places true p := by
  obtain ⟨-, hstart, hfollow⟩ := follow_of_locate hlocate
  unfold places
  rcases hpieces with hp | hp
  · rw [hp] at hfollow ⊢
    exact ⟨hfollow, List.Subset.refl _⟩
  · have hback : [([] : List Char)] ≠ [] := List.cons_ne_nil [] []
    rw [hp] at hfollow ⊢
    -- the empty piece is walked from where the others lead, and stays there
    obtain ⟨d, hd, hdir⟩ := exists_of_follow_append hback hstart hfollow
    obtain ⟨l, hl, -⟩ := follow_append hback hdir hd true
    have hwalk : fs.walk true d [[]] = .done (.ok (.present d)) := by
      rw [walk_stay _ _ _ _ rfl]
      rfl
    rw [hfollow, follow_of_done hwalk] at hl
    obtain rfl : directory = d := by simpa using hl
    exact ⟨hd, followPlaces_subset_append hback⟩

/-- A name behind the path of a directory names an entry of that directory. -/
theorem slot_div {directory above : Location} {name name' : String} {hasSlash : Bool}
    (hslash : '/' ∉ name.toList) (hne : name.toList ≠ [])
    (hdirectory : fs.locate true p = .ok directory)
    (hslot : fs.slot (p / name) = .ok (.name above name' hasSlash)) :
    above = directory ∧ name' = name := by
  have htext := text_ne_of_locate hdirectory
  obtain ⟨pieces, hp, hpieces⟩ := Path.pieces_div htext hslash
  obtain ⟨-, last, back, hnames⟩ := names_of_slot hslot
  have hfront := Path.front_eq_of_pieces hne hpieces
  have hstart : start fs.workingDirectory (p / name) = start fs.workingDirectory p := by
    unfold start
    rw [Path.isAbsolute_div_of_ne htext hslash]
  have hlast := hnames.pieces
  rw [hpieces, hfront] at hlast
  -- the last piece is the name, so what is in front of it is the way to the directory
  obtain ⟨rfl, -⟩ := List.cons.inj (List.append_cancel_left hlast)
  have hfollow := hnames.follow
  rw [hfront, hstart] at hfollow
  constructor
  · have hlead := (follow_of_pieces hp hdirectory).1
    rw [hfollow] at hlead
    simpa using hlead
  · have hmove := Move.spelled hnames.move
    cases hmove with
    | down => exact String.ofList_toList

/-! ## Writing a new file -/

/-- A file that is written to a free place is put there. -/
theorem of_writeFile_of_free {directory : Location} {name : String} {contents : ByteArray}
    (hslash : '/' ∉ name.toList) (hne : name.toList ≠ [])
    (hdirectory : fs.locate true p = .ok directory)
    (hfree : fs.entry? (directory ++ [name]) = none)
    (h : fs.writeFile (p / name) contents = .ok fs') :
    fs.slot (p / name) = .ok (.name directory name false) ∧
      fs' = fs.setEntry (directory ++ [name]) (some (.file fs.nextTime false contents)) := by
  unfold writeFile at h
  obtain ⟨location, hlocation, h⟩ := bind_eq_ok.1 h
  rw [fileSlot] at hlocation
  obtain ⟨s, hslot, hlocation⟩ := bind_eq_ok.1 hlocation
  cases s with
  | unnamed ending => exact absurd hlocation (by simp)
  | name above name' hasSlash =>
    obtain ⟨rfl, rfl⟩ := slot_div hslash hne hdirectory hslot
    cases hasSlash with
    | true => exact absurd hlocation (by simp)
    | false =>
      simp only [Bool.false_eq_true, if_false, hfree] at hlocation
      obtain rfl := Except.ok.inj hlocation
      rw [hfree] at h
      exact ⟨hslot, (Except.ok.inj h).symm⟩

/-! ## Moving the new file -/

/-- What is known of a file that was moved to the place that another path names: it is there now,
and its own place is free. -/
theorem of_rename_file {source : Path} {origin : Location} {directory : Location} {name : String}
    {n : Node} (horigin : origin = directory ++ [name])
    (hsource : fs.slot source = .ok (.name directory name false))
    (hentry : fs.entry? origin = some n) (hfile : n.isDirectory = false)
    (h : fs.rename source p = .ok fs') :
    ∃ above text, fs.slot p = .ok (.name above text false) ∧
      (above ++ [text] = origin ∧ fs' = fs ∨
        ¬ origin <+: above ++ [text] ∧ ¬ above ++ [text] <+: origin ∧
          fs.isDirectoryAt (above ++ [text]) = false ∧
          fs' = (fs.setEntry origin none).setEntry (above ++ [text]) (some n)) := by
  subst horigin
  unfold rename at h
  obtain ⟨s, hs, h⟩ := bind_eq_ok.1 h
  obtain ⟨s', hs', h⟩ := bind_eq_ok.1 h
  obtain rfl := Except.ok.inj (hs.symm.trans hsource)
  cases s' with
  | unnamed ending => exact absurd h (by simp)
  | name above text hasSlash =>
    -- what is moved is no directory, so nothing with a slash behind it can take part
    simp only [hentry, hfile, Bool.not_false, Bool.true_and, Bool.false_or] at h
    cases hasSlash with
    | true => exact absurd h (by simp)
    | false =>
      refine ⟨above, text, hs', ?_⟩
      rw [if_neg (by simp)] at h
      split at h
      · next hsame => exact Or.inl ⟨hsame, (Except.ok.inj h).symm⟩
      · split at h
        · exact absurd h (by simp)
        · next hbelow =>
          split at h
          · exact absurd h (by simp)
          · next habove =>
            refine Or.inr ⟨?_, ?_, ?_⟩
            · rwa [List.isPrefixOf_iff_prefix] at hbelow
            · rwa [List.isPrefixOf_iff_prefix] at habove
            · unfold isDirectoryAt
              split at h
              · next hnone => exact ⟨by rw [hnone]; rfl, (Except.ok.inj h).symm⟩
              · exact absurd h (by simp)
              · next old hleaf hold =>
                refine ⟨?_, (Except.ok.inj h).symm⟩
                rw [hold]
                cases old with
                | directory modified isListable entries =>
                  exact absurd rfl (hleaf modified isListable entries)
                | file | link | device => rfl

/-! ## Replacing a file -/

/-- A region that consists of what is no directory and no link, and of what is below it, lets
nothing pass. -/
theorem blocks_leaf {q : Location} (hleaf : fs.isDirectoryAt q = false)
    (hlink : ∀ target, fs.face? q ≠ some (.link target)) : Blocks (q <+: ·) fs := by
  have hface : ∀ rest, rest ≠ [] → fs.face? (q ++ rest) = none := by
    intro rest hrest
    rw [face?_eq_none_iff, entryAt_eq_none_of_not_directory hleaf hrest]
  refine ⟨fun r name hr => hr.trans (List.prefix_append r [name]), ?_, ?_⟩
  · rintro r ⟨rest, rfl⟩
    by_cases hrest : rest = []
    · rw [hrest, List.append_nil, hleaf]
    · rw [isDirectoryAt_eq_false_iff, hface rest hrest]
      simp
  · rintro r target ⟨rest, rfl⟩
    by_cases hrest : rest = []
    · rw [hrest, List.append_nil]
      exact hlink target
    · rw [hface rest hrest]
      simp

theorem blocks_file {q : Location} {isExecutable : Bool} {contents : ByteArray}
    (h : fs.face? q = some (.file isExecutable contents)) : Blocks (q <+: ·) fs := by
  refine blocks_leaf ?_ ?_
  · rw [isDirectoryAt_eq_false_iff, h]
    simp
  · rw [h]
    simp

/-- A new file is written next to the old one, in the directory above it. -/
theorem of_replaceFile {contents : ByteArray} (h : fs.replaceFile p contents = .ok fs') :
    ∃ source directory name, fs.slot source = .ok (.name directory name false) ∧
      fs.isDirectoryAt directory = true ∧ fs.entry? (directory ++ [name]) = none ∧
      rename (fs.setEntry (directory ++ [name]) (some (.file fs.nextTime false contents)))
        source p = .ok fs' := by
  unfold replaceFile at h
  obtain ⟨n, hentry, h⟩ := bind_eq_ok.1 h
  cases n with
  | file | link | device => exact absurd h (by simp)
  | directory modified isListable entries =>
    obtain ⟨directory, hlocate, hdirectory⟩ := of_entry hentry
    obtain ⟨hfree, hslash, hne⟩ := freshName_spec entries
    have hplace : fs.entry? (directory ++ [freshName entries]) = none := by
      rw [entryAt_append, hdirectory]
      show (entries.lookup (freshName entries)).bind (Node.get? []) = none
      rw [hfree]
      rfl
    obtain ⟨written, hwritten, hrename⟩ := bind_eq_ok.1 h
    obtain ⟨hslot, rfl⟩ := of_writeFile_of_free hslash hne hlocate hplace hwritten
    obtain ⟨-, last, back, hnames⟩ := names_of_slot hslot
    exact ⟨_, directory, freshName entries, hslot, hnames.isDirectory, hplace, hrename⟩

theorem concat_not_above (above : Location) (name : String) : ¬ above ++ [name] <+: above := by
  intro hunder
  have hlength := hunder.length_le
  rw [List.length_append, List.length_singleton] at hlength
  omega

/-- A file with the given contents was put at the place that a path names.  There was no directory
at this place, and every other place is as before. -/
structure PutsFile (fs : FileSystem) (p : Path) (contents : ByteArray) (above : Location)
    (name : String) (fs' : FileSystem) : Prop where
  workingDirectory : fs'.workingDirectory = fs.workingDirectory
  slot : fs.slot p = .ok (.name above name false)
  not_directory : fs.isDirectoryAt (above ++ [name]) = false
  others : ∀ q, q ≠ above ++ [name] → fs'.bare? q = fs.bare? q
  file : ∃ modified, fs'.entry? (above ++ [name]) = some (.file modified false contents)

namespace PutsFile

variable {contents : ByteArray} {above : Location} {name : String}

theorem agrees (h : PutsFile fs p contents above name fs') :
    AgreeOutside (above ++ [name] <+: ·) fs fs' := by
  intro q hq
  refine face?_eq_of_bare? (h.others q ?_)
  rintro rfl
  exact hq (List.prefix_refl _)

theorem face?_eq (h : PutsFile fs p contents above name fs') :
    fs'.face? (above ++ [name]) = some (.file false contents) := by
  obtain ⟨modified, hentry⟩ := h.file
  rw [face?, hentry]
  rfl

end PutsFile

/-- Below a place that is no directory there is nothing, before a file is put there and after it. -/
theorem bare?_of_leaves {q r : Location} (hunder : q <+: r) (hne : r ≠ q)
    (h : fs.isDirectoryAt q = false) (h' : fs'.isDirectoryAt q = false) :
    fs'.bare? r = fs.bare? r := by
  obtain ⟨rest, rfl⟩ := hunder
  have hrest : rest ≠ [] := by
    rintro rfl
    exact hne (List.append_nil q)
  unfold bare?
  rw [entryAt_eq_none_of_not_directory h hrest, entryAt_eq_none_of_not_directory h' hrest]

/-- A new file that is moved to the place that a path names is there afterwards, and nothing else
has changed since before it was made. -/
theorem moved_puts {written : FileSystem} {source : Path} {directory : Location} {text : String}
    {modified : Instant} {contents : ByteArray} (hp : p.isAbsolute = true)
    (hworking : written.workingDirectory = fs.workingDirectory)
    (hdirectory : written.isDirectoryAt directory = true)
    (hsame : ∀ q, ¬ directory ++ [text] <+: q → written.bare? q = fs.bare? q)
    (hfree : fs.entry? (directory ++ [text]) = none)
    (hentry : written.entry? (directory ++ [text]) = some (.file modified false contents))
    (hsource : written.slot source = .ok (.name directory text false))
    (h : written.rename source p = .ok fs') :
    ∃ above name, fs.PutsFile p contents above name fs' := by
  have hagree : AgreeOutside (directory ++ [text] <+: ·) fs written :=
    fun q hq => face?_eq_of_bare? (hsame q hq)
  have hwritten : written.face? (directory ++ [text]) = some (.file false contents) := by
    rw [face?, hentry]
    rfl
  have hnil : ¬ directory ++ [text] <+: [] := by
    rw [List.prefix_nil]
    simp
  obtain ⟨above, name, hslot, hcases⟩ := of_rename_file rfl hsource hentry rfl h
  have hslot' := slot_eq_of_blocks hp hagree (blocks_file hwritten) hnil hslot
  refine ⟨above, name, ?_⟩
  rcases hcases with ⟨hplace, rfl⟩ | ⟨hbelow, habove, hleaf, rfl⟩
  · -- the new file had the name that it was to get, so it stayed where it was
    rw [← hplace] at hentry hsame hfree
    have hleaf : fs.isDirectoryAt (above ++ [name]) = false := by
      unfold isDirectoryAt
      rw [hfree]
      rfl
    refine ⟨hworking, hslot', hleaf, fun q hq => ?_, modified, hentry⟩
    by_cases hunder : above ++ [name] <+: q
    · exact bare?_of_leaves hunder hq hleaf (isDirectoryAt_of_entryAt hentry)
    · exact hsame q hunder
  · obtain ⟨-, last, back, hnames⟩ := names_of_slot hslot
    have htaken : ∀ q, ¬ directory ++ [text] <+: q →
        bare? (written.setEntry (directory ++ [text]) none) q = fs.bare? q :=
      fun q hq => (bare?_setEntry hq none).trans (hsame q hq)
    -- the directory of the old file does not lie in the new one
    have habove' : isDirectoryAt (written.setEntry (directory ++ [text]) none) above = true := by
      rw [isDirectoryAt_congr (setEntry_agrees written _ none above fun hunder =>
        hbelow (hunder.trans (List.prefix_append above [name])))]
      exact hnames.isDirectory
    have hput := entryAt_setEntry_self habove' name (.file modified false contents)
    rw [isDirectoryAt_congr (hagree _ hbelow)] at hleaf
    refine ⟨hworking, hslot', hleaf, fun q hq => ?_, modified, hput⟩
    by_cases hunder : above ++ [name] <+: q
    · exact bare?_of_leaves hunder hq hleaf (isDirectoryAt_of_entryAt hput)
    · rw [bare?_setEntry hunder]
      by_cases hnew : directory ++ [text] <+: q
      · -- the place of the new file is free again
        unfold bare?
        rw [entryAt_eq_none_of_isPrefix hfree hnew]
        obtain ⟨rest, rfl⟩ := hnew
        rw [entryAt_setEntry hdirectory text rest none]
        rfl
      · exact htaken q hnew

/-- Replacing a file puts one with the new contents at the place that the path names, and changes
nothing else. -/
theorem replaceFile_puts (hp : p.isAbsolute = true) {contents : ByteArray}
    (h : fs.replaceFile p contents = .ok fs') :
    ∃ above name, PutsFile fs p contents above name fs' := by
  obtain ⟨source, directory, text, hsource, hdirectory, hfree, hrename⟩ := of_replaceFile h
  have hsame : ∀ q, ¬ directory ++ [text] <+: q →
      bare? (fs.setEntry (directory ++ [text]) (some (.file fs.nextTime false contents))) q =
        fs.bare? q :=
    fun q hq => bare?_setEntry hq _
  have hdirectory' : isDirectoryAt
      (fs.setEntry (directory ++ [text]) (some (.file fs.nextTime false contents))) directory =
        true := by
    rw [isDirectoryAt_congr (face?_eq_of_bare? (hsame directory (concat_not_above directory text)))]
    exact hdirectory
  have hentry := entryAt_setEntry_self hdirectory text (.file fs.nextTime false contents)
  have hsource' := slot_setEntry_of_free hsource hfree (some (.file fs.nextTime false contents))
  have hworking : (fs.setEntry (directory ++ [text])
    (some (.file fs.nextTime false contents))).workingDirectory = fs.workingDirectory := rfl
  exact moved_puts hp hworking hdirectory' hsame hfree hentry hsource' hrename

/-- Seen without times, replacing a file shows at its place only. -/
theorem replaceFile_spec (hp : p.isAbsolute = true) {contents : ByteArray}
    (h : fs.replaceFile p contents = .ok fs') :
    ∃ above name, fs.slot p = .ok (.name above name false) ∧
      AgreeOutside (above ++ [name] <+: ·) fs fs' ∧
      fs'.face? (above ++ [name]) = some (.file false contents) := by
  obtain ⟨above, name, hputs⟩ := replaceFile_puts hp h
  exact ⟨above, name, hputs.slot, hputs.agrees, hputs.face?_eq⟩

/-- If the way to the directory of a file does not lead through the file, then its path leads to the
new one. -/
theorem locate_of_replaced {above : Location} {name : String} {isExecutable : Bool}
    {contents : ByteArray} (hp : p.isAbsolute = true)
    (hslot : fs.slot p = .ok (.name above name false))
    (hagree : AgreeOutside (above ++ [name] <+: ·) fs fs')
    (hface : fs'.face? (above ++ [name]) = some (.file isExecutable contents))
    (hdirect : ∀ q ∈ fs.slotPlaces p, ¬ above ++ [name] <+: q) :
    fs'.locate true p = .ok (above ++ [name]) ∧
      ∀ q ∈ fs'.places true p, q ∈ fs.slotPlaces p ∨ q = above ++ [name] := by
  have hstart := start_congr fs'.workingDirectory fs.workingDirectory hp
  have hsame : ∀ q ∈ fs.slotPlaces p, fs'.face? q = fs.face? q := fun q hq =>
    hagree q (hdirect q hq)
  have hslot' := (slot_congr hstart hsame).trans hslot
  have hplaces := slotPlaces_congr hstart hsame
  obtain ⟨hslash, last, back, hnames⟩ := names_of_slot hslot'
  obtain ⟨hlocate, hway⟩ := hnames.locate_eq hslash.symm hface
  rw [hplaces] at hway
  exact ⟨hlocate, hway⟩

/-- If the way to the directory of a file does not lead through the file, then the new contents are
read under its path. -/
theorem contents?_of_replaced {above : Location} {name : String} {isExecutable : Bool}
    {contents : ByteArray} (hp : p.isAbsolute = true)
    (hslot : fs.slot p = .ok (.name above name false))
    (hagree : AgreeOutside (above ++ [name] <+: ·) fs fs')
    (hface : fs'.face? (above ++ [name]) = some (.file isExecutable contents))
    (hdirect : ∀ q ∈ fs.slotPlaces p, ¬ above ++ [name] <+: q) :
    fs'.contents? p = some contents ∧
      ∀ q ∈ fs'.places true p, q ∈ fs.slotPlaces p ∨ q = above ++ [name] := by
  obtain ⟨hlocate, hway⟩ := locate_of_replaced hp hslot hagree hface hdirect
  refine ⟨?_, hway⟩
  rw [contents?_eq, leadsTo?_eq_some_iff.2 ⟨_, hlocate, hface⟩]
  rfl

/-- The path of a file leads somewhere afterwards exactly if the way to its directory does not lead
through the file, and then it leads to the file. -/
theorem PutsFile.locate_eq_ok_iff {above q : Location} {name : String} {contents : ByteArray}
    (h : PutsFile fs p contents above name fs') (hp : p.isAbsolute = true) :
    fs'.locate true p = .ok q ↔
      q = above ++ [name] ∧ ∀ r ∈ fs.slotPlaces p, ¬ above ++ [name] <+: r := by
  constructor
  · intro hlocate
    have hnil : ¬ above ++ [name] <+: start fs.workingDirectory p := by
      rw [start_of_isAbsolute _ hp, List.prefix_nil]
      simp
    have hdirect := not_mem_slotPlaces_of_locate h.agrees (blocks_file h.face?_eq)
      (start_congr _ _ hp) hnil hlocate
    have hplace := (locate_of_replaced hp h.slot h.agrees h.face?_eq hdirect).1
    exact ⟨Except.ok.inj (hlocate.symm.trans hplace), hdirect⟩
  · rintro ⟨rfl, hdirect⟩
    exact (locate_of_replaced hp h.slot h.agrees h.face?_eq hdirect).1

/-- The new contents are read under the path of a file exactly if the way to its directory does not
lead through the file. -/
theorem PutsFile.contents?_iff {above : Location} {name : String} {contents : ByteArray}
    (h : PutsFile fs p contents above name fs') (hp : p.isAbsolute = true) :
    fs'.contents? p = some contents ↔ ∀ q ∈ fs.slotPlaces p, ¬ above ++ [name] <+: q := by
  constructor
  · intro hcontents
    rw [contents?_eq] at hcontents
    obtain ⟨a, ha, -⟩ := Option.bind_eq_some_iff.1 hcontents
    obtain ⟨q, hlocate, -⟩ := leadsTo?_eq_some_iff.1 ha
    exact ((h.locate_eq_ok_iff hp).1 hlocate).2
  · exact fun hdirect => (contents?_of_replaced hp h.slot h.agrees h.face?_eq hdirect).1

end Registrar.FileSystem
