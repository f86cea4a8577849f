/-
# Paths as a whole

The places of a path, what is read at its end, and the place that it names for an entry.  Each of
them depends on what is at the places of the path, and on nothing else.
-/
import Registrar.Proofs.FileSystem.Obstacle
import Registrar.Proofs.Path.Pieces

namespace Registrar

namespace FileSystem

variable {R : Location → Prop} {fs fs' : FileSystem} {p : Path}

/-- Two steps succeed exactly if the first one does, and the second one on what it gives. -/
theorem bind_eq_ok {ε α β : Type} {x : Except ε α} {f : α → Except ε β} {b : β} :
    x >>= f = .ok b ↔ ∃ a, x = .ok a ∧ f a = .ok b := by
  cases x <;> simp [bind, Except.bind]

@[simp] theorem throw_ne_ok {ε α : Type} (e : ε) (a : α) : (throw e : Except ε α) ≠ .ok a := by
  simp [throw, throwThe, MonadExceptOf.throw]

/-- An absolute path is walked from the root. -/
theorem start_of_isAbsolute (directory : Location) (hp : p.isAbsolute = true) :
    start directory p = [] := by
  unfold start
  rw [if_pos hp]

/-- An absolute path is walked from the root, whatever the working directory. -/
theorem start_congr (directory directory' : Location) (hp : p.isAbsolute = true) :
    start directory p = start directory' p := by
  rw [start_of_isAbsolute directory hp, start_of_isAbsolute directory' hp]

/-! ## Where a path leads -/

/-- The places that are looked at on the way of a path. -/
def places (fs : FileSystem) (followLast : Bool) (p : Path) : List Location :=
  fs.followPlaces followLast maxLinks (start fs.workingDirectory p) p.pieces

/-- The pieces of a path lead where they led if the places on the way are as before. -/
theorem resolvePieces_congr {followLast : Bool} {directory : Location}
    {pieces : List (List Char)}
    (h : ∀ q ∈ fs.followPlaces followLast maxLinks directory pieces, fs'.face? q = fs.face? q) :
    fs'.resolvePieces followLast directory pieces =
      fs.resolvePieces followLast directory pieces := by
  unfold resolvePieces
  rw [isDirectoryAt_congr (h _ (mem_followPlaces_self fs _ _ _ _)), (follow_congr h).1]

/-- Pieces that lead somewhere are followed from a directory. -/
theorem follow_of_resolvePieces {followLast : Bool} {directory : Location}
    {pieces : List (List Char)} {t : Target}
    (h : fs.resolvePieces followLast directory pieces = .ok t) :
    fs.isDirectoryAt directory = true ∧
      fs.follow followLast maxLinks directory pieces = .ok t := by
  unfold resolvePieces at h
  split at h
  · exact absurd h (by simp)
  · next hdir => exact ⟨by simpa using hdir, h⟩

/-- Two file systems with the same places on the way of a path. -/
theorem resolve_congr {followLast : Bool}
    (hstart : start fs'.workingDirectory p = start fs.workingDirectory p)
    (h : ∀ q ∈ fs.places followLast p, fs'.face? q = fs.face? q) :
    fs'.resolve followLast p = fs.resolve followLast p ∧
      fs'.places followLast p = fs.places followLast p := by
  unfold resolve resolveFrom places
  rw [hstart, resolvePieces_congr h, (follow_congr h).2]
  exact ⟨rfl, rfl⟩

/-- A path that leads somewhere has a text that may be a path, and its pieces are followed from a
directory. -/
theorem follow_of_locate {followLast : Bool} {q : Location}
    (h : fs.locate followLast p = .ok q) :
    checkText p = .ok () ∧ fs.isDirectoryAt (start fs.workingDirectory p) = true ∧
      fs.follow followLast maxLinks (start fs.workingDirectory p) p.pieces =
        .ok (.present q) := by
  unfold locate resolve resolveFrom at h
  obtain ⟨t, ht, h⟩ := bind_eq_ok.1 h
  obtain ⟨u, hcheck, ht⟩ := bind_eq_ok.1 ht
  obtain ⟨hdir, hfollow⟩ := follow_of_resolvePieces ht
  cases t with
  | absent q' asDirectory => exact absurd h (by simp)
  | present q' =>
    obtain rfl : q' = q := Except.ok.inj h
    exact ⟨hcheck, hdir, hfollow⟩

/-- A path leads where its pieces lead. -/
theorem locate_of_follow {followLast : Bool} {q : Location} (hcheck : checkText p = .ok ())
    (hdir : fs.isDirectoryAt (start fs.workingDirectory p) = true)
    (h : fs.follow followLast maxLinks (start fs.workingDirectory p) p.pieces =
      .ok (.present q)) :
    fs.locate followLast p = .ok q := by
  unfold locate resolve resolveFrom resolvePieces
  rw [hcheck, hdir, h]
  rfl

/-- A path leads where it led if the places on the way are as before. -/
theorem locate_congr {followLast : Bool}
    (hstart : start fs'.workingDirectory p = start fs.workingDirectory p)
    (h : ∀ q ∈ fs.places followLast p, fs'.face? q = fs.face? q) :
    fs'.locate followLast p = fs.locate followLast p := by
  unfold locate
  rw [(resolve_congr hstart h).1]

/-- The place that a path leads to is one of those on its way. -/
theorem mem_places_of_locate {followLast : Bool} {q : Location}
    (h : fs.locate followLast p = .ok q) : q ∈ fs.places followLast p :=
  mem_followPlaces_of_present (follow_of_locate h).2.2

/-- Something is at every place on the way of a path that leads to an entry. -/
theorem isSome_face?_of_locate {followLast : Bool} {q : Location}
    (h : fs.locate followLast p = .ok q) :
    ∀ q ∈ fs.places followLast p, (fs.face? q).isSome := by
  obtain ⟨-, hdir, hfollow⟩ := follow_of_locate h
  obtain ⟨l, hl⟩ := (isDirectoryAt_iff fs _).1 hdir
  exact isSome_face?_of_follow (by rw [hl]; rfl) hfollow

/-- What is read at the location that a path leads to is the entry there. -/
theorem of_locate_bind {followLast : Bool} {n : Node}
    (h : (fs.locate followLast p >>= fun location =>
      match fs.entry? location with
      | some n => pure n
      | none => throw .notFound) = .ok n) :
    ∃ q, fs.locate followLast p = .ok q ∧ fs.entry? q = some n := by
  obtain ⟨q, hlocate, h⟩ := bind_eq_ok.1 h
  refine ⟨q, hlocate, ?_⟩
  split at h
  · next n' hentry => rw [hentry, Except.ok.inj h]
  · exact absurd h (by simp)

/-- The entry that is found under a path stands where the path leads. -/
theorem of_entry {n : Node} (h : fs.entry p = .ok n) :
    ∃ q, fs.locate true p = .ok q ∧ fs.entry? q = some n :=
  of_locate_bind h

/-- The entry that is found under a path with the last link unfollowed stands where the path then
leads. -/
theorem of_linkEntry {n : Node} (h : fs.linkEntry p = .ok n) :
    ∃ q, fs.locate false p = .ok q ∧ fs.entry? q = some n :=
  of_locate_bind h

/-! ## What a path leads to -/

/-- The kind of the entry that a path leads to, with what can be read of it. -/
def leadsTo? (fs : FileSystem) (p : Path) : Option Face :=
  (fs.locate true p).toOption.bind fs.face?

/-- What a path leads to is the face of the place that it leads to. -/
theorem leadsTo?_eq_some_iff {a : Face} :
    fs.leadsTo? p = some a ↔ ∃ q, fs.locate true p = .ok q ∧ fs.face? q = some a := by
  unfold leadsTo?
  cases fs.locate true p <;> simp [Except.toOption]

/-- What a path leads to depends on nothing but the places on its way. -/
theorem leadsTo?_congr
    (hstart : start fs'.workingDirectory p = start fs.workingDirectory p)
    (h : ∀ q ∈ fs.places true p, fs'.face? q = fs.face? q) :
    fs'.leadsTo? p = fs.leadsTo? p := by
  unfold leadsTo?
  rw [locate_congr hstart h]
  cases hlocate : fs.locate true p with
  | error e => rfl
  | ok q => exact h q (mem_places_of_locate hlocate)

/-- Directories where nothing was do not hide anything. -/
theorem GrowsTo.leadsTo?_eq_some {a : Face} (hgrows : GrowsTo fs fs')
    (hstart : start fs'.workingDirectory p = start fs.workingDirectory p)
    (h : fs.leadsTo? p = some a) : fs'.leadsTo? p = some a := by
  obtain ⟨q, hq, -⟩ := leadsTo?_eq_some_iff.1 h
  rw [← h]
  apply leadsTo?_congr hstart
  intro q' hq'
  obtain ⟨b, hb⟩ := Option.isSome_iff_exists.1 (isSome_face?_of_locate hq q' hq')
  rw [hb]
  exact hgrows.face?_eq_some hb

/-- What is read of an entry of this kind. -/
def Face.contents? : Face → Option ByteArray
  | .file _ contents => some contents
  | .device => some ByteArray.empty
  | _ => none

/-- The contents of the file that a path leads to, if it leads to one. -/
def contents? (fs : FileSystem) (p : Path) : Option ByteArray :=
  (fs.readFile p).toOption

/-- What is read of the entry that a path leads to is told by its face. -/
theorem leadsTo?_eq_map_entry (fs : FileSystem) (p : Path) :
    fs.leadsTo? p = (fs.entry p).toOption.map Node.face := by
  unfold leadsTo? entry
  cases hlocate : fs.locate true p with
  | error e => rfl
  | ok q =>
    show fs.face? q = _
    unfold face?
    cases hq : fs.entry? q with
    | none => simp [bind, Except.bind, hq, Except.toOption, throw, throwThe, MonadExceptOf.throw]
    | some n => simp [bind, Except.bind, hq, Except.toOption, pure, Except.pure]

theorem contents?_eq (fs : FileSystem) (p : Path) :
    fs.contents? p = (fs.leadsTo? p).bind Face.contents? := by
  rw [leadsTo?_eq_map_entry]
  unfold contents? readFile
  cases fs.entry p with
  | error e => rfl
  | ok n => cases n <;> rfl

/-- A path that meets a region through which nothing passes leads into it or nowhere. -/
theorem locate_of_blocks {followLast : Bool} (hagree : AgreeOutside R fs fs')
    (hblocks : Blocks R fs')
    (hstart : start fs'.workingDirectory p = start fs.workingDirectory p)
    (hnot : ¬ R (start fs.workingDirectory p)) :
    (∀ q ∈ fs.places followLast p, ¬ R q) ∨ ∀ q, fs'.locate followLast p = .ok q → R q := by
  refine (follow_of_blocks hagree hblocks hnot).imp_right fun h q hq => ?_
  have hfollow := (follow_of_locate hq).2.2
  rw [hstart] at hfollow
  exact h q hfollow

/-! ## The place that a path names -/

/-- The places on the way to the directory in which a path names an entry. -/
def slotPlaces (fs : FileSystem) (p : Path) : List Location :=
  fs.followPlaces true maxLinks (start fs.workingDirectory p) p.front

/-- The places on the way to the directory of an entry are on the way to the entry. -/
theorem slotPlaces_subset_places (fs : FileSystem) (followLast : Bool) (p : Path) :
    fs.slotPlaces p ⊆ fs.places followLast p := by
  obtain ⟨back, hback, hpieces⟩ := p.exists_pieces_eq_front_append
  unfold slotPlaces places
  rw [hpieces]
  exact followPlaces_subset_append hback

/-- The pieces in front of a name are followed from a directory to a directory. -/
theorem of_locateDirectory {directory d : Location} {pieces : List (List Char)}
    (h : fs.locateDirectory directory pieces = .ok d) :
    fs.isDirectoryAt directory = true ∧
      fs.follow true maxLinks directory pieces = .ok (.present d) ∧
      fs.isDirectoryAt d = true := by
  unfold locateDirectory at h
  obtain ⟨t, ht, h⟩ := bind_eq_ok.1 h
  obtain ⟨hdir, hfollow⟩ := follow_of_resolvePieces ht
  cases t with
  | absent q asDirectory => exact absurd h (by simp)
  | present q =>
    replace h : (if fs.isDirectoryAt q then pure q else throw .notADirectory :
      Except IoError Location) = .ok d := h
    split at h
    · next hq =>
      obtain rfl : q = d := Except.ok.inj h
      exact ⟨hdir, hfollow, hq⟩
    · exact absurd h (by simp)

/-- The directory of an entry is found where it was if the places on the way are as before. -/
theorem locateDirectory_congr {directory : Location} {pieces : List (List Char)}
    (h : ∀ q ∈ fs.followPlaces true maxLinks directory pieces, fs'.face? q = fs.face? q) :
    fs'.locateDirectory directory pieces = fs.locateDirectory directory pieces := by
  unfold locateDirectory
  rw [resolvePieces_congr h]
  cases hpieces : fs.resolvePieces true directory pieces with
  | error e => rfl
  | ok t =>
    cases t with
    | absent q asDirectory => rfl
    | present q =>
      have hq := mem_followPlaces_of_present (follow_of_resolvePieces hpieces).2
      show (if fs'.isDirectoryAt q then _ else _) = (if fs.isDirectoryAt q then _ else _)
      rw [isDirectoryAt_congr (h q hq)]

/-- The place that a path names depends on the way to its directory only. -/
theorem slot_congr
    (hstart : start fs'.workingDirectory p = start fs.workingDirectory p)
    (h : ∀ q ∈ fs.slotPlaces p, fs'.face? q = fs.face? q) :
    fs'.slot p = fs.slot p := by
  unfold slot slotFrom
  cases hlast : p.pieces.reverse.dropWhile List.isEmpty with
  | nil => rfl
  | cons last above =>
    have hfront := (Path.pieces_eq_of_dropWhile hlast).1
    unfold slotPlaces at h
    rw [hfront] at h
    show (checkText p >>= fun _ => fs'.locateDirectory _ _ >>= _) =
      (checkText p >>= fun _ => fs.locateDirectory _ _ >>= _)
    rw [hstart, locateDirectory_congr h]

/-- The way to the directory of an entry is as before if the places on it are. -/
theorem slotPlaces_congr
    (hstart : start fs'.workingDirectory p = start fs.workingDirectory p)
    (h : ∀ q ∈ fs.slotPlaces p, fs'.face? q = fs.face? q) :
    fs'.slotPlaces p = fs.slotPlaces p := by
  unfold slotPlaces at h ⊢
  rw [hstart, (follow_congr h).2]

/-- What is known of a path that names an entry. -/
structure Names (fs : FileSystem) (p : Path) (directory : Location) (name : String)
    (last : List Char) (back : List (List Char)) : Prop where
  check : checkText p = .ok ()
  pieces : p.pieces = p.front ++ last :: back
  empty : ∀ piece ∈ back, piece = []
  move : Move.ofPiece last = .down name
  start : fs.isDirectoryAt (start fs.workingDirectory p) = true
  follow : fs.follow true maxLinks (FileSystem.start fs.workingDirectory p) p.front =
    .ok (.present directory)
  isDirectory : fs.isDirectoryAt directory = true

/-- A path that names an entry ends in its name, perhaps with slashes behind. -/
theorem names_of_slot {directory : Location} {name : String} {hasSlash : Bool}
    (h : fs.slot p = .ok (.name directory name hasSlash)) :
    hasSlash = p.endsInSlash ∧ ∃ last back, Names fs p directory name last back := by
  unfold slot slotFrom at h
  obtain ⟨u, hcheck, h⟩ := bind_eq_ok.1 h
  cases hlast : p.pieces.reverse.dropWhile List.isEmpty with
  | nil =>
    rw [hlast] at h
    exact absurd (Except.ok.inj h) (by simp)
  | cons last above =>
    rw [hlast] at h
    obtain ⟨d, hdirectory, h⟩ := bind_eq_ok.1 h
    obtain ⟨hfront, back, hempty, hpieces⟩ := Path.pieces_eq_of_dropWhile hlast
    obtain ⟨hstart, hfollow, hd⟩ := of_locateDirectory hdirectory
    -- the last piece is a name: it is neither empty nor dots, and not too long
    have hne : last ≠ [] := by
      intro hnil
      have hhead := List.head?_dropWhile_not List.isEmpty p.pieces.reverse
      rw [hlast] at hhead
      simp [hnil] at hhead
    split at h
    · exact absurd (Except.ok.inj h) (by simp)
    · next hdot =>
      split at h
      · exact absurd (Except.ok.inj h) (by simp)
      · next hdots =>
        simp only at h
        split at h
        · exact absurd h (by simp)
        · next hlong =>
          obtain ⟨rfl, rfl, rfl⟩ := Slot.name.inj (Except.ok.inj h)
          have hmove : Move.ofPiece last = .down (String.ofList last) := by
            unfold Move.ofPiece
            rw [if_neg (by simp [hne, hdot]), if_neg hdots, if_neg hlong]
          exact ⟨rfl, last, back, hcheck, hpieces, hempty, hmove, hstart, hfront ▸ hfollow, hd⟩

/-- What only a name can be used for succeeds at a path that names an entry. -/
theorem of_slot_bind {α : Type} {f : Slot → Except IoError α} {a : α}
    (hunnamed : ∀ ending, f (.unnamed ending) ≠ .ok a) (h : fs.slot p >>= f = .ok a) :
    ∃ above name hasSlash, fs.slot p = .ok (.name above name hasSlash) ∧
      f (.name above name hasSlash) = .ok a := by
  obtain ⟨s, hslot, h⟩ := bind_eq_ok.1 h
  cases s with
  | unnamed ending => exact absurd h (hunnamed ending)
  | name above name hasSlash => exact ⟨above, name, hasSlash, hslot, h⟩

/-- The way to the directory in which a path names an entry goes through what is there. -/
theorem isSome_face?_of_mem_slotPlaces {directory : Location} {name : String} {hasSlash : Bool}
    (h : fs.slot p = .ok (.name directory name hasSlash)) {q : Location} (hq : q ∈ fs.slotPlaces p) :
    (fs.face? q).isSome := by
  obtain ⟨-, last, back, hnames⟩ := names_of_slot h
  obtain ⟨l, hl⟩ := (isDirectoryAt_iff fs _).1 hnames.start
  exact isSome_face?_of_follow (by rw [hl]; rfl) hnames.follow q hq

/-- A path names what it named before if something was put at a free place. -/
theorem slot_setEntry_of_free {directory location : Location} {name : String} {hasSlash : Bool}
    (h : fs.slot p = .ok (.name directory name hasSlash)) (hfree : fs.entry? location = none)
    (n : Option Node) :
    slot (fs.setEntry location n) p = .ok (.name directory name hasSlash) := by
  rw [← h]
  refine slot_congr rfl fun q hq => setEntry_agrees fs location n q fun hunder => ?_
  -- the way goes through what is there, and there is nothing below a free place
  have hsome := isSome_face?_of_mem_slotPlaces h hq
  rw [(face?_eq_none_iff fs q).2 (entryAt_eq_none_of_isPrefix hfree hunder)] at hsome
  exact absurd hsome (by simp)

/-- A single name is not followed if it is that of a link. -/
theorem walk_false_singleton (fs : FileSystem) (location : Location) {piece : List Char}
    {name : String} (h : Move.ofPiece piece = .down name) :
    ∃ outcome, fs.walk false location [piece] = .done outcome ∧
      fs.walkPlaces location [piece] = [location, location ++ [name]] := by
  cases hdir : fs.isDirectoryAt (location ++ [name]) with
  | true =>
    obtain ⟨l, hl⟩ := (isDirectoryAt_iff fs _).1 hdir
    rw [walk_down _ _ _ _ h, walkPlaces_down_of_directory _ _ _ h hdir, hl]
    exact ⟨_, rfl, rfl⟩
  | false =>
    rw [walk_down _ _ _ _ h, walkPlaces_down_of_leaf _ _ _ h hdir]
    cases hface : fs.face? (location ++ [name]) with
    | none => exact ⟨_, rfl, rfl⟩
    | some a =>
      cases a with
      | directory l => exact absurd hface ((isDirectoryAt_eq_false_iff fs _).1 hdir l)
      | file | link | device => exact ⟨_, rfl, rfl⟩

namespace Names

variable {directory : Location} {name : String} {last : List Char} {back : List (List Char)}

/-- Nothing stands behind the name of an entry if the path does not end in a slash. -/
theorem back_eq_nil (h : Names fs p directory name last back) (hslash : p.endsInSlash = false) :
    back = [] := by
  rcases List.eq_nil_or_concat back with rfl | ⟨back', piece, rfl⟩
  · rfl
  · -- an empty piece at the end would be behind a slash
    have hpiece : piece = [] := h.empty piece (by simp)
    have hpieces : p.pieces = (p.front ++ last :: back') ++ [[]] := by
      rw [h.pieces, hpiece]
      simp
    rw [Path.endsInSlash_of_pieces (by simp) hpieces] at hslash
    exact absurd hslash (by simp)

/-- A path that names a file leads to it. -/
theorem locate_eq (h : Names fs p directory name last back) (hslash : p.endsInSlash = false)
    {isExecutable : Bool} {contents : ByteArray}
    (hfile : fs.face? (directory ++ [name]) = some (.file isExecutable contents)) :
    fs.locate true p = .ok (directory ++ [name]) ∧
      ∀ q ∈ fs.places true p, q ∈ fs.slotPlaces p ∨ q = directory ++ [name] := by
  obtain rfl := h.back_eq_nil hslash
  have hwalk : fs.walk true directory [last] = .done (.ok (.present (directory ++ [name]))) := by
    rw [walk_down _ _ _ _ h.move, hfile]
    rfl
  have hleaf : fs.isDirectoryAt (directory ++ [name]) = false := by
    rw [isDirectoryAt_eq_false_iff, hfile]
    simp
  obtain ⟨l, hfollow, hplaces⟩ :=
    follow_append (List.cons_ne_nil last []) h.isDirectory h.follow true
  rw [← h.pieces] at hfollow hplaces
  rw [follow_of_done hwalk] at hfollow
  refine ⟨locate_of_follow h.check h.start hfollow, fun q hq => ?_⟩
  rcases (hplaces q).1 hq with hq | hq
  · exact Or.inl hq
  · rw [followPlaces_of_done hwalk, walkPlaces_down_of_leaf _ _ _ h.move hleaf] at hq
    rcases List.mem_cons.1 hq with rfl | hq
    · exact Or.inl (mem_followPlaces_of_present h.follow)
    · exact Or.inr (List.mem_singleton.1 hq)

/-- The place that a path names is on its way. -/
theorem mem_places (h : Names fs p directory name last back) (followLast : Bool) :
    directory ++ [name] ∈ fs.places followLast p := by
  obtain ⟨l, -, hplaces⟩ := follow_append (List.cons_ne_nil last back) h.isDirectory h.follow
    followLast
  unfold places
  rw [h.pieces, hplaces]
  exact Or.inr (mem_followPlaces_of_walk (mem_walkPlaces_down h.move back))

/-- If the last link is not followed, then there is nothing else on the way. -/
theorem mem_places_false (h : Names fs p directory name last back)
    (hslash : p.endsInSlash = false) {q : Location} (hq : q ∈ fs.places false p) :
    q ∈ fs.slotPlaces p ∨ q = directory ++ [name] := by
  obtain rfl := h.back_eq_nil hslash
  obtain ⟨l, -, hplaces⟩ := follow_append (List.cons_ne_nil last []) h.isDirectory h.follow false
  unfold places at hq
  rw [h.pieces, hplaces] at hq
  rcases hq with hq | hq
  · exact Or.inl hq
  · obtain ⟨outcome, hwalk, hwalkPlaces⟩ := walk_false_singleton fs directory h.move
    rw [followPlaces_of_done hwalk, hwalkPlaces] at hq
    rcases List.mem_cons.1 hq with rfl | hq
    · exact Or.inl (mem_followPlaces_of_present h.follow)
    · exact Or.inr (List.mem_singleton.1 hq)

end Names

/-- A path that leads somewhere does not meet a region through which nothing passes on the way to
its directory. -/
theorem not_mem_slotPlaces_of_locate {followLast : Bool} {q : Location}
    (hagree : AgreeOutside R fs fs') (hblocks : Blocks R fs')
    (hstart : start fs'.workingDirectory p = start fs.workingDirectory p)
    (hnot : ¬ R (start fs.workingDirectory p)) (h : fs'.locate followLast p = .ok q) :
    ∀ q ∈ fs.slotPlaces p, ¬ R q := by
  obtain ⟨-, hroot, hfollow⟩ := follow_of_locate h
  obtain ⟨back, hback, hpieces⟩ := p.exists_pieces_eq_front_append
  rw [hpieces] at hfollow
  obtain ⟨d, hd, hdirectory⟩ := exists_of_follow_append hback hroot hfollow
  rw [hstart] at hd
  refine (follow_of_blocks hagree hblocks hnot).resolve_right fun hin => ?_
  rw [hblocks.not_directory d (hin d hd)] at hdirectory
  exact absurd hdirectory (by simp)

/-- A path whose way to its directory meets a region through which nothing passes names nothing. -/
theorem slot_of_blocks (hagree : AgreeOutside R fs fs') (hblocks : Blocks R fs')
    (hstart : start fs'.workingDirectory p = start fs.workingDirectory p)
    (hnot : ¬ R (start fs.workingDirectory p)) :
    (∀ q ∈ fs.slotPlaces p, ¬ R q) ∨
      ∀ directory name hasSlash, fs'.slot p ≠ .ok (.name directory name hasSlash) := by
  refine (follow_of_blocks hagree hblocks hnot).imp_right fun h directory name hasSlash hslot => ?_
  obtain ⟨-, last, back, hnames⟩ := names_of_slot hslot
  have hfollow := hnames.follow
  rw [hstart] at hfollow
  have hdir := hblocks.not_directory directory (h directory hfollow)
  rw [hnames.isDirectory] at hdir
  exact absurd hdir (by simp)

end FileSystem

end Registrar
