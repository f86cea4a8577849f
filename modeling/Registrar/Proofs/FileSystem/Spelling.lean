/-
# Spellings of a path

Slashes in a row and single dots do not count: a path that ends in a name or in two dots leads where
its segments lead.  So a relative path leads to the same place from the working directory and,
behind the path of the working directory, from the root.
-/
import Registrar.Proofs.FileSystem.Proper
import Registrar.Proofs.Run.Stages

namespace Registrar

namespace FileSystem

variable {fs : FileSystem} {followLast : Bool} {links : Nat} {location : Location}
  {pieces pieces' : List (List Char)} {p q : Path}

/-- A text may be a path if it is not empty, has no zero in it and is not too long. -/
theorem checkText_eq_ok_iff :
    checkText p = .ok () ↔
      p.text ≠ "" ∧ '\x00' ∉ p.text.toList ∧ p.text.utf8ByteSize ≤ maxPathLength := by
  unfold checkText
  split
  · next hempty => simpa using fun h => absurd (by simpa using hempty) h
  · next hempty =>
    rw [and_iff_right (by simpa using hempty)]
    split
    · next hzero => simp [hzero]
    · next hzero =>
      rw [and_iff_right hzero]
      split
      · next hlong => simpa using hlong
      · next hlong => simpa using hlong

/-- The name of an entry is neither empty nor one or two dots. -/
theorem IsEntryName.toList_ne {name : String} (h : IsEntryName name) :
    name.toList ≠ [] ∧ name.toList ≠ ['.'] ∧ name.toList ≠ ['.', '.'] := by
  obtain ⟨hempty, hdot, hdots, -, -⟩ := h
  exact ⟨fun heq => hempty (String.toList_inj.1 heq), fun heq => hdot (String.toList_inj.1 heq),
    fun heq => hdots (String.toList_inj.1 heq)⟩

/-- The name of an entry is a component of its own. -/
theorem IsEntryName.ofPiece? {name : String} (h : IsEntryName name) :
    Component.ofPiece? name.toList = some (.name name) := by
  obtain ⟨hempty, hdot, hdots⟩ := h.toList_ne
  unfold Component.ofPiece?
  rw [if_neg hempty, if_neg hdot, if_neg hdots, String.ofList_toList]

/-- The name of an entry asks to go down to it. -/
theorem IsEntryName.move {name : String} (h : IsEntryName name) :
    Move.ofPiece name.toList = .down name := by
  obtain ⟨hempty, hdot, hdots⟩ := h.toList_ne
  have hshort : ¬ name.utf8ByteSize > maxNameLength := Nat.not_lt.2 h.2.2.2.2
  unfold Move.ofPiece
  rw [if_neg (not_or.2 ⟨hempty, hdot⟩), if_neg hdots, String.ofList_toList, if_neg hshort]

/-- The path of a location has the names on the way as its segments. -/
theorem segments_pathOf (h : ∀ name ∈ location, IsEntryName name) :
    (pathOf location).segments = location.map .name := by
  have htext : (pathOf location).text.toList =
      [] ++ '/' :: ['/'].intercalate (location.map String.toList) := by
    show ("/" ++ "/".intercalate location).toList = _
    rw [String.toList_append, String.toList_intercalate]
    rfl
  have hpieces : (pathOf location).pieces =
      [] :: Chars.splitOn '/' (['/'].intercalate (location.map String.toList)) := by
    show Chars.splitOn '/' (pathOf location).text.toList = _
    rw [htext, Chars.splitOn_append_cons]
    rfl
  unfold Path.segments
  rw [hpieces]
  -- no names make one empty piece, which is no segment either
  cases hlocation : location with
  | nil => rfl
  | cons first rest =>
    rw [← hlocation, Chars.splitOn_intercalate (by simp [hlocation])]
    · show (location.map String.toList).filterMap Component.ofPiece? = _
      rw [List.filterMap_map, ← List.filterMap_eq_map]
      exact List.filterMap_congr fun name hname => (h name hname).ofPiece?
    · intro piece hpiece
      obtain ⟨name, hname, rfl⟩ := List.mem_map.1 hpiece
      exact (h name hname).2.2.2.1

/-! ## The pieces that lead on -/

/-- Whether a piece of a path asks for a move. -/
def leadsOn (piece : List Char) : Bool :=
  (Component.ofPiece? piece).isSome

/-- A piece that does not lead on asks to stay. -/
theorem leadsOn_eq_false_iff (piece : List Char) :
    leadsOn piece = false ↔ Move.ofPiece piece = .stay := by
  unfold leadsOn Component.ofPiece? Move.ofPiece
  by_cases hnil : piece = []
  · simp [hnil]
  · by_cases hdot : piece = ['.']
    · simp [hdot]
    · have hneither : ¬ (piece = [] ∨ piece = ['.']) := by simp [hnil, hdot]
      rw [if_neg hnil, if_neg hdot, if_neg hneither]
      repeat' split
      all_goals simp

/-- A piece that asks for anything but to stay leads on. -/
theorem leadsOn_of_ne {piece : List Char} (h : Move.ofPiece piece ≠ .stay) :
    leadsOn piece = true := by
  rw [← Bool.not_eq_false, leadsOn_eq_false_iff]
  exact h

/-- The pieces that lead on spell the segments. -/
theorem filter_leadsOn (pieces : List (List Char)) :
    pieces.filter leadsOn =
      (pieces.filterMap Component.ofPiece?).map fun c => c.spelling.toList := by
  induction pieces with
  | nil => rfl
  | cons piece rest ih =>
    cases hpiece : Component.ofPiece? piece with
    | none =>
      rw [List.filterMap_cons_none hpiece, List.filter_cons_of_neg (by simp [leadsOn, hpiece]), ih]
    | some c =>
      rw [List.filterMap_cons_some hpiece, List.filter_cons_of_pos (by simp [leadsOn, hpiece]), ih,
        List.map_cons, Component.toList_spelling hpiece]

/-- The pieces of a path that lead on spell its segments. -/
theorem filter_leadsOn_pieces (p : Path) :
    p.pieces.filter leadsOn = p.segments.map fun c => c.spelling.toList :=
  filter_leadsOn p.pieces

/-- Pieces of which the last one leads on. -/
def EndsOnward (pieces : List (List Char)) : Prop :=
  ∀ piece ∈ pieces.getLast?, leadsOn piece = true

namespace EndsOnward

/-- What is left of pieces that end onward ends onward. -/
theorem of_cons {piece : List Char} (h : EndsOnward (piece :: pieces)) : EndsOnward pieces := by
  cases pieces with
  | nil => exact fun piece hpiece => absurd hpiece (by simp)
  | cons next pieces =>
    unfold EndsOnward at h
    rwa [List.getLast?_cons_cons] at h

/-- Whether pieces end onward is a matter of the last of them. -/
theorem append_iff (hne : pieces ≠ []) (front : List (List Char)) :
    EndsOnward (front ++ pieces) ↔ EndsOnward pieces := by
  unfold EndsOnward
  rw [List.getLast?_append_of_ne_nil _ hne]

/-- What is written behind a path ends it. -/
theorem join_iff (hp : p.text ≠ "") (hq : q.isAbsolute = false) :
    EndsOnward (p.join q).pieces ↔ EndsOnward q.pieces := by
  obtain ⟨front, -, hpieces⟩ := Path.pieces_join hp hq
  rw [hpieces]
  exact append_iff q.pieces_ne_nil front

/-- Some piece leads on, unless there is none. -/
theorem filter_eq_nil_iff (h : EndsOnward pieces) : pieces.filter leadsOn = [] ↔ pieces = [] := by
  constructor
  · intro hnil
    rcases List.eq_nil_or_concat pieces with hpieces | ⟨front, last, rfl⟩
    · exact hpieces
    · have hlast : leadsOn last = true := h last (by simp)
      exact absurd hlast (List.filter_eq_nil_iff.1 hnil last (by simp))
  · rintro rfl
    rfl

/-- Pieces that end onward have one that leads on unless there are none. -/
theorem isEmpty_filter (h : EndsOnward pieces) :
    (pieces.filter leadsOn).isEmpty = pieces.isEmpty := by
  rw [Bool.eq_iff_iff, List.isEmpty_iff, List.isEmpty_iff]
  exact h.filter_eq_nil_iff

/-- A piece that leads on is not empty. -/
theorem all_isEmpty_filter (h : EndsOnward pieces) :
    (pieces.filter leadsOn).all List.isEmpty = pieces.all List.isEmpty := by
  have hempty : ∀ piece, leadsOn piece = true → piece.isEmpty = false := by
    intro piece hpiece
    cases piece with
    | nil => exact absurd hpiece (by decide)
    | cons c cs => rfl
  rcases List.eq_nil_or_concat pieces with rfl | ⟨front, last, rfl⟩
  · rfl
  · have hlast : leadsOn last = true := h last (by simp)
    rw [List.concat_eq_append, List.filter_append, List.filter_cons_of_pos hlast]
    simp [hempty last hlast]

/-- Behind a link, too, the last piece leads on. -/
theorem of_walk (h : EndsOnward pieces) {directory : Location} {target : Path}
    {rest : List (List Char)}
    (hwalk : fs.walk followLast location pieces = .link directory target rest) :
    EndsOnward rest := by
  induction pieces generalizing location with
  | nil => exact absurd hwalk (by simp [walk])
  | cons piece pieces ih =>
    cases fs.turn location piece with
    | next location' hnext hwalks hplaces =>
      rw [hwalks] at hwalk
      exact ih h.of_cons hwalk
    | tooLong hwalks hplaces =>
      rw [hwalks] at hwalk
      exact absurd hwalk (by simp)
    | leaf name hdir hwalks hplaces =>
      rw [hwalks] at hwalk
      exact (of_arrive_eq_link hdir hwalk).2.2 ▸ h.of_cons

end EndsOnward

/-! ## Paths of the same segments -/

/-- A walk of which only those pieces remain behind a link that lead on. -/
def Walk.onward : Walk → Walk
  | .done outcome => .done outcome
  | .link directory target rest => .link directory target (rest.filter leadsOn)

/-- A walk that is done is done with all its pieces. -/
theorem Walk.of_onward_eq_done {w : Walk} {outcome : Except IoError Target}
    (h : w.onward = .done outcome) : w = .done outcome := by
  cases w with
  | done outcome' => exact h
  | link directory target rest => exact absurd h (by simp [Walk.onward])

/-- A walk that comes to a link comes to it with pieces behind that lead on in the same way. -/
theorem Walk.of_onward_eq_link {w : Walk} {directory : Location} {target : Path}
    {rest : List (List Char)} (h : w.onward = .link directory target rest) :
    ∃ rest', w = .link directory target rest' ∧ rest'.filter leadsOn = rest := by
  cases w with
  | done outcome => exact absurd h (by simp [Walk.onward])
  | link directory' target' rest' =>
    obtain ⟨rfl, rfl, hrest⟩ := Walk.link.inj h
    exact ⟨rest', rfl, hrest⟩

/-- A walk gets as far along the pieces that lead on. -/
theorem walk_filter (h : EndsOnward pieces) :
    fs.walk followLast location (pieces.filter leadsOn) =
      (fs.walk followLast location pieces).onward := by
  induction pieces generalizing location with
  | nil => rfl
  | cons piece rest ih =>
    have hrest := h.of_cons
    cases hmove : Move.ofPiece piece with
    | stay =>
      rw [List.filter_cons_of_neg (by simp [(leadsOn_eq_false_iff piece).2 hmove]), ih hrest,
        walk_stay _ _ _ _ hmove]
    | up =>
      rw [List.filter_cons_of_pos (leadsOn_of_ne (by simp [hmove])), walk_up _ _ _ _ hmove,
        walk_up _ _ _ _ hmove, ih hrest]
    | tooLong =>
      rw [List.filter_cons_of_pos (leadsOn_of_ne (by simp [hmove])), walk_tooLong _ _ _ _ hmove,
        walk_tooLong _ _ _ _ hmove]
      rfl
    | down name =>
      rw [List.filter_cons_of_pos (leadsOn_of_ne (by simp [hmove])), walk_down _ _ _ _ hmove,
        walk_down _ _ _ _ hmove]
      cases hface : fs.face? (location ++ [name]) with
      | none =>
        simp only [arrive, hrest.all_isEmpty_filter, hrest.isEmpty_filter]
        split <;> rfl
      | some a =>
        cases a with
        | directory l => exact ih hrest
        | file | link | device =>
          simp only [arrive, hrest.isEmpty_filter]
          split <;> rfl

/-- Pieces that lead on in the same way are walked in the same way. -/
theorem onward_walk_congr (fs : FileSystem) (followLast : Bool) (location : Location)
    (h : EndsOnward pieces) (h' : EndsOnward pieces')
    (heq : pieces'.filter leadsOn = pieces.filter leadsOn) :
    (fs.walk followLast location pieces').onward = (fs.walk followLast location pieces).onward := by
  rw [← walk_filter h', heq, walk_filter h]

/-- Two paths lead to the same place if the same pieces of them lead on, the last ones among
them. -/
theorem follow_eq_of_filter (fs : FileSystem) (followLast : Bool) (links : Nat)
    (location : Location) (h : EndsOnward pieces) (h' : EndsOnward pieces')
    (heq : pieces'.filter leadsOn = pieces.filter leadsOn) :
    fs.follow followLast links location pieces' = fs.follow followLast links location pieces := by
  induction links, location, pieces using fs.follow_induction followLast generalizing pieces' with
  | done links location pieces outcome hwalk =>
    have hwalk' := onward_walk_congr fs followLast location h h' heq
    rw [hwalk] at hwalk'
    rw [follow_of_done hwalk, follow_of_done (Walk.of_onward_eq_done hwalk')]
  | stuck links location pieces directory target rest hwalk hstuck =>
    have hwalk' := onward_walk_congr fs followLast location h h' heq
    rw [hwalk] at hwalk'
    obtain ⟨rest', hlink, -⟩ := Walk.of_onward_eq_link hwalk'
    rw [(follow_of_stuck hwalk hstuck).1, (follow_of_stuck hlink hstuck).1]
  | link links location pieces directory target rest hwalk htarget ih =>
    have hwalk' := onward_walk_congr fs followLast location h h' heq
    rw [hwalk] at hwalk'
    obtain ⟨rest', hlink, hrest⟩ := Walk.of_onward_eq_link hwalk'
    rw [follow_of_link hwalk htarget, follow_of_link hlink htarget]
    have hends := h.of_walk hwalk
    have hends' := h'.of_walk hlink
    -- a link at the end leads wherever it leads, and behind any other one the path ends onward
    by_cases hnil : rest = []
    · subst hnil
      rw [hends'.filter_eq_nil_iff.1 hrest]
    · have hnil' : rest' ≠ [] := by
        rintro rfl
        exact hnil (hends.filter_eq_nil_iff.1 hrest.symm)
      exact ih ((EndsOnward.append_iff hnil _).2 hends)
        ((EndsOnward.append_iff hnil' _).2 hends') (by
        rw [List.filter_append, List.filter_append, hrest])

/-! ## From the working directory -/

/-- The names of a directory spell the segments of its path. -/
theorem filter_leadsOn_names (h : ∀ name ∈ location, IsEntryName name)
    (pieces : List (List Char)) :
    (location.map String.toList ++ pieces).filter leadsOn =
      ((location.map Component.name).map fun c => c.spelling.toList) ++
        pieces.filter leadsOn := by
  have hnames : (location.map String.toList).filter leadsOn = location.map String.toList := by
    rw [List.filter_eq_self]
    intro piece hpiece
    obtain ⟨name, hname, rfl⟩ := List.mem_map.1 hpiece
    exact leadsOn_of_ne (by simp [(h name hname).move])
  rw [List.filter_append, hnames, List.map_map]
  rfl

/-- The names of a directory lead to it. -/
theorem walk_names {below : Location} (h : ∀ name ∈ below, IsEntryName name)
    (hdir : fs.isDirectoryAt (location ++ below) = true) :
    fs.walk true location (below.map String.toList) =
      .done (.ok (.present (location ++ below))) := by
  induction below using List.reverseRecOn with
  | nil =>
    rw [List.append_nil]
    rfl
  | append_singleton below name ih =>
    rw [← List.append_assoc] at hdir ⊢
    have habove : fs.isDirectoryAt (location ++ below) = true := by
      simpa using isDirectoryAt_dropLast hdir
    have hname := (h name (by simp)).move
    have hwalk := ih (fun other hother => h other (List.mem_append_left _ hother)) habove
    rw [List.map_append, (walk_append_of_present habove hwalk true _).1, List.map_singleton,
      walk_down _ _ _ _ hname]
    obtain ⟨l, hl⟩ := (isDirectoryAt_iff fs _).1 hdir
    rw [hl]
    rfl

/-- What stands behind the names of a directory leads on from it. -/
theorem follow_names (h : ∀ name ∈ location, IsEntryName name)
    (hdir : fs.isDirectoryAt location = true) (followLast : Bool) (links : Nat)
    (pieces : List (List Char)) :
    fs.follow followLast links [] (location.map String.toList ++ pieces) =
      fs.follow followLast links location pieces := by
  have hwalk : fs.walk true [] (location.map String.toList) = .done (.ok (.present location)) :=
    walk_names h hdir
  rw [follow, follow, (walk_append_of_present hdir hwalk followLast pieces).1]

end FileSystem

namespace Generator

open FileSystem

variable {fs : FileSystem} {p q : Path} {name : String}

/-- A path as seen from the root has the segments of the path, behind those of the working directory
if it is relative. -/
theorem of_whole? (h : whole? fs p = some q) :
    p.text ≠ "" ∧ (p.isAbsolute = true ∧ q.segments = p.segments ∨
      p.isAbsolute = false ∧ fs.isDirectoryAt fs.workingDirectory = true ∧
        q.segments = (pathOf fs.workingDirectory).segments ++ p.segments) := by
  have hne : ∀ {base : Path}, Path.absolute? base p = some q → p.text ≠ "" := by
    intro base hq hempty
    unfold Path.absolute? at hq
    rw [hempty] at hq
    exact absurd hq (by simp)
  unfold whole? workingPath? at h
  cases hdir : fs.isDirectoryAt fs.workingDirectory with
  | true =>
    simp only [hdir, if_true] at h
    have hsegments := Path.segments_of_absolute? (Path.isAbsolute_pathOf _) h
    refine ⟨hne h, ?_⟩
    cases hp : p.isAbsolute with
    | true => exact .inl ⟨rfl, by simpa [hp] using hsegments⟩
    | false => exact .inr ⟨rfl, rfl, by simpa [hp] using hsegments⟩
  | false =>
    simp only [hdir, Bool.false_eq_true, if_false] at h
    split at h
    · next hp =>
      have hsegments := Path.segments_of_absolute? rfl h
      exact ⟨hne h, .inl ⟨hp, by simpa [hp] using hsegments⟩⟩
    · exact absurd h (by simp)

/-- Behind a path that can be seen from the root, a name makes a path unless it gets too long. -/
theorem checkText_div_of_whole? (h : whole? fs p = some q)
    (hcheck : checkText (q / name) = .ok ()) :
    checkText (p / name) = .ok () ↔ (p / name).text.utf8ByteSize ≤ maxPathLength := by
  obtain ⟨hne, hsegments⟩ := of_whole? h
  have hzero : '\x00' ∉ (p / name).text.toList := by
    have hzero' := (checkText_eq_ok_iff.1 hcheck).2.1
    cases hname : (⟨name⟩ : Path).isAbsolute with
    | true =>
      rw [Path.div_of_isAbsolute _ hname] at hzero' ⊢
      exact hzero'
    | false =>
      intro hmem
      obtain ⟨c, hc, ha⟩ := Path.exists_mem_segments (by decide) (by decide) hmem
      refine hzero' (Path.mem_text_of_mem_segments ?_ ha)
      rw [Path.segments_div_of_relative hne hname] at hc
      rw [Path.segments_div_of_relative (Path.text_ne_of_isAbsolute (isAbsolute_of_whole? h)) hname]
      rcases hsegments with ⟨-, hq⟩ | ⟨-, -, hq⟩
      · rwa [hq]
      · rw [hq, List.append_assoc]
        exact List.mem_append_right _ hc
  have htext : (p / name).text ≠ "" := Path.text_join_ne hne ⟨name⟩
  rw [checkText_eq_ok_iff, and_iff_right htext, and_iff_right hzero]

/-- A name behind a path leads where it leads behind the path as seen from the root, if both can be
paths and end onward. -/
theorem locate_div_of_whole? (hworking : ∀ name ∈ fs.workingDirectory, IsEntryName name)
    (h : whole? fs p = some q) (hends : EndsOnward (q / name).pieces)
    (hcheck : checkText (p / name) = .ok ()) (hcheck' : checkText (q / name) = .ok ())
    (followLast : Bool) : fs.locate followLast (p / name) = fs.locate followLast (q / name) := by
  obtain ⟨hne, hsegments⟩ := of_whole? h
  have hq := isAbsolute_of_whole? h
  cases hname : (⟨name⟩ : Path).isAbsolute with
  | true => rw [Path.div_of_isAbsolute p hname, Path.div_of_isAbsolute q hname]
  | false =>
    have hqne := Path.text_ne_of_isAbsolute hq
    have hends' : EndsOnward (p / name).pieces :=
      (EndsOnward.join_iff hne hname).2 ((EndsOnward.join_iff hqne hname).1 hends)
    have hp' := Path.segments_div_of_relative hne hname
    have hq' := Path.segments_div_of_relative hqne hname
    have hstart' := start_of_isAbsolute fs.workingDirectory (Path.isAbsolute_div hq name)
    unfold locate FileSystem.resolve resolveFrom resolvePieces
    rw [hcheck, hcheck', hstart']
    rcases hsegments with ⟨hp, hsegments⟩ | ⟨hp, hdir, hsegments⟩
    · have hstart := start_of_isAbsolute fs.workingDirectory (Path.isAbsolute_div hp name)
      have hfilter : (p / name).pieces.filter leadsOn = (q / name).pieces.filter leadsOn := by
        rw [filter_leadsOn_pieces, filter_leadsOn_pieces, hp', hq', hsegments]
      rw [hstart, follow_eq_of_filter fs followLast maxLinks [] hends hends' hfilter]
    · -- a relative path leads where the names of the working directory and its own pieces lead
      have hrelative : (p / name).isAbsolute = false :=
        (Path.isAbsolute_join_of_ne hne hname).trans hp
      have hstart : start fs.workingDirectory (p / name) = fs.workingDirectory :=
        if_neg (by simp [hrelative])
      have hfilter : (fs.workingDirectory.map String.toList ++ (p / name).pieces).filter leadsOn =
          (q / name).pieces.filter leadsOn := by
        rw [filter_leadsOn_names hworking, filter_leadsOn_pieces, filter_leadsOn_pieces, hp', hq',
          hsegments, segments_pathOf hworking, ← List.map_append, List.append_assoc]
      have hbehind := (EndsOnward.append_iff (p / name).pieces_ne_nil
        (fs.workingDirectory.map String.toList)).2 hends'
      have hfollow := follow_eq_of_filter fs followLast maxLinks [] hends hbehind hfilter
      rw [follow_names hworking hdir] at hfollow
      rw [hstart, hdir, isDirectoryAt_nil hdir, hfollow]

end Generator

end Registrar
