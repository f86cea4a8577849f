/-
# The way of a path

The places that are looked at while a path is followed.  Where it leads depends on what is at these
places and on nothing else.  If a region gets in the way, so that nothing in it can be passed, the
path leads to no place outside of it any more.
-/
import Registrar.Proofs.FileSystem.Tree

namespace Registrar.FileSystem

/-! ## One piece of a path -/

/-- What a piece of a path asks for. -/
inductive Move where
  | stay
  | up
  | tooLong
  | down (name : String)

/-- What a piece of a path asks for. -/
def Move.ofPiece (piece : List Char) : Move :=
  if piece = [] ∨ piece = ['.'] then stay
  else if piece = ['.', '.'] then up
  else if (String.ofList piece).utf8ByteSize > maxNameLength then tooLong
  else down (String.ofList piece)

/-- How a piece spells a move. -/
inductive Move.Spelled (piece : List Char) : Move → Prop where
  | stay (hstay : piece = [] ∨ piece = ['.']) : Spelled piece stay
  | up (hstay : ¬ (piece = [] ∨ piece = ['.'])) (hup : piece = ['.', '.']) : Spelled piece up
  | tooLong (hstay : ¬ (piece = [] ∨ piece = ['.'])) (hup : piece ≠ ['.', '.'])
      (hlong : (String.ofList piece).utf8ByteSize > maxNameLength) : Spelled piece tooLong
  | down (hstay : ¬ (piece = [] ∨ piece = ['.'])) (hup : piece ≠ ['.', '.'])
      (hshort : ¬ (String.ofList piece).utf8ByteSize > maxNameLength) :
      Spelled piece (down (String.ofList piece))

/-- A piece spells the move that it asks for. -/
theorem Move.spelled_ofPiece (piece : List Char) : Spelled piece (ofPiece piece) := by
  unfold ofPiece
  split
  · next hstay => exact .stay hstay
  · next hstay =>
    split
    · next hup => exact .up hstay hup
    · next hup =>
      split
      · next hlong => exact .tooLong hstay hup hlong
      · next hshort => exact .down hstay hup hshort

/-- What a piece asks for is told by its spelling. -/
theorem Move.spelled {piece : List Char} {move : Move} (h : ofPiece piece = move) :
    Spelled piece move :=
  h ▸ spelled_ofPiece piece

section

variable (fs : FileSystem) (followLast : Bool) (location : Location) {piece : List Char}
  {name : String} (rest : List (List Char))

/-- How a walk goes on with a name, by what is there. -/
def arrive (name : String) : Option Face → Walk
  | none =>
    if rest.all List.isEmpty then .done (.ok (.absent (location ++ [name]) (!rest.isEmpty)))
    else .done (.error .notFound)
  | some (.link target) =>
    if rest.isEmpty && !followLast then .done (.ok (.present (location ++ [name])))
    else .link location ⟨target⟩ rest
  | some (.directory _) => fs.walk followLast (location ++ [name]) rest
  | some _ =>
    if rest.isEmpty then .done (.ok (.present (location ++ [name])))
    else .done (.error .notADirectory)

/-- A walk stays where it is at a piece that means nothing. -/
theorem walk_stay (h : Move.ofPiece piece = .stay) :
    fs.walk followLast location (piece :: rest) = fs.walk followLast location rest := by
  cases Move.spelled h with
  | stay hstay => rw [walk, if_pos hstay]

/-- A walk goes to the directory above at two dots. -/
theorem walk_up (h : Move.ofPiece piece = .up) :
    fs.walk followLast location (piece :: rest) =
      fs.walk followLast location.dropLast rest := by
  cases Move.spelled h with
  | up hstay hup => rw [walk, if_neg hstay, if_pos hup]

/-- A walk fails at a name that is too long. -/
theorem walk_tooLong (h : Move.ofPiece piece = .tooLong) :
    fs.walk followLast location (piece :: rest) = .done (.error .nameTooLong) := by
  cases Move.spelled h with
  | tooLong hstay hup hlong =>
    rw [walk, if_neg hstay, if_neg hup]
    exact if_pos hlong

/-- A walk goes on with a name by what is there. -/
theorem walk_down (h : Move.ofPiece piece = .down name) :
    fs.walk followLast location (piece :: rest) =
      fs.arrive followLast location rest name (fs.face? (location ++ [name])) := by
  cases Move.spelled h with
  | down hstay hup hshort =>
    rw [walk, if_neg hstay, if_neg hup]
    refine (if_neg hshort).trans ?_
    unfold face?
    cases fs.entry? (location ++ [String.ofList piece]) with
    | none => rfl
    | some n => cases n <;> rfl

end

/-- What a walk comes to at a name without a directory, by what is there. -/
inductive Arrival (fs : FileSystem) (location : Location) (rest : List (List Char))
    (name : String) (walk : Walk) : Prop where
  | failed (e : IoError) (hwalk : walk = .done (.error e))
  | absent (behind : Bool) (hface : fs.face? (location ++ [name]) = none)
      (hwalk : walk = .done (.ok (.absent (location ++ [name]) behind)))
  | present (hface : (fs.face? (location ++ [name])).isSome) (hrest : rest = [])
      (hwalk : walk = .done (.ok (.present (location ++ [name]))))
  | link (target : String) (hface : fs.face? (location ++ [name]) = some (.link target))
      (hwalk : walk = .link location ⟨target⟩ rest)

/-- At a name without a directory a walk ends, or comes to a link that is followed. -/
theorem arrival (fs : FileSystem) (followLast : Bool) {location : Location} {name : String}
    (hdir : fs.isDirectoryAt (location ++ [name]) = false) (rest : List (List Char)) :
    Arrival fs location rest name
      (fs.arrive followLast location rest name (fs.face? (location ++ [name]))) := by
  cases hface : fs.face? (location ++ [name]) with
  | none =>
    simp only [arrive]
    split
    · exact .absent _ hface rfl
    · exact .failed _ rfl
  | some a =>
    have hsome : (fs.face? (location ++ [name])).isSome := by rw [hface]; rfl
    cases a with
    | directory l => exact absurd hface ((isDirectoryAt_eq_false_iff fs _).1 hdir l)
    | link target =>
      -- a link that nothing stands behind is only followed where that is asked for
      simp only [arrive]
      split
      · next h => exact .present hsome (List.isEmpty_iff.1 (Bool.and_eq_true_iff.1 h).1) rfl
      · exact .link target hface rfl
    | file | device =>
      simp only [arrive]
      split
      · next h => exact .present hsome (List.isEmpty_iff.1 h) rfl
      · exact .failed _ rfl

/-! ## The places on the way -/

/-- The places that a walk looks at, those where it begins and ends among them. -/
def walkPlaces (fs : FileSystem) : Location → List (List Char) → List Location
  | location, [] => [location]
  | location, piece :: rest =>
    location :: match Move.ofPiece piece with
      | .stay => fs.walkPlaces location rest
      | .up => fs.walkPlaces location.dropLast rest
      | .tooLong => []
      | .down name =>
        match fs.face? (location ++ [name]) with
        | some (.directory _) => fs.walkPlaces (location ++ [name]) rest
        | _ => [location ++ [name]]

/-- The places that are looked at while a path is followed. -/
def followPlaces (fs : FileSystem) (followLast : Bool) :
    Nat → Location → List (List Char) → List Location
  | links, location, pieces =>
    fs.walkPlaces location pieces ++
      match fs.walk followLast location pieces with
      | .done _ => []
      | .link directory target rest =>
        match links with
        | 0 => []
        | links + 1 =>
          if target.text.isEmpty then []
          else fs.followPlaces followLast links (start directory target) (target.pieces ++ rest)

section

variable (fs : FileSystem) (location : Location) {piece : List Char} {name : String}
  (rest : List (List Char))

theorem walkPlaces_stay (h : Move.ofPiece piece = .stay) :
    fs.walkPlaces location (piece :: rest) = location :: fs.walkPlaces location rest := by
  rw [walkPlaces, h]

theorem walkPlaces_up (h : Move.ofPiece piece = .up) :
    fs.walkPlaces location (piece :: rest) =
      location :: fs.walkPlaces location.dropLast rest := by
  rw [walkPlaces, h]

theorem walkPlaces_tooLong (h : Move.ofPiece piece = .tooLong) :
    fs.walkPlaces location (piece :: rest) = [location] := by
  rw [walkPlaces, h]

/-- A walk that comes to a directory goes on from there. -/
theorem walkPlaces_down_of_directory (h : Move.ofPiece piece = .down name)
    (hdir : fs.isDirectoryAt (location ++ [name]) = true) :
    fs.walkPlaces location (piece :: rest) =
      location :: fs.walkPlaces (location ++ [name]) rest := by
  obtain ⟨l, hl⟩ := (isDirectoryAt_iff fs _).1 hdir
  rw [walkPlaces, h]
  show location :: (match fs.face? (location ++ [name]) with | _ => _) = _
  rw [hl]

/-- A walk that comes to something other than a directory looks at it last. -/
theorem walkPlaces_down_of_leaf (h : Move.ofPiece piece = .down name)
    (hdir : fs.isDirectoryAt (location ++ [name]) = false) :
    fs.walkPlaces location (piece :: rest) = [location, location ++ [name]] := by
  have hne : ∀ l, fs.face? (location ++ [name]) ≠ some (.directory l) := fun l hl =>
    absurd ((isDirectoryAt_iff fs _).2 ⟨l, hl⟩) (by rw [hdir]; simp)
  rw [walkPlaces, h]
  show location :: (match fs.face? (location ++ [name]) with | _ => _) = _
  cases hface : fs.face? (location ++ [name]) with
  | none => rfl
  | some a =>
    cases a with
    | directory l => exact absurd hface (hne l)
    | file | link | device => rfl

end

/-- Where a walk may go on with the next piece. -/
inductive Next (fs : FileSystem) (location : Location) : Location → Prop where
  | stay : Next fs location location
  | up : Next fs location location.dropLast
  | down (name : String) (h : fs.isDirectoryAt (location ++ [name]) = true) :
      Next fs location (location ++ [name])

/-- What the next piece of a path does to a walk, whatever stands behind it. -/
inductive Turn (fs : FileSystem) (location : Location) (piece : List Char) : Prop where
  | next (location' : Location) (hnext : Next fs location location')
      (hwalk : ∀ followLast rest,
        fs.walk followLast location (piece :: rest) = fs.walk followLast location' rest)
      (hplaces : ∀ rest,
        fs.walkPlaces location (piece :: rest) = location :: fs.walkPlaces location' rest)
  | tooLong
      (hwalk : ∀ followLast rest,
        fs.walk followLast location (piece :: rest) = .done (.error .nameTooLong))
      (hplaces : ∀ rest, fs.walkPlaces location (piece :: rest) = [location])
  | leaf (name : String) (hdir : fs.isDirectoryAt (location ++ [name]) = false)
      (hwalk : ∀ followLast rest, fs.walk followLast location (piece :: rest) =
        fs.arrive followLast location rest name (fs.face? (location ++ [name])))
      (hplaces : ∀ rest, fs.walkPlaces location (piece :: rest) = [location, location ++ [name]])

/-- A walk goes on, stops at a name that is too long, or comes to something that is no directory. -/
theorem turn (fs : FileSystem) (location : Location) (piece : List Char) :
    Turn fs location piece := by
  cases hmove : Move.ofPiece piece with
  | stay =>
    exact .next location .stay (fun _ rest => walk_stay _ _ _ rest hmove)
      (fun rest => walkPlaces_stay _ _ rest hmove)
  | up =>
    exact .next location.dropLast .up (fun _ rest => walk_up _ _ _ rest hmove)
      (fun rest => walkPlaces_up _ _ rest hmove)
  | tooLong =>
    exact .tooLong (fun _ rest => walk_tooLong _ _ _ rest hmove)
      (fun rest => walkPlaces_tooLong _ _ rest hmove)
  | down name =>
    cases hdir : fs.isDirectoryAt (location ++ [name]) with
    | false =>
      exact .leaf name hdir (fun _ rest => walk_down _ _ _ rest hmove)
        (fun rest => walkPlaces_down_of_leaf _ _ rest hmove hdir)
    | true =>
      refine .next (location ++ [name]) (.down name hdir) (fun followLast rest => ?_)
        (fun rest => walkPlaces_down_of_directory _ _ rest hmove hdir)
      obtain ⟨l, hl⟩ := (isDirectoryAt_iff fs _).1 hdir
      rw [walk_down _ _ _ _ hmove, hl]
      rfl

/-- An induction along a walk and the places that it looks at. -/
theorem walk_induction (fs : FileSystem) (followLast : Bool)
    {motive : Location → List (List Char) → Walk → List Location → Prop}
    (nil : ∀ location, motive location [] (.done (.ok (.present location))) [location])
    (next : ∀ location location' piece rest walk places, Next fs location location' →
      motive location' rest walk places →
      motive location (piece :: rest) walk (location :: places))
    (tooLong : ∀ location piece rest,
      motive location (piece :: rest) (.done (.error .nameTooLong)) [location])
    (leaf : ∀ location name piece rest walk, Arrival fs location rest name walk →
      motive location (piece :: rest) walk [location, location ++ [name]])
    (location : Location) (pieces : List (List Char)) :
    motive location pieces (fs.walk followLast location pieces)
      (fs.walkPlaces location pieces) := by
  induction pieces generalizing location with
  | nil => exact nil location
  | cons piece rest ih =>
    cases fs.turn location piece with
    | next location' hnext hwalk hplaces =>
      rw [hwalk, hplaces]
      exact next _ _ _ _ _ _ hnext (ih location')
    | tooLong hwalk hplaces =>
      rw [hwalk, hplaces]
      exact tooLong _ _ _
    | leaf name hdir hwalk hplaces =>
      rw [hwalk, hplaces]
      exact leaf _ _ _ _ _ (fs.arrival followLast hdir rest)

section

variable {fs fs' : FileSystem} {followLast : Bool} {links : Nat} {location : Location}
  {pieces : List (List Char)}

/-- A walk looks at the place where it begins. -/
theorem mem_walkPlaces_self (fs : FileSystem) (location : Location)
    (pieces : List (List Char)) : location ∈ fs.walkPlaces location pieces := by
  cases pieces <;> simp [walkPlaces]

/-- What the first walk looks at is looked at while the path is followed. -/
theorem mem_followPlaces_of_walk {p : Location} (hp : p ∈ fs.walkPlaces location pieces) :
    p ∈ fs.followPlaces followLast links location pieces := by
  unfold followPlaces
  exact List.mem_append_left _ hp

/-- The place where a path is followed from is looked at. -/
theorem mem_followPlaces_self (fs : FileSystem) (followLast : Bool) (links : Nat)
    (location : Location) (pieces : List (List Char)) :
    location ∈ fs.followPlaces followLast links location pieces :=
  mem_followPlaces_of_walk (mem_walkPlaces_self fs location pieces)

/-- Following a link, the way goes on from where the link is. -/
theorem followPlaces_of_link {directory : Location} {target : Path} {rest : List (List Char)}
    (hwalk : fs.walk followLast location pieces = .link directory target rest)
    (htarget : target.text.isEmpty = false) :
    fs.followPlaces followLast (links + 1) location pieces =
      fs.walkPlaces location pieces ++
        fs.followPlaces followLast links (start directory target) (target.pieces ++ rest) := by
  rw [followPlaces, hwalk]
  simp [htarget]

/-- A path is followed to the end of the first walk if that comes to no link. -/
theorem follow_of_done {outcome : Except IoError Target}
    (hwalk : fs.walk followLast location pieces = .done outcome) :
    fs.follow followLast links location pieces = outcome := by
  rw [follow, hwalk]

/-- A path is followed on from a link with the pieces of its target and the rest. -/
theorem follow_of_link {directory : Location} {target : Path} {rest : List (List Char)}
    (hwalk : fs.walk followLast location pieces = .link directory target rest)
    (htarget : target.text.isEmpty = false) :
    fs.follow followLast (links + 1) location pieces =
      fs.follow followLast links (start directory target) (target.pieces ++ rest) := by
  rw [follow, hwalk]
  simp [htarget]

/-- Only the first walk looks at places if it comes to no link. -/
theorem followPlaces_of_done {outcome : Except IoError Target}
    (hwalk : fs.walk followLast location pieces = .done outcome) :
    fs.followPlaces followLast links location pieces = fs.walkPlaces location pieces := by
  rw [followPlaces, hwalk]
  exact List.append_nil _

/-- A link is not followed if it is one too many or leads nowhere. -/
theorem follow_of_stuck {directory : Location} {target : Path} {rest : List (List Char)}
    (hwalk : fs.walk followLast location pieces = .link directory target rest)
    (hstuck : links = 0 ∨ target.text.isEmpty = true) :
    fs.follow followLast links location pieces =
        .error (if links = 0 then .tooManyLinks else .notFound) ∧
      fs.followPlaces followLast links location pieces = fs.walkPlaces location pieces := by
  rw [follow, followPlaces, hwalk]
  cases links with
  | zero => simp
  | succ links =>
    have htarget : target.text.isEmpty = true := hstuck.resolve_left (Nat.succ_ne_zero links)
    simp [htarget]

end

/-- An induction along the links that are followed. -/
theorem follow_induction (fs : FileSystem) (followLast : Bool)
    {motive : Nat → Location → List (List Char) → Prop}
    (done : ∀ links location pieces outcome,
      fs.walk followLast location pieces = .done outcome → motive links location pieces)
    (stuck : ∀ links location pieces directory target rest,
      fs.walk followLast location pieces = .link directory target rest →
      links = 0 ∨ target.text.isEmpty = true → motive links location pieces)
    (link : ∀ links location pieces directory target rest,
      fs.walk followLast location pieces = .link directory target rest →
      target.text.isEmpty = false →
      motive links (start directory target) (target.pieces ++ rest) →
      motive (links + 1) location pieces)
    (links : Nat) (location : Location) (pieces : List (List Char)) :
    motive links location pieces := by
  -- every link that is followed takes one from the number that is left
  induction links generalizing location pieces with
  | zero =>
    cases hwalk : fs.walk followLast location pieces with
    | done outcome => exact done _ _ _ _ hwalk
    | link directory target rest => exact stuck _ _ _ _ _ _ hwalk (Or.inl rfl)
  | succ links ih =>
    cases hwalk : fs.walk followLast location pieces with
    | done outcome => exact done _ _ _ _ hwalk
    | link directory target rest =>
      cases htarget : target.text.isEmpty with
      | true => exact stuck _ _ _ _ _ _ hwalk (Or.inr htarget)
      | false => exact link _ _ _ _ _ _ hwalk htarget (ih _ _)

/-- An induction along the links that are followed by a path that gets through: none of them is one
too many, and none leads nowhere. -/
theorem follow_present_induction {fs : FileSystem} {followLast : Bool} {q : Location}
    {motive : Nat → Location → List (List Char) → Prop}
    (done : ∀ links location pieces,
      fs.walk followLast location pieces = .done (.ok (.present q)) → motive links location pieces)
    (link : ∀ links location pieces directory target rest,
      fs.walk followLast location pieces = .link directory target rest →
      target.text.isEmpty = false →
      motive links (start directory target) (target.pieces ++ rest) →
      motive (links + 1) location pieces)
    {links : Nat} {location : Location} {pieces : List (List Char)}
    (h : fs.follow followLast links location pieces = .ok (.present q)) :
    motive links location pieces := by
  induction links, location, pieces using fs.follow_induction followLast with
  | done links location pieces outcome hwalk =>
    rw [follow_of_done hwalk] at h
    rw [h] at hwalk
    exact done _ _ _ hwalk
  | stuck links location pieces directory target rest hwalk hstuck =>
    rw [(follow_of_stuck hwalk hstuck).1] at h
    exact absurd h (by simp)
  | link links location pieces directory target rest hwalk htarget ih =>
    rw [follow_of_link hwalk htarget] at h
    exact link _ _ _ _ _ _ hwalk htarget (ih h)

/-! ## What a path depends on -/

section

variable {fs fs' : FileSystem} {location : Location} {pieces : List (List Char)}

/-- A walk that goes on with a name looks at what has this name. -/
theorem mem_walkPlaces_down {piece : List Char} {name : String}
    (h : Move.ofPiece piece = .down name) (rest : List (List Char)) :
    location ++ [name] ∈ fs.walkPlaces location (piece :: rest) := by
  cases hdir : fs.isDirectoryAt (location ++ [name]) with
  | false =>
    rw [walkPlaces_down_of_leaf fs location rest h hdir]
    simp
  | true =>
    rw [walkPlaces_down_of_directory fs location rest h hdir]
    exact List.mem_cons_of_mem _ (mem_walkPlaces_self fs _ rest)

/-- Past a place without a directory, a walk does not go on by itself. -/
theorem arrive_of_leaf {fs'' : FileSystem} {followLast : Bool} {name : String} {a : Option Face}
    (ha : ∀ l, a ≠ some (.directory l)) (rest : List (List Char)) :
    fs.arrive followLast location rest name a = fs''.arrive followLast location rest name a := by
  cases a with
  | none => rfl
  | some a =>
    cases a with
    | directory l => exact absurd rfl (ha l)
    | file | link | device => rfl

/-- A walk depends on nothing but the places that it looks at. -/
theorem walk_congr (h : ∀ p ∈ fs.walkPlaces location pieces, fs'.face? p = fs.face? p)
    (followLast : Bool) :
    fs'.walk followLast location pieces = fs.walk followLast location pieces ∧
      fs'.walkPlaces location pieces = fs.walkPlaces location pieces := by
  induction pieces generalizing location with
  | nil => exact ⟨rfl, rfl⟩
  | cons piece rest ih =>
    cases hmove : Move.ofPiece piece with
    | stay =>
      rw [walkPlaces_stay fs location rest hmove] at h ⊢
      obtain ⟨hwalks, hplaces⟩ := ih fun p hp => h p (List.mem_cons_of_mem _ hp)
      rw [walk_stay _ _ _ _ hmove, walk_stay _ _ _ _ hmove, walkPlaces_stay _ _ _ hmove, hwalks,
        hplaces]
      exact ⟨rfl, rfl⟩
    | up =>
      rw [walkPlaces_up fs location rest hmove] at h ⊢
      obtain ⟨hwalks, hplaces⟩ := ih fun p hp => h p (List.mem_cons_of_mem _ hp)
      rw [walk_up _ _ _ _ hmove, walk_up _ _ _ _ hmove, walkPlaces_up _ _ _ hmove, hwalks, hplaces]
      exact ⟨rfl, rfl⟩
    | tooLong =>
      rw [walk_tooLong _ _ _ _ hmove, walk_tooLong _ _ _ _ hmove, walkPlaces_tooLong _ _ _ hmove,
        walkPlaces_tooLong _ _ _ hmove]
      exact ⟨rfl, rfl⟩
    | down name =>
      -- the place itself is looked at, whatever is there
      have hplace : fs'.face? (location ++ [name]) = fs.face? (location ++ [name]) :=
        h _ (mem_walkPlaces_down hmove rest)
      have hdir' := isDirectoryAt_congr hplace
      rw [walk_down _ _ _ _ hmove, walk_down _ _ _ _ hmove, hplace]
      cases hdir : fs.isDirectoryAt (location ++ [name]) with
      | false =>
        rw [walkPlaces_down_of_leaf _ _ _ hmove hdir,
          walkPlaces_down_of_leaf _ _ _ hmove (hdir'.trans hdir)]
        exact ⟨arrive_of_leaf ((isDirectoryAt_eq_false_iff fs _).1 hdir) rest, rfl⟩
      | true =>
        rw [walkPlaces_down_of_directory fs location rest hmove hdir] at h ⊢
        rw [walkPlaces_down_of_directory _ _ _ hmove (hdir'.trans hdir)]
        obtain ⟨l, hl⟩ := (isDirectoryAt_iff fs _).1 hdir
        obtain ⟨hwalks, hplaces⟩ := ih fun p hp => h p (List.mem_cons_of_mem _ hp)
        rw [hl, hplaces]
        exact ⟨hwalks, rfl⟩

/-- Where a path leads depends on nothing but the places on its way. -/
theorem follow_congr {followLast : Bool} {links : Nat}
    (h : ∀ p ∈ fs.followPlaces followLast links location pieces, fs'.face? p = fs.face? p) :
    fs'.follow followLast links location pieces = fs.follow followLast links location pieces ∧
      fs'.followPlaces followLast links location pieces =
        fs.followPlaces followLast links location pieces := by
  induction links, location, pieces using fs.follow_induction followLast with
  | done links location pieces outcome hwalk =>
    obtain ⟨hwalks, hplaces⟩ :=
      walk_congr (fun p hp => h p (mem_followPlaces_of_walk hp)) followLast
    rw [follow_of_done hwalk, follow_of_done (hwalks.trans hwalk), followPlaces_of_done hwalk,
      followPlaces_of_done (hwalks.trans hwalk), hplaces]
    exact ⟨rfl, rfl⟩
  | stuck links location pieces directory target rest hwalk hstuck =>
    obtain ⟨hwalks, hplaces⟩ :=
      walk_congr (fun p hp => h p (mem_followPlaces_of_walk hp)) followLast
    obtain ⟨hfollow, hway⟩ := follow_of_stuck hwalk hstuck
    obtain ⟨hfollow', hway'⟩ := follow_of_stuck (hwalks.trans hwalk) hstuck
    rw [hfollow, hway, hfollow', hway', hplaces]
    exact ⟨rfl, rfl⟩
  | link links location pieces directory target rest hwalk htarget ih =>
    obtain ⟨hwalks, hplaces⟩ :=
      walk_congr (fun p hp => h p (mem_followPlaces_of_walk hp)) followLast
    -- the walk up to the link is the same, so both go on at the target of one link
    rw [followPlaces_of_link hwalk htarget] at h
    obtain ⟨hfollow, hway⟩ := ih fun p hp => h p (List.mem_append_right _ hp)
    rw [follow_of_link hwalk htarget, follow_of_link (hwalks.trans hwalk) htarget,
      followPlaces_of_link hwalk htarget, followPlaces_of_link (hwalks.trans hwalk) htarget, hplaces,
      hfollow, hway]
    exact ⟨rfl, rfl⟩

end

end Registrar.FileSystem
