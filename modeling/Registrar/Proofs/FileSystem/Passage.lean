/-
# Ways that get through

At every place of a way that gets through there is something, and it can be taken in two parts at
any piece.  A region that lets nothing pass either is not on a way at all or ends it.
-/
import Registrar.Proofs.FileSystem.Way

namespace Registrar.FileSystem

variable {fs fs' : FileSystem} {followLast : Bool} {links : Nat} {location : Location}
  {pieces : List (List Char)}

/-! ## What is on a way that gets through -/

/-- Where a walk gets to: its end, or the directory with a link that is still to be followed. -/
inductive Walk.GetsTo (walk : Walk) (q : Location) : Prop where
  | present (h : walk = .done (.ok (.present q)))
  | link (target : Path) (rest : List (List Char)) (h : walk = .link q target rest)

theorem Walk.GetsTo.ne_error {walk : Walk} {q : Location} (h : walk.GetsTo q) (e : IoError) :
    walk ≠ .done (.error e) := by
  rcases h with rfl | ⟨_, _, rfl⟩
  · simp
  · simp

/-- From a leaf a walk gets no further, and there is something at the leaf. -/
theorem Arrival.of_getsTo {rest : List (List Char)} {name : String} {walk : Walk} {q : Location}
    (harrival : Arrival fs location rest name walk) (h : walk.GetsTo q) :
    (q = location ∨ q = location ++ [name]) ∧ (fs.face? (location ++ [name])).isSome := by
  cases harrival with
  | failed e hwalk => exact absurd hwalk (h.ne_error e)
  | absent behind hface hwalk =>
    subst hwalk
    rcases h with h | ⟨_, _, h⟩
    · exact absurd h (by simp)
    · exact absurd h (by simp)
  | present hface hrest hwalk =>
    subst hwalk
    rcases h with h | ⟨_, _, h⟩
    · exact ⟨Or.inr (by simpa using h.symm), hface⟩
    · exact absurd h (by simp)
  | link target hface hwalk =>
    subst hwalk
    rcases h with h | ⟨_, _, h⟩
    · exact absurd h (by simp)
    · exact ⟨Or.inl (Walk.link.inj h).1.symm, by rw [hface]; rfl⟩

/-- A walk gets to a place that it looks at. -/
theorem mem_walkPlaces_of_getsTo {q : Location}
    (h : (fs.walk followLast location pieces).GetsTo q) :
    q ∈ fs.walkPlaces location pieces := by
  revert h
  refine fs.walk_induction followLast (motive := fun _ _ walk places =>
    walk.GetsTo q → q ∈ places) ?_ ?_ ?_ ?_ location pieces
  · rintro location (h | ⟨_, _, h⟩)
    · simpa using h.symm
    · exact absurd h (by simp)
  · intro _ _ _ _ _ _ _ ih h
    exact List.mem_cons_of_mem _ (ih h)
  · intro _ _ _ h
    exact absurd rfl (h.ne_error _)
  · intro location name _ rest walk harrival h
    simpa using (harrival.of_getsTo h).1

/-- Without a directory at a name, a walk that comes to a link comes to it there. -/
theorem of_arrive_eq_link {name : String} {rest rest' : List (List Char)} {directory : Location}
    {target : Path} (hdir : fs.isDirectoryAt (location ++ [name]) = false)
    (h : fs.arrive followLast location rest name (fs.face? (location ++ [name])) =
      .link directory target rest') :
    fs.face? (location ++ [name]) = some (.link target.text) ∧ location = directory ∧
      rest = rest' := by
  cases fs.arrival followLast hdir rest with
  | failed e hwalk => exact absurd (hwalk.symm.trans h) (by simp)
  | absent behind hface hwalk => exact absurd (hwalk.symm.trans h) (by simp)
  | present hface hrest hwalk => exact absurd (hwalk.symm.trans h) (by simp)
  | link target' hface hwalk =>
    obtain ⟨rfl, rfl, rfl⟩ := Walk.link.inj (hwalk.symm.trans h)
    exact ⟨hface, rfl, rfl⟩

/-- There is something where a walk goes on. -/
theorem isSome_face?_next {location' : Location} (hloc : (fs.face? location).isSome)
    (h : Next fs location location') : (fs.face? location').isSome := by
  cases h with
  | stay => exact hloc
  | up => exact isSome_face?_dropLast hloc
  | down name hdir =>
    obtain ⟨l, hl⟩ := (isDirectoryAt_iff fs _).1 hdir
    rw [hl]
    rfl

/-- There is a directory where a walk goes on. -/
theorem isDirectoryAt_next {location' : Location} (hloc : fs.isDirectoryAt location = true)
    (h : Next fs location location') : fs.isDirectoryAt location' = true := by
  cases h with
  | stay => exact hloc
  | up => exact isDirectoryAt_dropLast hloc
  | down name hdir => exact hdir

/-- Something is at every place that is looked at by a walk that gets somewhere. -/
theorem isSome_face?_of_getsTo {q : Location} (hloc : (fs.face? location).isSome)
    (h : (fs.walk followLast location pieces).GetsTo q) :
    ∀ p ∈ fs.walkPlaces location pieces, (fs.face? p).isSome := by
  revert hloc h
  refine fs.walk_induction followLast (motive := fun location _ walk places =>
    (fs.face? location).isSome → walk.GetsTo q → ∀ p ∈ places, (fs.face? p).isSome)
    ?_ ?_ ?_ ?_ location pieces
  · intro location hloc _ p hp
    rw [List.mem_singleton.1 hp]
    exact hloc
  · intro location location' _ _ _ _ hnext ih hloc h
    exact List.forall_mem_cons.2 ⟨hloc, ih (isSome_face?_next hloc hnext) h⟩
  · intro _ _ _ _ h
    exact absurd rfl (h.ne_error _)
  · intro location name _ rest walk harrival hloc h
    exact List.forall_mem_cons.2 ⟨hloc, List.forall_mem_singleton.2 (harrival.of_getsTo h).2⟩

theorem isSome_face?_nil (fs : FileSystem) : (fs.face? []).isSome := by
  unfold face? entry?
  rw [Node.get?_nil]
  rfl

theorem isSome_face?_start {directory : Location} (h : (fs.face? directory).isSome) (p : Path) :
    (fs.face? (start directory p)).isSome := by
  unfold start
  split
  · exact isSome_face?_nil fs
  · exact h

/-- A way that gets through ends at one of its places. -/
theorem mem_followPlaces_of_present {q : Location}
    (h : fs.follow followLast links location pieces = .ok (.present q)) :
    q ∈ fs.followPlaces followLast links location pieces := by
  refine follow_present_induction (motive := fun links location pieces =>
    q ∈ fs.followPlaces followLast links location pieces) ?_ ?_ h
  · intro links location pieces hwalk
    exact mem_followPlaces_of_walk (mem_walkPlaces_of_getsTo (.present hwalk))
  · intro links location pieces directory target rest hwalk htarget ih
    rw [followPlaces_of_link hwalk htarget]
    exact List.mem_append_right _ ih

/-- Something is at every place of a way that gets through. -/
theorem isSome_face?_of_follow {q : Location} (hloc : (fs.face? location).isSome)
    (h : fs.follow followLast links location pieces = .ok (.present q)) :
    ∀ p ∈ fs.followPlaces followLast links location pieces, (fs.face? p).isSome := by
  revert hloc
  refine follow_present_induction (motive := fun links location pieces =>
    (fs.face? location).isSome →
      ∀ p ∈ fs.followPlaces followLast links location pieces, (fs.face? p).isSome) ?_ ?_ h
  · intro links location pieces hwalk hloc
    rw [followPlaces_of_done hwalk]
    exact isSome_face?_of_getsTo hloc (.present hwalk)
  · intro links location pieces directory target rest hwalk htarget ih hloc
    rw [followPlaces_of_link hwalk htarget, List.forall_mem_append]
    have hplaces := isSome_face?_of_getsTo hloc (.link target rest hwalk)
    have hdirectory := hplaces directory (mem_walkPlaces_of_getsTo (.link target rest hwalk))
    exact ⟨hplaces, ih (isSome_face?_start hdirectory target)⟩

/-! ## A way in two parts -/

section

variable {front back : List (List Char)}

/-- A walk along the front of a path looks at places that the whole walk looks at too. -/
theorem walkPlaces_subset_append (fs : FileSystem) (location : Location)
    (front back : List (List Char)) :
    fs.walkPlaces location front ⊆ fs.walkPlaces location (front ++ back) := by
  induction front generalizing location with
  | nil =>
    intro p hp
    rw [List.mem_singleton.1 hp]
    exact mem_walkPlaces_self fs location back
  | cons piece rest ih =>
    rw [List.cons_append]
    cases fs.turn location piece with
    | next location' hnext hwalk hplaces =>
      rw [hplaces, hplaces]
      exact List.cons_subset_cons _ (ih location')
    | tooLong hwalk hplaces =>
      rw [hplaces, hplaces]
      exact List.Subset.refl _
    | leaf name hdir hwalk hplaces =>
      rw [hplaces, hplaces]
      exact List.Subset.refl _

/-- A link on the front of a path is met by the whole walk too, which ends there. -/
theorem walk_append_of_link {directory : Location} {target : Path} {rest : List (List Char)}
    (hback : back ≠ [])
    (h : fs.walk true location front = .link directory target rest) (followLast : Bool) :
    fs.walk followLast location (front ++ back) = .link directory target (rest ++ back) ∧
      fs.walkPlaces location (front ++ back) = fs.walkPlaces location front := by
  induction front generalizing location with
  | nil => exact absurd h (by simp [walk])
  | cons piece rest' ih =>
    rw [List.cons_append]
    cases fs.turn location piece with
    | next location' hnext hwalk hplaces =>
      rw [hwalk] at h ⊢
      rw [hplaces, hplaces]
      exact (ih h).imp_right (congrArg (location :: ·))
    | tooLong hwalk hplaces =>
      rw [hwalk] at h
      exact absurd h (by simp)
    | leaf name hdir hwalk hplaces =>
      rw [hwalk] at h ⊢
      rw [hplaces, hplaces]
      refine ⟨?_, rfl⟩
      obtain ⟨hlink, rfl, rfl⟩ := of_arrive_eq_link hdir h
      -- something stands behind the link, so that it is followed in any case
      simp [hlink, arrive, hback]

/-- Behind a directory that its front leads to, a walk goes on from there. -/
theorem walk_append_of_present {directory : Location}
    (hdirectory : fs.isDirectoryAt directory = true)
    (h : fs.walk true location front = .done (.ok (.present directory))) (followLast : Bool)
    (back : List (List Char)) :
    fs.walk followLast location (front ++ back) = fs.walk followLast directory back ∧
      ∀ p, p ∈ fs.walkPlaces location (front ++ back) ↔
        p ∈ fs.walkPlaces location front ∨ p ∈ fs.walkPlaces directory back := by
  induction front generalizing location with
  | nil =>
    obtain rfl : location = directory := by simpa [walk] using h
    refine ⟨rfl, fun p => ⟨Or.inr, ?_⟩⟩
    rintro (hp | hp)
    · rw [List.mem_singleton.1 hp]
      exact mem_walkPlaces_self fs location back
    · exact hp
  | cons piece rest ih =>
    rw [List.cons_append]
    cases fs.turn location piece with
    | next location' hnext hwalk hplaces =>
      rw [hwalk] at h ⊢
      rw [hplaces, hplaces]
      obtain ⟨hback, hsame⟩ := ih h
      exact ⟨hback, fun p => by rw [List.mem_cons, List.mem_cons, hsame, or_assoc]⟩
    | tooLong hwalk hplaces =>
      rw [hwalk] at h
      exact absurd h (by simp)
    | leaf name hdir hwalk hplaces =>
      -- the walk would end at the leaf, which is no directory
      rw [hwalk] at h
      cases fs.arrival true hdir rest with
      | failed e hwalk => exact absurd (hwalk.symm.trans h) (by simp)
      | absent behind hface hwalk => exact absurd (hwalk.symm.trans h) (by simp)
      | present hface hrest hwalk =>
        obtain rfl : location ++ [name] = directory := by simpa using hwalk.symm.trans h
        exact absurd (hdir.symm.trans hdirectory) (by simp)
      | link target hface hwalk => exact absurd (hwalk.symm.trans h) (by simp)

/-- The way of the front of a path is on the way of the whole. -/
theorem followPlaces_subset_append (hback : back ≠ []) :
    fs.followPlaces true links location front ⊆
      fs.followPlaces followLast links location (front ++ back) := by
  induction links, location, front using fs.follow_induction true with
  | done links location front outcome hwalk =>
    rw [followPlaces_of_done hwalk]
    intro p hp
    exact mem_followPlaces_of_walk (walkPlaces_subset_append fs location front back hp)
  | stuck links location front directory target rest hwalk hstuck =>
    rw [(follow_of_stuck hwalk hstuck).2]
    intro p hp
    exact mem_followPlaces_of_walk (walkPlaces_subset_append fs location front back hp)
  | link links location front directory target rest hwalk htarget ih =>
    obtain ⟨hwalk', hplaces⟩ := walk_append_of_link hback hwalk followLast
    rw [followPlaces_of_link hwalk htarget, followPlaces_of_link hwalk' htarget, hplaces,
      ← List.append_assoc]
    intro p hp
    exact List.mem_append.2 ((List.mem_append.1 hp).imp_right fun hp => ih hp)

/-- Behind a directory that its front leads to, a path goes on from there. -/
theorem follow_append {directory : Location} (hback : back ≠ [])
    (hdirectory : fs.isDirectoryAt directory = true)
    (h : fs.follow true links location front = .ok (.present directory)) (followLast : Bool) :
    ∃ l, fs.follow followLast links location (front ++ back) =
        fs.follow followLast l directory back ∧
      ∀ p, p ∈ fs.followPlaces followLast links location (front ++ back) ↔
        p ∈ fs.followPlaces true links location front ∨
          p ∈ fs.followPlaces followLast l directory back := by
  refine follow_present_induction (motive := fun links location front =>
    ∃ l, fs.follow followLast links location (front ++ back) =
        fs.follow followLast l directory back ∧
      ∀ p, p ∈ fs.followPlaces followLast links location (front ++ back) ↔
        p ∈ fs.followPlaces true links location front ∨
          p ∈ fs.followPlaces followLast l directory back) ?_ ?_ h
  · intro links location front hwalk
    obtain ⟨hbehind, hmem⟩ := walk_append_of_present hdirectory hwalk followLast back
    -- no link was followed up to the directory, so as many are left for what is behind it
    refine ⟨links, by rw [follow, follow, hbehind], fun p => ?_⟩
    rw [followPlaces_of_done hwalk, followPlaces, followPlaces, hbehind, List.mem_append,
      List.mem_append, hmem, or_assoc]
  · intro links location front directory' target rest hwalk htarget ih
    obtain ⟨hwalk', hplaces⟩ := walk_append_of_link hback hwalk followLast
    obtain ⟨l, hbehind, hmem⟩ := ih
    rw [List.append_assoc] at hbehind hmem
    refine ⟨l, by rw [follow_of_link hwalk' htarget, hbehind], fun p => ?_⟩
    rw [followPlaces_of_link hwalk' htarget, followPlaces_of_link hwalk htarget, hplaces,
      List.mem_append, List.mem_append, hmem, or_assoc]

/-- Along the front of a path, a walk gets to a directory or to a link, or the whole walk comes to
no entry. -/
theorem walk_append_cases (hback : back ≠ []) (hloc : fs.isDirectoryAt location = true)
    (followLast : Bool) (front : List (List Char)) :
    (∃ d, fs.walk true location front = .done (.ok (.present d)) ∧ fs.isDirectoryAt d = true) ∨
      (∃ d target rest, fs.walk true location front = .link d target rest ∧
        fs.isDirectoryAt d = true) ∨
      ∃ outcome, fs.walk followLast location (front ++ back) = .done outcome ∧
        ∀ q, outcome ≠ .ok (.present q) := by
  induction front generalizing location with
  | nil => exact Or.inl ⟨location, rfl, hloc⟩
  | cons piece rest ih =>
    rw [List.cons_append]
    cases fs.turn location piece with
    | next location' hnext hwalk hplaces =>
      rw [hwalk, hwalk]
      exact ih (isDirectoryAt_next hloc hnext)
    | tooLong hwalk hplaces =>
      rw [hwalk, hwalk]
      exact Or.inr (Or.inr ⟨_, rfl, by simp⟩)
    | leaf name hdir hwalk hplaces =>
      rw [hwalk, hwalk]
      cases fs.arrival followLast hdir (rest ++ back) with
      | failed e hwalk => exact Or.inr (Or.inr ⟨_, hwalk, by simp⟩)
      | absent behind hface hwalk => exact Or.inr (Or.inr ⟨_, hwalk, by simp⟩)
      | present hface hrest hwalk => exact absurd (List.append_eq_nil_iff.1 hrest).2 hback
      | link target hface hwalk =>
        exact Or.inr (Or.inl ⟨location, ⟨target⟩, rest, by simp [arrive, hface], hloc⟩)

theorem isDirectoryAt_start {directory : Location} (h : fs.isDirectoryAt directory = true)
    (p : Path) : fs.isDirectoryAt (start directory p) = true := by
  unfold start
  split
  · exact isDirectoryAt_nil h
  · exact h

/-- A path that gets through gets to a directory along its front. -/
theorem exists_of_follow_append {q : Location} (hback : back ≠ [])
    (hloc : fs.isDirectoryAt location = true)
    (h : fs.follow followLast links location (front ++ back) = .ok (.present q)) :
    ∃ d, fs.follow true links location front = .ok (.present d) ∧
      fs.isDirectoryAt d = true := by
  induction links, location, front using fs.follow_induction true with
  | done links location front outcome hwalk =>
    rcases walk_append_cases hback hloc followLast front with
      ⟨d, hd, hdir⟩ | ⟨d, target, rest, hd, -⟩ | ⟨outcome', hwalk', hnone⟩
    · exact ⟨d, follow_of_done hd, hdir⟩
    · exact absurd (hwalk.symm.trans hd) (by simp)
    · rw [follow_of_done hwalk'] at h
      exact absurd h (hnone q)
  | stuck links location front directory target rest hwalk hstuck =>
    obtain ⟨hwalk', -⟩ := walk_append_of_link hback hwalk followLast
    rw [(follow_of_stuck hwalk' hstuck).1] at h
    exact absurd h (by simp)
  | link links location front directory target rest hwalk htarget ih =>
    -- the link that the front meets is the one that the whole path meets first
    obtain ⟨hwalk', -⟩ := walk_append_of_link hback hwalk followLast
    rw [follow_of_link hwalk' htarget, ← List.append_assoc] at h
    rw [follow_of_link hwalk htarget]
    rcases walk_append_cases hback hloc followLast front with
      ⟨d, hd, -⟩ | ⟨d, target', rest', hd, hdir⟩ | ⟨outcome', hwalk'', -⟩
    · exact absurd (hwalk.symm.trans hd) (by simp)
    · obtain ⟨rfl, -, -⟩ := Walk.link.inj (hwalk.symm.trans hd)
      exact ih (isDirectoryAt_start hdir target) h
    · exact absurd (hwalk'.symm.trans hwalk'') (by simp)

end

end Registrar.FileSystem
