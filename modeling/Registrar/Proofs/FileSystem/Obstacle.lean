/-
# Ways under change

Where a path leads after the tree has changed.  What is off its way does not matter, and a region
that lets nothing pass any more ends the way wherever it meets the region.
-/
import Registrar.Proofs.FileSystem.Passage

namespace Registrar.FileSystem

variable {R : Location → Prop} {fs fs' : FileSystem} {followLast : Bool} {links : Nat}
  {location : Location} {pieces : List (List Char)}

/-! ## Regions that let nothing pass -/

/-- No way leads on from a place in a region: there is no directory and no link in it. -/
structure Blocks (R : Location → Prop) (fs : FileSystem) : Prop where
  below : ∀ p name, R p → R (p ++ [name])
  not_directory : ∀ p, R p → fs.isDirectoryAt p = false
  not_link : ∀ p target, R p → fs.face? p ≠ some (.link target)

namespace Blocks

theorem of_above (h : Blocks R fs) {p q : Location} (hp : R p) (hpq : p <+: q) : R q := by
  obtain ⟨rest, rfl⟩ := hpq
  induction rest generalizing p with
  | nil => simpa using hp
  | cons name rest ih => simpa using ih (h.below p name hp)

theorem not_above (h : Blocks R fs) {p q : Location} (hq : ¬ R q) (hpq : p <+: q) : ¬ R p :=
  fun hp => hq (h.of_above hp hpq)

theorem not_start (h : Blocks R fs) {p : Location} (hp : ¬ R p) (target : Path) :
    ¬ R (start p target) := by
  unfold start
  split
  · exact h.not_above hp List.nil_prefix
  · exact hp

theorem or {R' : Location → Prop} (h : Blocks R fs) (h' : Blocks R' fs) :
    Blocks (fun p => R p ∨ R' p) fs where
  below p name := Or.imp (h.below p name) (h'.below p name)
  not_directory p hp := hp.elim (h.not_directory p) (h'.not_directory p)
  not_link p target hp := hp.elim (h.not_link p target) (h'.not_link p target)

/-- Where nothing is, nothing passes. -/
theorem free (fs : FileSystem) : Blocks (fun p => fs.face? p = none) fs where
  below p name hp := by
    rw [face?_eq_none_iff] at hp ⊢
    rw [entryAt_append, hp]
    rfl
  not_directory p hp := by
    rw [isDirectoryAt_eq_false_iff, hp]
    simp
  not_link p target hp := by
    rw [hp]
    simp

end Blocks

/-- A walk that meets a region through which nothing passes ends there or fails. -/
theorem walk_of_blocks (hagree : AgreeOutside R fs fs') (hblocks : Blocks R fs')
    (hloc : ¬ R location) (followLast : Bool) (pieces : List (List Char)) :
    (∀ p ∈ fs.walkPlaces location pieces, ¬ R p) ∨
      ∃ outcome, fs'.walk followLast location pieces = .done outcome ∧
        ∀ q, outcome = .ok (.present q) → R q := by
  induction pieces generalizing location with
  | nil =>
    refine Or.inl fun p hp => ?_
    rw [List.mem_singleton.1 hp]
    exact hloc
  | cons piece rest ih =>
    cases hmove : Move.ofPiece piece with
    | stay =>
      rw [walkPlaces_stay _ _ _ hmove, walk_stay _ _ _ _ hmove]
      exact (ih hloc).imp_left fun h => List.forall_mem_cons.2 ⟨hloc, h⟩
    | up =>
      rw [walkPlaces_up _ _ _ hmove, walk_up _ _ _ _ hmove]
      have hup := hblocks.not_above hloc (List.dropLast_prefix location)
      exact (ih hup).imp_left fun h => List.forall_mem_cons.2 ⟨hloc, h⟩
    | tooLong =>
      rw [walkPlaces_tooLong _ _ _ hmove]
      refine Or.inl fun p hp => ?_
      rw [List.mem_singleton.1 hp]
      exact hloc
    | down name =>
      rw [walk_down _ _ _ _ hmove]
      by_cases hplace : R (location ++ [name])
      · -- whatever is at the place now, it is no directory and no link
        right
        cases fs'.arrival followLast (hblocks.not_directory _ hplace) rest with
        | failed e hwalk => exact ⟨_, hwalk, by simp⟩
        | absent behind hface hwalk => exact ⟨_, hwalk, by simp⟩
        | present hface hrest hwalk => exact ⟨_, hwalk, fun q hq => by simp_all⟩
        | link target hface hwalk => exact absurd hface (hblocks.not_link _ target hplace)
      · have hsame := hagree _ hplace
        cases hdir : fs.isDirectoryAt (location ++ [name]) with
        | false =>
          rw [walkPlaces_down_of_leaf _ _ _ hmove hdir]
          left
          simpa using ⟨hloc, hplace⟩
        | true =>
          obtain ⟨l, hl⟩ := (isDirectoryAt_iff fs _).1 hdir
          rw [walkPlaces_down_of_directory _ _ _ hmove hdir, hsame, hl]
          exact (ih hplace).imp_left fun h => List.forall_mem_cons.2 ⟨hloc, h⟩

/-- A path leads into a region or nowhere if the first walk along it ends there. -/
theorem of_follow_of_walk {q : Location}
    (h : ∃ outcome, fs.walk followLast location pieces = .done outcome ∧
      ∀ q, outcome = .ok (.present q) → R q)
    (hq : fs.follow followLast links location pieces = .ok (.present q)) : R q := by
  obtain ⟨outcome, hwalk, hout⟩ := h
  rw [follow_of_done hwalk] at hq
  exact hout q hq

/-- A path that meets a region through which nothing passes leads into it or nowhere. -/
theorem follow_of_blocks (hagree : AgreeOutside R fs fs') (hblocks : Blocks R fs')
    (hloc : ¬ R location) :
    (∀ p ∈ fs.followPlaces followLast links location pieces, ¬ R p) ∨
      ∀ q, fs'.follow followLast links location pieces = .ok (.present q) → R q := by
  induction links, location, pieces using fs.follow_induction followLast with
  | done links location pieces outcome hwalk =>
    rw [followPlaces_of_done hwalk]
    exact (walk_of_blocks hagree hblocks hloc followLast pieces).imp_right fun h q hq =>
      of_follow_of_walk h hq
  | stuck links location pieces directory target rest hwalk hstuck =>
    rw [(follow_of_stuck hwalk hstuck).2]
    exact (walk_of_blocks hagree hblocks hloc followLast pieces).imp_right fun h q hq =>
      of_follow_of_walk h hq
  | link links location pieces directory target rest hwalk htarget ih =>
    rw [followPlaces_of_link hwalk htarget]
    rcases walk_of_blocks hagree hblocks hloc followLast pieces with hfree | hdone
    · -- up to the link nothing has changed, so the link is followed as before
      have hwalk' := (walk_congr (fun p hp => hagree p (hfree p hp)) followLast).1.trans hwalk
      rw [follow_of_link hwalk' htarget]
      have hlink := mem_walkPlaces_of_getsTo (.link target rest hwalk)
      have hstart := hblocks.not_start (hfree _ hlink) target
      exact (ih hstart).imp_left fun h p hp => (List.mem_append.1 hp).elim (hfree p) (h p)
    · exact Or.inr fun q hq => of_follow_of_walk hdone hq

/-! ## Whether the last link is followed -/

theorem walk_true_of_walk_false (fs : FileSystem) (location : Location)
    (pieces : List (List Char)) :
    fs.walk true location pieces = fs.walk false location pieces ∨
      ∃ q target, fs.walk false location pieces = .done (.ok (.present q)) ∧
        fs.face? q = some (.link target) := by
  induction pieces generalizing location with
  | nil => exact Or.inl rfl
  | cons piece rest ih =>
    cases fs.turn location piece with
    | next location' hnext hwalk hplaces =>
      rw [hwalk, hwalk]
      exact ih location'
    | tooLong hwalk hplaces =>
      rw [hwalk, hwalk]
      exact Or.inl rfl
    | leaf name hdir hwalk hplaces =>
      rw [hwalk, hwalk]
      cases hface : fs.face? (location ++ [name]) with
      | none => exact Or.inl rfl
      | some a =>
        cases a with
        | directory l => exact absurd hface ((isDirectoryAt_eq_false_iff fs _).1 hdir l)
        | file | device => exact Or.inl rfl
        | link target =>
          -- only a link at the end is treated differently
          by_cases hrest : rest.isEmpty = true
          · exact Or.inr ⟨_, target, by simp [arrive, hrest], hface⟩
          · exact Or.inl (by simp [arrive, hrest])

/-- A path that leads to something other than a link leads there whether or not a link at its end
is followed. -/
theorem follow_true_of_follow_false {q : Location}
    (h : fs.follow false links location pieces = .ok (.present q))
    (hq : ∀ target, fs.face? q ≠ some (.link target)) :
    fs.follow true links location pieces = .ok (.present q) ∧
      fs.followPlaces true links location pieces =
        fs.followPlaces false links location pieces := by
  refine follow_present_induction (motive := fun links location pieces =>
    fs.follow true links location pieces = .ok (.present q) ∧
      fs.followPlaces true links location pieces =
        fs.followPlaces false links location pieces) ?_ ?_ h
  · intro links location pieces hwalk
    rcases walk_true_of_walk_false fs location pieces with hsame | ⟨q', target, hwalk', hlink⟩
    · rw [follow_of_done (hsame.trans hwalk), followPlaces_of_done (hsame.trans hwalk),
        followPlaces_of_done hwalk]
      exact ⟨rfl, rfl⟩
    · obtain rfl : q = q' := by simpa using hwalk.symm.trans hwalk'
      exact absurd hlink (hq target)
  · intro links location pieces directory target rest hwalk htarget ih
    rcases walk_true_of_walk_false fs location pieces with hsame | ⟨q', target', hwalk', -⟩
    · obtain ⟨hfollow, hplaces⟩ := ih
      rw [follow_of_link (hsame.trans hwalk) htarget,
        followPlaces_of_link (hsame.trans hwalk) htarget, followPlaces_of_link hwalk htarget,
        hplaces]
      exact ⟨hfollow, rfl⟩
    · exact absurd (hwalk.symm.trans hwalk') (by simp)

end Registrar.FileSystem
