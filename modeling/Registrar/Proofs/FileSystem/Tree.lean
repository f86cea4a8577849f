/-
# Trees seen place by place

What stands at a place, seen without its time and without what is in it.  A change at a location
shows there and below, and nowhere else.
-/
import Mathlib.Data.List.Induction
import Mathlib.Data.List.Infix
import Registrar.FileSystem.Change

namespace Registrar.FileSystem

/-- What an entry is, apart from its time and from what is in it. -/
inductive Face where
  | file (isExecutable : Bool) (contents : ByteArray)
  | link (target : String)
  | directory (isListable : Bool)
  | device

namespace Node

/-- An entry without its time and without what is in it. -/
def face : Node → Face
  | file _ isExecutable contents => .file isExecutable contents
  | link _ target => .link target
  | directory _ isListable _ => .directory isListable
  | device _ => .device

/-- An entry without what is in it.  The time of a directory, which is that of the last change of
its entries, does not count either. -/
def bare : Node → Node
  | directory _ isListable _ => directory 0 isListable []
  | n => n

theorem face_bare (n : Node) : n.bare.face = n.face := by
  cases n <;> rfl

/-- What an entry is shows without what is in it. -/
theorem map_face_bare (n : Option Node) : (n.map bare).map face = n.map face := by
  cases n with
  | none => rfl
  | some n => exact congrArg some (face_bare n)

/-! ## The entry at a location below a node -/

theorem get?_nil (n : Node) : n.get? [] = some n := by
  cases n <;> rfl

/-- The way to a place goes through every place above it. -/
theorem get?_append (p q : Location) (n : Node) : n.get? (p ++ q) = (n.get? p).bind (get? q) := by
  induction p generalizing n with
  | nil => rw [get?_nil]; rfl
  | cons name p ih =>
    cases n with
    | directory modified isListable entries =>
      show (entries.lookup name).bind (get? (p ++ q)) =
        ((entries.lookup name).bind (get? p)).bind (get? q)
      rw [Option.bind_assoc]
      congr 1
      funext n
      exact ih n
    | file | link | device => rfl

/-- There is nothing below what is no directory. -/
theorem get?_eq_none_of_leaf {n : Node} (hn : n.isDirectory = false) {q : Location} (hq : q ≠ []) :
    n.get? q = none := by
  cases q with
  | nil => exact absurd rfl hq
  | cons name q =>
    cases n with
    | directory => exact absurd hn (by simp [isDirectory])
    | file | link | device => rfl

/-- Whether an entry is a directory is seen from its face. -/
theorem isDirectory_iff_face (n : Node) : n.isDirectory = true ↔ ∃ l, n.face = .directory l := by
  cases n <;> simp [isDirectory, face]

theorem lookup_filter_ne (name : String) (entries : List (String × Node)) :
    (entries.filter fun entry => entry.1 ≠ name).lookup name = none := by
  rw [List.lookup_eq_none_iff]
  intro entry hentry
  have hne : entry.1 ≠ name := of_decide_eq_true (List.mem_filter.1 hentry).2
  exact bne_iff_ne.2 hne.symm

theorem lookup_filter_of_ne {name other : String} (h : other ≠ name)
    (entries : List (String × Node)) :
    (entries.filter fun entry => entry.1 ≠ name).lookup other = entries.lookup other := by
  induction entries with
  | nil => rfl
  | cons entry entries ih =>
    obtain ⟨key, n⟩ := entry
    by_cases hkey : key = name
    · have hother : (other == key) = false := by simpa [hkey] using h
      rw [List.filter_cons_of_neg (by simpa using hkey), ih, List.lookup_cons, hother]
    · rw [List.filter_cons_of_pos (by simpa using hkey), List.lookup_cons, List.lookup_cons, ih]

/-- A change of the entry of one name shows in the look-up of that name only. -/
theorem lookup_alterEntry (name other : String) (f : Option Node → Option Node)
    (entries : List (String × Node)) :
    (alterEntry name f entries).lookup other =
      if other = name then f (entries.lookup name) else entries.lookup other := by
  induction entries with
  | nil =>
    unfold alterEntry
    by_cases h : other = name
    · rw [if_pos h, h]
      cases hf : f none <;> simp [hf]
    · rw [if_neg h]
      cases f none <;> simp [h]
  | cons entry entries ih =>
    obtain ⟨key, n⟩ := entry
    unfold alterEntry
    by_cases hkey : key = name
    · subst hkey
      rw [if_pos rfl, List.lookup_cons_self]
      by_cases h : other = key
      · subst h
        rw [if_pos rfl]
        cases f (some n) with
        -- the name is taken out wherever it stands, so that no later entry comes to light
        | none => exact lookup_filter_ne other entries
        | some n' => exact List.lookup_cons_self
      · have hother : (other == key) = false := by simpa using h
        rw [if_neg h]
        rw [List.lookup_cons, hother]
        cases f (some n) with
        | none => exact lookup_filter_of_ne h entries
        | some n' =>
          show ((key, n') :: entries).lookup other = _
          rw [List.lookup_cons, hother]
    · rw [if_neg hkey, List.lookup_cons, ih]
      by_cases h : other = name
      · subst h
        have hname : (other == key) = false := by simpa using Ne.symm hkey
        rw [if_pos rfl, if_pos rfl, hname, List.lookup_cons, hname]
      · rw [if_neg h, if_neg h, List.lookup_cons]

/-! ## Changes at a location -/

/-- A change below a directory is a change of one of its entries. -/
theorem alter_cons (f : Option Node → Option Node) (name : String) (location : Location)
    (modified : Instant) (isListable : Bool) (entries : List (String × Node)) :
    (directory modified isListable entries).alter f (name :: location) =
      directory modified isListable (alterEntry name
        (if location = [] then f else Option.map (alter f location)) entries) := by
  cases location <;> rfl

/-- A change at a location does not show at a place that is neither there nor below. -/
theorem bare_get?_alter {location p : Location} (h : ¬ location <+: p)
    (f : Option Node → Option Node) (n : Node) :
    ((n.alter f location).get? p).map bare = (n.get? p).map bare := by
  induction location generalizing p n with
  | nil => exact absurd (List.nil_prefix) h
  | cons name location ih =>
    cases n with
    | file | link | device => rfl
    | directory modified isListable entries =>
      rw [alter_cons]
      cases p with
      | nil => rfl
      | cons other p =>
        show (((alterEntry name _ entries).lookup other).bind (get? p)).map bare =
          ((entries.lookup other).bind (get? p)).map bare
        rw [lookup_alterEntry]
        by_cases hother : other = name
        · subst hother
          -- the change and the place go into the same entry, and part only below it
          have hp : ¬ location <+: p := fun hp => h (List.cons_prefix_cons.2 ⟨rfl, hp⟩)
          have hlocation : location ≠ [] := fun hnil => hp (hnil ▸ List.nil_prefix)
          rw [if_pos rfl, if_neg hlocation]
          cases entries.lookup other with
          | none => rfl
          | some child => exact ih hp child
        · rw [if_neg hother]

/-- A change at a location leaves what is outside of it as it was. -/
theorem face_get?_alter {location p : Location} (h : ¬ location <+: p)
    (f : Option Node → Option Node) (n : Node) :
    ((n.alter f location).get? p).map face = (n.get? p).map face := by
  rw [← map_face_bare, bare_get?_alter h, map_face_bare]

/-- An entry that is changed in its place. -/
theorem get?_alter_map (g : Node → Node) (location q : Location) (n : Node) :
    (n.alter (Option.map g) location).get? (location ++ q) =
      ((n.get? location).map g).bind (get? q) := by
  induction location generalizing n with
  | nil => cases n <;> rfl
  | cons name location ih =>
    cases n with
    | file | link | device => rfl
    | directory modified isListable entries =>
      rw [alter_cons]
      show ((alterEntry name _ entries).lookup name).bind (get? (location ++ q)) =
        (((entries.lookup name).bind (get? location)).map g).bind (get? q)
      -- an entry at the last name is changed itself, one before it below
      rw [lookup_alterEntry, if_pos rfl]
      by_cases hlocation : location = []
      · subst hlocation
        rw [if_pos rfl]
        cases entries.lookup name with
        | none => rfl
        | some child =>
          show get? q (g child) = ((get? [] child).map g).bind (get? q)
          rw [get?_nil]
          rfl
      · rw [if_neg hlocation]
        cases entries.lookup name with
        | none => rfl
        | some child => exact ih child

/-- An entry that is put into a directory, or taken out of it. -/
theorem get?_alter_of_directory (f : Option Node → Option Node) (above : Location) (name : String)
    (q : Location) {n d : Node} (hget : n.get? above = some d) (hd : d.isDirectory = true) :
    (n.alter f (above ++ [name])).get? (above ++ [name] ++ q) =
      (f (n.get? (above ++ [name]))).bind (get? q) := by
  induction above generalizing n with
  | nil =>
    obtain rfl : n = d := by rw [get?_nil] at hget; exact Option.some.inj hget
    cases n with
    | file | link | device => exact absurd hd (by simp [isDirectory])
    | directory modified isListable entries =>
      rw [List.nil_append, alter_cons]
      show ((alterEntry name _ entries).lookup name).bind (get? q) =
        (f ((entries.lookup name).bind (get? []))).bind (get? q)
      rw [lookup_alterEntry, if_pos rfl, if_pos rfl]
      have hchild : (entries.lookup name).bind (get? []) = entries.lookup name := by
        cases entries.lookup name with
        | none => rfl
        | some child => exact get?_nil child
      rw [hchild]
  | cons first above ih =>
    cases n with
    | file | link | device => exact absurd hget (by simp [get?])
    | directory modified isListable entries =>
      rw [List.cons_append, alter_cons, if_neg (by simp)]
      show ((alterEntry first _ entries).lookup first).bind (get? (above ++ [name] ++ q)) =
        (f ((entries.lookup first).bind (get? (above ++ [name])))).bind (get? q)
      rw [lookup_alterEntry, if_pos rfl]
      replace hget : (entries.lookup first).bind (get? above) = some d := hget
      cases hchild : entries.lookup first with
      | none => exact absurd hget (by simp [hchild])
      | some child =>
        rw [hchild] at hget
        exact ih hget

/-- A directory that is touched has the same entries. -/
theorem get?_touched (time : Instant) {q : Location} (hq : q ≠ []) (n : Node) :
    (n.touched time).get? q = n.get? q := by
  cases q with
  | nil => exact absurd rfl hq
  | cons name q => cases n <;> rfl

/-- Touching an entry changes at most the time of a directory. -/
theorem bare_touched (time : Instant) (n : Node) : (n.touched time).bare = n.bare := by
  cases n <;> rfl

/-- That a directory was changed shows nowhere. -/
theorem bare_get?_alter_touched (time : Instant) (location p : Location) (n : Node) :
    ((n.alter (Option.map (touched time)) location).get? p).map bare = (n.get? p).map bare := by
  by_cases h : location <+: p
  · obtain ⟨q, rfl⟩ := h
    rw [get?_alter_map, get?_append]
    cases n.get? location with
    | none => rfl
    | some d =>
      show (get? q (d.touched time)).map bare = (get? q d).map bare
      by_cases hq : q = []
      · subst hq
        rw [get?_nil, get?_nil, Option.map_some, Option.map_some, bare_touched]
      · rw [get?_touched time hq]
  · exact bare_get?_alter h _ n

/-- What is in a directory that was changed is as it was. -/
theorem get?_alter_touched (time : Instant) (location : Location) {q : Location} (hq : q ≠ [])
    (n : Node) :
    (n.alter (Option.map (touched time)) location).get? (location ++ q) =
      n.get? (location ++ q) := by
  rw [get?_alter_map, get?_append]
  cases n.get? location with
  | none => rfl
  | some d => exact get?_touched time hq d

end Node

/-! ## What is at a place -/

/-- What is at a place of the tree, apart from its time and from what is in it. -/
def face? (fs : FileSystem) (p : Location) : Option Face :=
  (fs.entry? p).map Node.face

/-- What is at a place of the tree, with its time unless it is a directory, and without what is in
it. -/
def bare? (fs : FileSystem) (p : Location) : Option Node :=
  (fs.entry? p).map Node.bare

/-- The face of a place is seen from what is there without its contents. -/
theorem face?_eq_map_bare? (fs : FileSystem) (p : Location) :
    fs.face? p = (fs.bare? p).map Node.face :=
  (Node.map_face_bare (fs.entry? p)).symm

/-- Places that agree apart from their contents have the same face. -/
theorem face?_eq_of_bare? {fs fs' : FileSystem} {p : Location} (h : fs'.bare? p = fs.bare? p) :
    fs'.face? p = fs.face? p := by
  rw [face?_eq_map_bare?, face?_eq_map_bare?, h]

/-- Nothing is at a place exactly if it has no face. -/
theorem bare?_eq_none_iff (fs : FileSystem) (p : Location) :
    fs.bare? p = none ↔ fs.face? p = none := by
  unfold bare? face?
  rw [Option.map_eq_none_iff, Option.map_eq_none_iff]

/-- What is at a place below another one is found in the tree of that one. -/
theorem entryAt_append (fs : FileSystem) (p q : Location) :
    fs.entry? (p ++ q) = (fs.entry? p).bind (Node.get? q) :=
  Node.get?_append p q fs.root

theorem face?_eq_none_iff (fs : FileSystem) (p : Location) :
    fs.face? p = none ↔ fs.entry? p = none := by
  unfold face?
  exact Option.map_eq_none_iff

/-- Below a free place there is nothing. -/
theorem entryAt_eq_none_of_isPrefix {fs : FileSystem} {p q : Location} (h : fs.entry? p = none)
    (hunder : p <+: q) : fs.entry? q = none := by
  obtain ⟨rest, rfl⟩ := hunder
  rw [entryAt_append, h]
  rfl

/-- A directory is at a place if the entry there is one. -/
theorem isDirectoryAt_of_entryAt {fs : FileSystem} {p : Location} {n : Node}
    (h : fs.entry? p = some n) : fs.isDirectoryAt p = n.isDirectory := by
  unfold isDirectoryAt
  rw [h]
  rfl

/-- A directory is at a place exactly if the place has the face of one. -/
theorem isDirectoryAt_iff (fs : FileSystem) (p : Location) :
    fs.isDirectoryAt p = true ↔ ∃ l, fs.face? p = some (.directory l) := by
  unfold isDirectoryAt face?
  cases fs.entry? p with
  | none => simp
  | some n => simpa using Node.isDirectory_iff_face n

theorem isDirectoryAt_eq_false_iff (fs : FileSystem) (p : Location) :
    fs.isDirectoryAt p = false ↔ ∀ l, fs.face? p ≠ some (.directory l) := by
  rw [Bool.eq_false_iff, Ne, isDirectoryAt_iff, not_exists]

theorem isDirectoryAt_congr {fs fs' : FileSystem} {p : Location} (h : fs'.face? p = fs.face? p) :
    fs'.isDirectoryAt p = fs.isDirectoryAt p := by
  rw [Bool.eq_iff_iff, isDirectoryAt_iff, isDirectoryAt_iff, h]

/-- There is nothing below a place where there is no directory. -/
theorem entryAt_eq_none_of_not_directory {fs : FileSystem} {p q : Location}
    (h : fs.isDirectoryAt p = false) (hq : q ≠ []) : fs.entry? (p ++ q) = none := by
  rw [entryAt_append]
  unfold isDirectoryAt at h
  cases hp : fs.entry? p with
  | none => rfl
  | some n =>
    rw [hp] at h
    exact Node.get?_eq_none_of_leaf h hq

/-- There is something at every place above one where there is something. -/
theorem isSome_face?_dropLast {fs : FileSystem} {p : Location} (h : (fs.face? p).isSome) :
    (fs.face? p.dropLast).isSome := by
  rcases List.eq_nil_or_concat p with rfl | ⟨above, name, rfl⟩
  · exact h
  · rw [List.concat_eq_append] at h ⊢
    rw [List.dropLast_concat]
    unfold face? at h ⊢
    rw [entryAt_append] at h
    cases hp : fs.entry? above with
    | none => exact absurd h (by simp [hp])
    | some n => rfl

/-- Above a place where there is something there is a directory. -/
theorem isDirectoryAt_of_isSome {fs : FileSystem} {p : Location} {name : String}
    (h : (fs.face? (p ++ [name])).isSome) : fs.isDirectoryAt p = true := by
  rw [← Bool.not_eq_false]
  intro hleaf
  rw [face?, entryAt_eq_none_of_not_directory hleaf (by simp)] at h
  exact absurd h (by simp)

/-- The place above a directory is a directory. -/
theorem isDirectoryAt_dropLast {fs : FileSystem} {p : Location} (h : fs.isDirectoryAt p = true) :
    fs.isDirectoryAt p.dropLast = true := by
  rcases List.eq_nil_or_concat p with rfl | ⟨above, name, rfl⟩
  · exact h
  · rw [List.concat_eq_append] at h ⊢
    rw [List.dropLast_concat]
    obtain ⟨l, hl⟩ := (isDirectoryAt_iff fs _).1 h
    exact isDirectoryAt_of_isSome (by rw [hl]; rfl)

/-- If there is a directory anywhere, then the root is one. -/
theorem isDirectoryAt_nil {fs : FileSystem} {p : Location} (h : fs.isDirectoryAt p = true) :
    fs.isDirectoryAt [] = true := by
  induction p using List.reverseRecOn with
  | nil => exact h
  | append_singleton above name ih => exact ih (by simpa using isDirectoryAt_dropLast h)

/-! ## File systems that agree -/

/-- The same is at every place outside a region. -/
def AgreeOutside (R : Location → Prop) (fs fs' : FileSystem) : Prop :=
  ∀ p, ¬ R p → fs'.face? p = fs.face? p

namespace AgreeOutside

variable {R R' : Location → Prop} {fs fs' fs'' : FileSystem}

theorem refl (R : Location → Prop) (fs : FileSystem) : AgreeOutside R fs fs :=
  fun _ _ => rfl

theorem trans (h : AgreeOutside R fs fs') (h' : AgreeOutside R fs' fs'') :
    AgreeOutside R fs fs'' :=
  fun p hp => (h' p hp).trans (h p hp)

/-- File systems that agree outside a region agree outside every larger one. -/
theorem mono (h : AgreeOutside R fs fs') (hR : ∀ p, R p → R' p) : AgreeOutside R' fs fs' :=
  fun p hp => h p fun hRp => hp (hR p hRp)

end AgreeOutside

/-- Everything is as before, but there may be directories where nothing was. -/
def GrowsTo (fs fs' : FileSystem) : Prop :=
  ∀ p, fs'.face? p = fs.face? p ∨ fs.face? p = none ∧ fs'.face? p = some (.directory true)

namespace GrowsTo

variable {fs fs' fs'' : FileSystem}

theorem refl (fs : FileSystem) : GrowsTo fs fs :=
  fun _ => Or.inl rfl

theorem trans (h : GrowsTo fs fs') (h' : GrowsTo fs' fs'') : GrowsTo fs fs'' := by
  intro p
  rcases h p with hp | ⟨hnone, hdir⟩
  · rcases h' p with hp' | ⟨hnone', hdir'⟩
    · exact Or.inl (hp'.trans hp)
    · exact Or.inr ⟨hp ▸ hnone', hdir'⟩
  · rcases h' p with hp' | ⟨hnone', -⟩
    · exact Or.inr ⟨hnone, hp'.trans hdir⟩
    · exact absurd hnone' (by rw [hdir]; simp)

/-- What was there is there still. -/
theorem face?_eq_some {p : Location} {a : Face} (h : GrowsTo fs fs') (ha : fs.face? p = some a) :
    fs'.face? p = some a := by
  rcases h p with hp | ⟨hnone, -⟩
  · rw [hp, ha]
  · exact absurd hnone (by rw [ha]; simp)

end GrowsTo

/-! ## The changes of one entry -/

/-- A change of an entry in its place leaves all that is not below it as it was. -/
theorem modifyEntry_agrees (fs : FileSystem) (location : Location) (f : Node → Node) :
    AgreeOutside (location <+: ·) fs (fs.modifyEntry location f) := by
  intro p hp
  exact Node.face_get?_alter hp _ fs.root

/-- Below an entry that is changed stands what is below the changed one. -/
theorem entryAt_modifyEntry (fs : FileSystem) (location q : Location) (f : Node → Node) :
    entry? (fs.modifyEntry location f) (location ++ q) =
      ((fs.entry? location).map f).bind (Node.get? q) :=
  Node.get?_alter_map f location q fs.root

/-- Putting an entry at a place, or taking it away, shows there and below, and nowhere else. -/
theorem bare?_setEntry {fs : FileSystem} {location p : Location} (h : ¬ location <+: p)
    (n : Option Node) : bare? (fs.setEntry location n) p = fs.bare? p := by
  show (((fs.root.alter (fun _ => n) location).alter _ location.dropLast).get? p).map Node.bare = _
  rw [Node.bare_get?_alter_touched]
  exact Node.bare_get?_alter h _ fs.root

/-- An entry that is put at a place leaves all that is not below it as it was. -/
theorem setEntry_agrees (fs : FileSystem) (location : Location) (n : Option Node) :
    AgreeOutside (location <+: ·) fs (fs.setEntry location n) :=
  fun _ hp => face?_eq_of_bare? (bare?_setEntry hp n)

/-- What is at a place of a directory, and below it, after an entry was put there or taken away. -/
theorem entryAt_setEntry {fs : FileSystem} {above : Location} (h : fs.isDirectoryAt above = true)
    (name : String) (q : Location) (n : Option Node) :
    entry? (fs.setEntry (above ++ [name]) n) (above ++ [name] ++ q) = n.bind (Node.get? q) := by
  unfold isDirectoryAt at h
  cases hd : fs.entry? above with
  | none => exact absurd h (by simp [hd])
  | some d =>
    rw [hd] at h
    show ((fs.root.alter _ (above ++ [name])).alter _ (above ++ [name]).dropLast).get? _ = _
    rw [List.dropLast_concat, List.append_assoc, Node.get?_alter_touched _ _ (by simp),
      ← List.append_assoc, Node.get?_alter_of_directory _ above name q hd h]

/-- What was put at a place of a directory is there. -/
theorem entryAt_setEntry_self {fs : FileSystem} {above : Location}
    (h : fs.isDirectoryAt above = true) (name : String) (n : Node) :
    entry? (fs.setEntry (above ++ [name]) (some n)) (above ++ [name]) = some n := by
  have hput := entryAt_setEntry h name [] (some n)
  rw [List.append_nil, Option.bind_some, Node.get?_nil] at hput
  exact hput

end Registrar.FileSystem
