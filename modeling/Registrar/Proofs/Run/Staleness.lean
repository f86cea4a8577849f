/-
# The search for the newest header

The search reads one pending directory after the other and keeps the latest time that it has met.
It succeeds exactly if everything on its way can be read, and then the time that it gives is that of
a header, and no header is newer.
-/
import Mathlib.Order.Bounds.Basic
import Registrar.Proofs.FileSystem.Opening
import Registrar.Proofs.FileSystem.Proper
import Registrar.Run.Staleness

namespace Registrar.FileSystem

/-! ## The latest of some times -/

/-- The latest of some times, or nothing if there are none. -/
def IsLatest (times : Set Instant) : Option Instant → Prop
  | some t => IsGreatest times t
  | none => times = ∅

variable {times : Set Instant} {newest r : Option Instant}

/-- There is one latest time at most. -/
theorem IsLatest.unique (h : IsLatest times newest) (h' : IsLatest times r) : newest = r := by
  cases newest with
  | none =>
    cases r with
    | none => rfl
    | some t =>
      have hmem : t ∈ times := h'.1
      rw [show times = ∅ from h] at hmem
      exact absurd hmem (Set.notMem_empty t)
  | some s =>
    cases r with
    | none =>
      have hmem : s ∈ times := h.1
      rw [show times = ∅ from h'] at hmem
      exact absurd hmem (Set.notMem_empty s)
    | some t => exact congrArg some (IsGreatest.unique h h')

/-- The latest time when one more has come to the others. -/
theorem IsLatest.later (h : IsLatest times newest) (time : Instant) :
    IsLatest (times ∪ {time}) (later newest time) := by
  cases newest with
  | none =>
    rw [show times = ∅ from h, Set.empty_union]
    exact isGreatest_singleton
  | some t => exact h.union isGreatest_singleton

/-- The times of the picked entries in a list that are no directories. -/
def listedTimes (picked : String → Bool) (entries : List (String × Node)) : Set Instant :=
  {t | ∃ entry ∈ entries,
    entry.2.isDirectory = false ∧ picked entry.1 = true ∧ entry.2.modified = t}

theorem listedTimes_nil (picked : String → Bool) : listedTimes picked [] = ∅ := by
  simp [listedTimes]

/-- The times of a list are that of its first entry, if it is picked, and those of the rest. -/
theorem listedTimes_cons (picked : String → Bool) (entry : String × Node)
    (entries : List (String × Node)) :
    listedTimes picked (entry :: entries) =
      (if !entry.2.isDirectory && picked entry.1 then {entry.2.modified} else ∅) ∪
        listedTimes picked entries := by
  ext t
  have hpicked : (!entry.2.isDirectory && picked entry.1) = true ↔
      entry.2.isDirectory = false ∧ picked entry.1 = true := by
    rw [Bool.and_eq_true, Bool.not_eq_true']
  constructor
  · rintro ⟨other, hother, hleaf, hname, rfl⟩
    rcases List.mem_cons.1 hother with rfl | hother
    · rw [if_pos (hpicked.2 ⟨hleaf, hname⟩)]
      exact .inl rfl
    · exact .inr ⟨other, hother, hleaf, hname, rfl⟩
  · rintro (hfirst | ⟨other, hother, hrest⟩)
    · split at hfirst
      · next hcond =>
        obtain ⟨hleaf, hname⟩ := hpicked.1 hcond
        exact ⟨entry, List.mem_cons_self, hleaf, hname, hfirst.symm⟩
      · exact absurd hfirst (Set.notMem_empty t)
    · exact ⟨other, List.mem_cons_of_mem entry hother, hrest⟩

/-- The latest time is still the latest after the entries of a directory are taken in. -/
theorem IsLatest.newestAmong (h : IsLatest times newest) (picked : String → Bool)
    (entries : List (String × Node)) :
    IsLatest (times ∪ listedTimes picked entries) (newestAmong picked newest entries) := by
  induction entries generalizing times newest with
  | nil =>
    rw [listedTimes_nil, Set.union_empty]
    exact h
  | cons entry entries ih =>
    rw [listedTimes_cons, ← Set.union_assoc]
    show IsLatest _ (FileSystem.newestAmong picked
      (if !entry.2.isDirectory && picked entry.1 then FileSystem.later newest entry.2.modified
        else newest) entries)
    apply ih
    split
    · exact h.later _
    · rw [Set.union_empty]
      exact h

/-! ## What is below a directory -/

/-- The path of what is at a location below a directory. -/
def descend (p : Path) (below : Location) : Path :=
  below.foldl (fun q name => q / name) p

namespace Node

/-- What is met below a node on the way of some names: each name is listed in the directory before
it. -/
inductive Holds : Node → Location → Node → Prop where
  | self (n : Node) : Holds n [] n
  | listed {n child m : Node} {name : String} {q : Location} (hchild : (name, child) ∈ n.entries)
      (h : Holds child q m) : Holds n (name :: q) m

/-- Whether an entry is a directory that can be listed under a path. -/
def CanBeListed (p : Path) (n : Node) : Prop :=
  n.face = .directory true ∧ checkText p = .ok ()

/-- A directory that can be listed, with every directory in it at any depth. -/
def IsSearchable (p : Path) (n : Node) : Prop :=
  n.isDirectory = true ∧
    ∀ below d, n.Holds below d → d.isDirectory = true → d.CanBeListed (descend p below)

/-- The times of the picked entries at any depth that are no directories. -/
def heldTimes (picked : String → Bool) (n : Node) : Set Instant :=
  {t | ∃ front name m, n.Holds (front ++ [name]) m ∧ m.isDirectory = false ∧
    picked name = true ∧ m.modified = t}

variable {n m : Node} {name : String} {q : Location} {modified : Instant} {isListable : Bool}
  {entries : List (String × Node)} {p : Path}

/-- Nothing but the node itself is met on an empty way. -/
theorem holds_nil_iff : n.Holds [] m ↔ m = n := by
  constructor
  · intro h
    cases h
    rfl
  · rintro rfl
    exact .self m

/-- What is met below a node is met below one of its entries. -/
theorem holds_cons_iff :
    n.Holds (name :: q) m ↔ ∃ child, (name, child) ∈ n.entries ∧ child.Holds q m := by
  constructor
  · intro h
    cases h with
    | listed hchild h => exact ⟨_, hchild, h⟩
  · rintro ⟨child, hchild, h⟩
    exact .listed hchild h

/-- Something is listed in directories only. -/
theorem isDirectory_of_mem_entries {entry : String × Node} (h : entry ∈ n.entries) :
    n.isDirectory = true := by
  cases n with
  | directory => rfl
  | file | link | device => exact absurd h List.not_mem_nil

/-- The directories among the entries are searched under the path of the directory and their
name. -/
theorem mem_subdirectories {d : Path × Node} :
    d ∈ subdirectories p entries ↔
      ∃ name n, (name, n) ∈ entries ∧ n.isDirectory = true ∧ d = (p / name, n) := by
  simp only [subdirectories, List.mem_map, List.mem_filter, Prod.exists]
  constructor
  · rintro ⟨name, n, ⟨hmem, hdir⟩, rfl⟩
    exact ⟨name, n, hmem, hdir, rfl⟩
  · rintro ⟨name, n, hmem, hdir, rfl⟩
    exact ⟨name, n, ⟨hmem, hdir⟩, rfl⟩

/-- A directory can be searched if it can be listed and the directories in it can be searched. -/
theorem isSearchable_directory_iff :
    (directory modified isListable entries).IsSearchable p ↔
      isListable = true ∧ checkText p = .ok () ∧
        ∀ d ∈ subdirectories p entries, d.2.IsSearchable d.1 := by
  constructor
  · rintro ⟨-, hall⟩
    obtain ⟨hface, hcheck⟩ := hall [] _ (.self _) rfl
    refine ⟨by simpa [face] using hface, hcheck, ?_⟩
    intro d hd
    obtain ⟨name, child, hchild, hdir, rfl⟩ := mem_subdirectories.1 hd
    exact ⟨hdir, fun below d h => hall (name :: below) d (.listed hchild h)⟩
  · rintro ⟨rfl, hcheck, hall⟩
    refine ⟨rfl, fun below d h hdir => ?_⟩
    cases h with
    | self => exact ⟨rfl, hcheck⟩
    | @listed _ child _ name below hchild h =>
      -- a child that holds a directory, or is one, is a directory itself
      have hchildDir : child.isDirectory = true := by
        cases h with
        | self => exact hdir
        | listed hgrandchild _ => exact isDirectory_of_mem_entries hgrandchild
      exact (hall _ (mem_subdirectories.2 ⟨name, child, hchild, hchildDir, rfl⟩)).2 below d h hdir

/-- The sources below a directory are those that it lists and those below the directories in it. -/
theorem heldTimes_directory (picked : String → Bool) (p : Path) :
    (directory modified isListable entries).heldTimes picked =
      listedTimes picked entries ∪
        {t | ∃ d ∈ subdirectories p entries, t ∈ d.2.heldTimes picked} := by
  ext t
  constructor
  · rintro ⟨front, name, m, h, hleaf, hpicked, rfl⟩
    cases front with
    | nil =>
      obtain ⟨child, hchild, h⟩ := holds_cons_iff.1 h
      obtain rfl := holds_nil_iff.1 h
      exact .inl ⟨(name, m), hchild, hleaf, hpicked, rfl⟩
    | cons first front =>
      obtain ⟨child, hchild, h⟩ := holds_cons_iff.1 h
      have hdir : child.isDirectory = true := by
        obtain ⟨second, rest, hrest⟩ : ∃ second rest, front ++ [name] = second :: rest :=
          List.exists_cons_of_ne_nil (by simp)
        have hrestHolds : child.Holds (second :: rest) m := hrest ▸ h
        obtain ⟨grandchild, hgrandchild, -⟩ := holds_cons_iff.1 hrestHolds
        exact isDirectory_of_mem_entries hgrandchild
      exact .inr ⟨_, mem_subdirectories.2 ⟨first, child, hchild, hdir, rfl⟩,
        front, name, m, h, hleaf, hpicked, rfl⟩
  · rintro (⟨⟨name, m⟩, hmem, hleaf, hpicked, rfl⟩ | ⟨d, hd, front, name, m, h, hsource⟩)
    · exact ⟨[], name, m, .listed hmem (.self m), hleaf, hpicked, rfl⟩
    · obtain ⟨first, child, hchild, -, rfl⟩ := mem_subdirectories.1 hd
      exact ⟨first :: front, name, m, .listed hchild h, hsource⟩

/-! ### Trees in which names are distinct -/

/-- A tree whose directories can all be listed under their paths. -/
def IsReadable (p : Path) (n : Node) : Prop :=
  n.isDirectory = true ∧ ∀ below d, n.get? below = some d → d.isDirectory = true →
    d.face = .directory true ∧ checkText (descend p below) = .ok ()

/-- The times of the picked entries below a node that are no directories. -/
def sourceTimes (picked : String → Bool) (n : Node) : Set Instant :=
  {t | ∃ front name m, n.get? (front ++ [name]) = some m ∧ m.isDirectory = false ∧
    picked name = true ∧ m.modified = t}

/-- Where names are distinct, an entry is met on the way of its names exactly if it is there. -/
theorem IsProper.holds_iff (h : n.IsProper) : n.Holds q m ↔ n.get? q = some m := by
  induction q generalizing n with
  | nil => rw [holds_nil_iff, get?_nil, Option.some.injEq, eq_comm]
  | cons name q ih =>
    rw [holds_cons_iff]
    cases n with
    | file | link | device => simp [Node.entries, Node.get?]
    | directory modified isListable entries =>
      rw [isProper_directory_iff] at h
      rw [h.get?_cons]
      exact exists_congr fun child => and_congr_right fun hchild => ih (h.entries _ hchild)

/-- A proper tree can be read exactly if it can be searched. -/
theorem IsProper.isReadable_iff (h : n.IsProper) : n.IsReadable p ↔ n.IsSearchable p := by
  unfold IsReadable IsSearchable
  simp only [h.holds_iff]
  rfl

/-- In a proper tree the entries that are met are those that stand at a location. -/
theorem IsProper.sourceTimes_eq_heldTimes (h : n.IsProper) (picked : String → Bool) :
    n.sourceTimes picked = n.heldTimes picked := by
  unfold sourceTimes heldTimes
  simp only [h.holds_iff]

/-- The directories among proper entries are proper. -/
theorem AreProper.of_mem_subdirectories (h : AreProper entries) {d : Path × Node}
    (hd : d ∈ subdirectories p entries) : d.2.IsProper := by
  obtain ⟨name, child, hchild, -, rfl⟩ := mem_subdirectories.1 hd
  exact h.entries _ hchild

/-- A directory can be read if it can be listed and the directories in it can be read. -/
theorem isReadable_directory_iff (h : AreProper entries) :
    (directory modified isListable entries).IsReadable p ↔
      isListable = true ∧ checkText p = .ok () ∧
        ∀ d ∈ subdirectories p entries, d.2.IsReadable d.1 := by
  rw [(isProper_directory_iff.2 h).isReadable_iff, isSearchable_directory_iff]
  have hbelow : (∀ d ∈ subdirectories p entries, d.2.IsReadable d.1) ↔
      ∀ d ∈ subdirectories p entries, d.2.IsSearchable d.1 :=
    forall₂_congr fun d hd => (h.of_mem_subdirectories hd).isReadable_iff
  rw [hbelow]

/-- The times below a directory are those of its entries and those below the directories in it. -/
theorem sourceTimes_directory (h : AreProper entries) (picked : String → Bool) (p : Path) :
    (directory modified isListable entries).sourceTimes picked =
      listedTimes picked entries ∪
        {t | ∃ d ∈ subdirectories p entries, t ∈ d.2.sourceTimes picked} := by
  rw [(isProper_directory_iff.2 h).sourceTimes_eq_heldTimes, heldTimes_directory picked p]
  congr 1
  ext t
  refine exists_congr fun d => and_congr_right fun hd => ?_
  rw [(h.of_mem_subdirectories hd).sourceTimes_eq_heldTimes]

end Node

/-! ## The search -/

/-- The times of the picked entries below some pending directories. -/
def pendingTimes (picked : String → Bool) (pending : List (Path × Node)) : Set Instant :=
  {t | ∃ d ∈ pending, t ∈ d.2.heldTimes picked}

/-- The entries of the directory that is read are taken in, and the directories in it take its
place. -/
theorem pendingTimes_cons (picked : String → Bool) (dir : Path) (modified : Instant)
    (isListable : Bool) (entries : List (String × Node)) (pending : List (Path × Node)) :
    pendingTimes picked ((dir, .directory modified isListable entries) :: pending) =
      listedTimes picked entries ∪
        pendingTimes picked ((subdirectories dir entries).reverse ++ pending) := by
  ext t
  constructor
  · rintro ⟨d, hd, ht⟩
    rcases List.mem_cons.1 hd with rfl | hd
    · rw [Node.heldTimes_directory picked dir] at ht
      rcases ht with ht | ⟨d, hd, ht⟩
      · exact .inl ht
      · exact .inr ⟨d, List.mem_append_left _ (List.mem_reverse.2 hd), ht⟩
    · exact .inr ⟨d, List.mem_append_right _ hd, ht⟩
  · rintro (ht | ⟨d, hd, ht⟩)
    · refine ⟨_, List.mem_cons_self, ?_⟩
      rw [Node.heldTimes_directory picked dir]
      exact .inl ht
    · rcases List.mem_append.1 hd with hd | hd
      · refine ⟨_, List.mem_cons_self, ?_⟩
        rw [Node.heldTimes_directory picked dir]
        exact .inr ⟨d, List.mem_reverse.1 hd, ht⟩
      · exact ⟨d, List.mem_cons_of_mem _ hd, ht⟩

/-- What a search answers: it gives the latest time if the pending directories can be searched, and
fails otherwise. -/
theorem scan_spec (picked : String → Bool) (pending : List (Path × Node))
    (h : IsLatest times newest) :
    match scan picked newest pending with
    | .ok r =>
      (∀ d ∈ pending, d.2.IsSearchable d.1) ∧ IsLatest (times ∪ pendingTimes picked pending) r
    | .error _ => ¬ ∀ d ∈ pending, d.2.IsSearchable d.1 := by
  induction newest, pending using scan.induct picked generalizing times with
  | case1 newest =>
    have hnone : pendingTimes picked [] = ∅ :=
      Set.eq_empty_of_forall_notMem fun t ⟨d, hd, _⟩ => absurd hd List.not_mem_nil
    rw [scan, hnone, Set.union_empty]
    exact ⟨fun d hd => absurd hd List.not_mem_nil, h⟩
  | case2 newest dir modified isListable entries pending e hcheck =>
    rw [scan, hcheck]
    intro hall
    have hsearchable := Node.isSearchable_directory_iff.1 (hall _ List.mem_cons_self)
    rw [hcheck] at hsearchable
    exact absurd hsearchable.2.1 (by simp)
  | case3 newest dir modified entries pending hcheck ih =>
    have hscan : scan picked newest ((dir, .directory modified true entries) :: pending) =
        scan picked (newestAmong picked newest entries)
          ((subdirectories dir entries).reverse ++ pending) := by
      rw [scan, hcheck]
      rfl
    -- the directories in the one that is read have to be searchable in its place
    have hsearchable : (∀ d ∈ (dir, .directory modified true entries) :: pending,
        d.2.IsSearchable d.1) ↔
        ∀ d ∈ (subdirectories dir entries).reverse ++ pending, d.2.IsSearchable d.1 := by
      rw [List.forall_mem_append, List.forall_mem_cons, Node.isSearchable_directory_iff]
      simp only [List.mem_reverse, hcheck, true_and]
    have hrest := ih (h.newestAmong picked entries)
    rw [Set.union_assoc, ← pendingTimes_cons picked dir modified true] at hrest
    rw [hscan, hsearchable]
    exact hrest
  | case4 newest dir modified isListable entries pending hcheck hlistable =>
    rw [scan, hcheck]
    dsimp only
    rw [if_neg hlistable]
    intro hall
    exact hlistable (Node.isSearchable_directory_iff.1 (hall _ List.mem_cons_self)).1
  | case5 newest pending hnil hdirectory =>
    obtain ⟨⟨dir, n⟩, pending, rfl⟩ := List.exists_cons_of_ne_nil hnil
    have hleaf : n.isDirectory = false := by
      cases n with
      | directory modified isListable entries =>
        exact (hdirectory dir modified isListable entries pending rfl).elim
      | file | link | device => rfl
    rw [scan]
    · intro hall
      exact absurd ((hall _ List.mem_cons_self).1.symm.trans hleaf) (by simp)
    · exact hnil
    · exact hdirectory

/-- What the search of the tree of one node answers. -/
theorem scan_singleton_spec (picked : String → Bool) (dir : Path) (n : Node) :
    match scan picked none [(dir, n)] with
    | .ok r => n.IsSearchable dir ∧ IsLatest (n.heldTimes picked) r
    | .error _ => ¬ n.IsSearchable dir := by
  have hnone : IsLatest (∅ : Set Instant) none := rfl
  have htimes : pendingTimes picked [(dir, n)] = n.heldTimes picked := by
    simp [pendingTimes]
  have hscan := scan_spec picked [(dir, n)] hnone
  rw [htimes, Set.empty_union, List.forall_mem_singleton] at hscan
  exact hscan

/-! ## The search below a path -/

variable {fs : FileSystem} {dir : Path} {patterns : List String}

/-- Whether the tree that a path leads to can be searched: there is a directory, and it and every
directory in it can be listed. -/
def IsSearchable (fs : FileSystem) (dir : Path) : Prop :=
  ∃ n, fs.entry dir = .ok n ∧ n.IsSearchable dir

/-- The times of all entries at any depth below a directory that are no directories and whose names
match one of the patterns. -/
def matchingTimes (fs : FileSystem) (dir : Path) (patterns : List String) : Set Instant :=
  {t | ∃ n front name m, fs.entry dir = .ok n ∧ n.Holds (front ++ [name]) m ∧
    m.isDirectory = false ∧ (∃ pattern ∈ patterns, Pattern.matchesName pattern name = true) ∧
    m.modified = t}

/-- A name is picked exactly if some pattern matches it. -/
theorem matchesAny_iff (patterns : List String) (name : String) :
    matchesAny patterns name = true ↔
      ∃ pattern ∈ patterns, Pattern.matchesName pattern name = true :=
  List.any_eq_true

/-- The matching times below a path are those of the node that it leads to. -/
theorem mem_matchingTimes_iff {t : Instant} :
    t ∈ fs.matchingTimes dir patterns ↔
      ∃ n, fs.entry dir = .ok n ∧ t ∈ n.heldTimes (matchesAny patterns) := by
  constructor
  · rintro ⟨n, front, name, m, hentry, hholds, hleaf, hname, hm⟩
    exact ⟨n, hentry, front, name, m, hholds, hleaf, (matchesAny_iff patterns name).2 hname, hm⟩
  · rintro ⟨n, hentry, front, name, m, hholds, hleaf, hname, hm⟩
    exact ⟨n, front, name, m, hentry, hholds, hleaf, (matchesAny_iff patterns name).1 hname, hm⟩

/-- The newest matching entry is found if the tree can be searched, and nothing otherwise. -/
theorem newestSource_spec (fs : FileSystem) (dir : Path) (patterns : List String) :
    match fs.newestSource dir patterns with
    | .ok r => fs.IsSearchable dir ∧ IsLatest (fs.matchingTimes dir patterns) r
    | .error _ => ¬ fs.IsSearchable dir := by
  unfold newestSource
  cases hentry : fs.entry dir with
  | error e =>
    rintro ⟨n, hn, -⟩
    rw [hentry] at hn
    exact absurd hn (by simp)
  | ok n =>
    have hsearchable : fs.IsSearchable dir ↔ n.IsSearchable dir := by
      simp only [FileSystem.IsSearchable, hentry, Except.ok.injEq, exists_eq_left']
    have htimes : fs.matchingTimes dir patterns = n.heldTimes (matchesAny patterns) := by
      ext t
      simp only [mem_matchingTimes_iff, hentry, Except.ok.injEq, exists_eq_left']
    rw [hsearchable, htimes]
    exact scan_singleton_spec (matchesAny patterns) dir n

/-- A generated file is current exactly if it is there, the tree can be searched, and nothing that
matches is newer. -/
theorem isUpToDate_iff_times (fs : FileSystem) (dir output : Path) (patterns : List String) :
    (fs.isUpToDate dir output patterns).result = true ↔
      ∃ generated, fs.modified output = .ok generated ∧ fs.IsSearchable dir ∧
        ∀ t ∈ fs.matchingTimes dir patterns, t ≤ generated := by
  have hnewest := fs.newestSource_spec dir patterns
  unfold isUpToDate
  cases fs.modified output with
  | error e => simp [pure]
  | ok generated =>
    simp only [Except.ok.injEq, exists_eq_left']
    cases hsource : fs.newestSource dir patterns with
    | error e =>
      rw [hsource] at hnewest
      exact iff_of_false (by simp [pure, bind]) fun hall => hnewest hall.1
    | ok r =>
      rw [hsource] at hnewest
      obtain ⟨hsearchable, hlatest⟩ := hnewest
      rw [and_iff_right hsearchable]
      cases r with
      | none =>
        refine iff_of_true rfl fun t ht => ?_
        exact absurd ht (Set.eq_empty_iff_forall_notMem.1 hlatest t)
      | some newest =>
        show decide (newest ≤ generated) = true ↔ _
        rw [decide_eq_true_iff]
        exact ⟨fun hle t ht => (hlatest.2 ht).trans hle, fun hall => hall newest hlatest.1⟩

/-- The search finds the latest time of all matching entries, in whatever order the directories list
them.  It fails exactly if the directory itself or some directory in it cannot be listed.  A
generated file is current exactly if it is there, the search succeeds, and no matching entry is
newer. -/
theorem newestSource_isLatest (fs : FileSystem) (dir output : Path) (patterns : List String) :
    ((∃ e, fs.newestSource dir patterns = .error e) ↔ ¬ fs.IsSearchable dir) ∧
      (∀ r, fs.newestSource dir patterns = .ok r →
        IsLatest (fs.matchingTimes dir patterns) r) ∧
      ((fs.isUpToDate dir output patterns).result = true ↔
        ∃ generated, fs.modified output = .ok generated ∧
          (∃ r, fs.newestSource dir patterns = .ok r) ∧
          ∀ t ∈ fs.matchingTimes dir patterns, t ≤ generated) := by
  have hnewest := fs.newestSource_spec dir patterns
  have hcurrent := fs.isUpToDate_iff_times dir output patterns
  cases hsource : fs.newestSource dir patterns with
  | error e =>
    rw [hsource] at hnewest
    have hnone : ¬ ∃ r, (Except.error e : Except IoError (Option Instant)) = .ok r := by simp
    refine ⟨iff_of_true ⟨e, rfl⟩ hnewest, fun r hr => absurd ⟨r, hr⟩ hnone, ?_⟩
    rw [hcurrent]
    simp only [hnewest, hnone, false_and]
  | ok r =>
    rw [hsource] at hnewest
    obtain ⟨hsearchable, hlatest⟩ := hnewest
    refine ⟨iff_of_false (by simp) (not_not_intro hsearchable), ?_, ?_⟩
    · rintro r' hr'
      rwa [← Except.ok.inj hr']
    · have hsome : ∃ r', Except.ok r = (.ok r' : Except IoError (Option Instant)) := ⟨r, rfl⟩
      rw [hcurrent]
      simp only [hsearchable, hsome, true_and]

/-! ## The headers of a directory -/

/-- Whether the tree that a path leads to can be read: every directory in it can be listed, under a
path that is not too long. -/
def IsReadable (fs : FileSystem) (dir : Path) : Prop :=
  ∃ n, fs.entry dir = .ok n ∧ n.IsReadable dir

/-- What counts as a header: an entry at any depth below a directory that is no directory itself and
whose name matches one of the patterns. -/
def IsHeader (fs : FileSystem) (dir : Path) (patterns : List String) (q : Location) (n : Node) :
    Prop :=
  ∃ root front name, fs.locate true dir = .ok root ∧ q = root ++ front ++ [name] ∧
    fs.entry? q = some n ∧ n.isDirectory = false ∧
    ∃ pattern ∈ patterns, Pattern.matchesName pattern name = true

/-- What is picked in the tree of a node are the headers below a path that leads to it. -/
theorem sourceTimes_eq {root : Location} {n : Node} (hlocate : fs.locate true dir = .ok root)
    (hentry : fs.entry? root = some n) :
    n.sourceTimes (matchesAny patterns) =
      {t | ∃ q m, fs.IsHeader dir patterns q m ∧ m.modified = t} := by
  have hbelow : ∀ below, fs.entry? (root ++ below) = n.get? below := by
    intro below
    rw [entryAt_append, hentry, Option.bind_some]
  ext t
  constructor
  · rintro ⟨front, name, m, hget, hleaf, hname, rfl⟩
    have hm : fs.entry? (root ++ front ++ [name]) = some m := by
      rw [List.append_assoc, hbelow, hget]
    have hsome := (matchesAny_iff patterns name).1 hname
    exact ⟨_, m, ⟨root, front, name, hlocate, rfl, hm, hleaf, hsome⟩, rfl⟩
  · rintro ⟨q, m, ⟨root', front, name, hroot, rfl, hm, hleaf, hsome⟩, rfl⟩
    obtain rfl := Except.ok.inj (hlocate.symm.trans hroot)
    rw [List.append_assoc, hbelow] at hm
    exact ⟨front, name, m, hm, hleaf, (matchesAny_iff patterns name).2 hsome, rfl⟩

/-- Below a path to a proper tree everything can be read exactly if it can be searched. -/
theorem isReadable_iff (h : fs.root.IsProper) : fs.IsReadable dir ↔ fs.IsSearchable dir := by
  refine exists_congr fun n => and_congr_right fun hentry => ?_
  obtain ⟨root, -, hroot⟩ := of_entry hentry
  exact (h.get? hroot).isReadable_iff

/-- The matching times are those of the headers. -/
theorem matchingTimes_eq (h : fs.root.IsProper) (dir : Path) (patterns : List String) :
    fs.matchingTimes dir patterns =
      {t | ∃ q n, fs.IsHeader dir patterns q n ∧ n.modified = t} := by
  have hfound : ∀ {root : Location} {n : Node}, fs.locate true dir = .ok root →
      fs.entry? root = some n → n.heldTimes (matchesAny patterns) =
        {t | ∃ q n, fs.IsHeader dir patterns q n ∧ n.modified = t} := by
    intro root n hlocate hroot
    rw [← (h.get? hroot).sourceTimes_eq_heldTimes, sourceTimes_eq hlocate hroot]
  ext t
  rw [mem_matchingTimes_iff]
  constructor
  · rintro ⟨n, hentry, ht⟩
    obtain ⟨root, hlocate, hroot⟩ := of_entry hentry
    rwa [hfound hlocate hroot] at ht
  · intro ht
    have hheader := ht
    obtain ⟨q, m, ⟨root, front, name, hlocate, rfl, hm, -, -⟩, -⟩ := hheader
    cases hroot : fs.entry? root with
    | none =>
      rw [List.append_assoc, entryAt_append, hroot] at hm
      exact absurd hm (by simp)
    | some n =>
      refine ⟨n, entry_of_locate hlocate hroot, ?_⟩
      rw [hfound hlocate hroot]
      exact ht

/-- A generated file is current exactly if it is there, the headers can be read, and none of them is
newer. -/
theorem isUpToDate_iff (h : fs.root.IsProper) (dir output : Path) (patterns : List String) :
    (fs.isUpToDate dir output patterns).result = true ↔
      ∃ generated, fs.modified output = .ok generated ∧ fs.IsReadable dir ∧
        ∀ q n, fs.IsHeader dir patterns q n → n.modified ≤ generated := by
  rw [isUpToDate_iff_times, matchingTimes_eq h, isReadable_iff h]
  have hall : ∀ generated : Instant,
      (∀ t ∈ {t | ∃ q n, fs.IsHeader dir patterns q n ∧ n.modified = t}, t ≤ generated) ↔
        ∀ q n, fs.IsHeader dir patterns q n → n.modified ≤ generated := fun generated =>
    ⟨fun hle q n hn => hle _ ⟨q, n, hn, rfl⟩, fun hle t ⟨q, n, hn, ht⟩ => ht ▸ hle q n hn⟩
  simp only [hall]

end Registrar.FileSystem
