/-
# Proper file systems

The names in a directory are distinct, so that an entry is found under its name, and no change that
a run makes adds a second entry of one name.
-/
import Registrar.Proofs.FileSystem.Opening
import Registrar.Proofs.FileSystem.Replacement

namespace Registrar.FileSystem

namespace Node

/-- A tree in which the names in every directory are distinct. -/
inductive IsProper : Node → Prop where
  | leaf {n : Node} (hleaf : n.isDirectory = false) : IsProper n
  | directory {modified : Instant} {isListable : Bool} {entries : List (String × Node)}
      (hnames : (entries.map Prod.fst).Nodup) (hentries : ∀ entry ∈ entries, IsProper entry.2) :
      IsProper (.directory modified isListable entries)

/-- Entries of distinct names, and proper trees in them. -/
structure AreProper (entries : List (String × Node)) : Prop where
  names : (entries.map Prod.fst).Nodup
  entries : ∀ entry ∈ entries, entry.2.IsProper

/-- A directory is proper exactly if its entries are. -/
theorem isProper_directory_iff {modified : Instant} {isListable : Bool}
    {entries : List (String × Node)} :
    (directory modified isListable entries).IsProper ↔ AreProper entries := by
  constructor
  · intro h
    cases h with
    | leaf hleaf => exact absurd hleaf (by simp [isDirectory])
    | directory hnames hentries => exact ⟨hnames, hentries⟩
  · intro h
    exact .directory h.names h.entries

namespace AreProper

variable {entries : List (String × Node)} {name : String}

/-- Of proper entries the first one has a name of its own and is proper, and so are the others. -/
theorem of_cons {entry : String × Node} (h : AreProper (entry :: entries)) :
    entry.1 ∉ entries.map Prod.fst ∧ entry.2.IsProper ∧ AreProper entries := by
  obtain ⟨hnames, hentries⟩ := h
  rw [List.map_cons, List.nodup_cons] at hnames
  exact ⟨hnames.1, hentries entry List.mem_cons_self, hnames.2,
    fun other hother => hentries other (List.mem_cons_of_mem entry hother)⟩

/-- What is looked up under a name is the entry of that name. -/
theorem lookup_eq_some_iff (h : AreProper entries) (n : Node) :
    entries.lookup name = some n ↔ (name, n) ∈ entries := by
  induction entries with
  | nil => simp
  | cons entry entries ih =>
    obtain ⟨other, m⟩ := entry
    obtain ⟨hnew, -, hrest⟩ := h.of_cons
    by_cases hname : name = other
    · subst hname
      have hnotMem : (name, n) ∉ entries := fun hmem => hnew (List.mem_map.2 ⟨_, hmem, rfl⟩)
      rw [List.lookup_cons_self, List.mem_cons, Option.some_inj, Prod.mk.injEq]
      simp [hnotMem, eq_comm]
    · rw [List.lookup_cons, beq_false_of_ne hname]
      simp [ih hrest, hname]

theorem nil : AreProper [] := ⟨List.nodup_nil, fun _ hentry => absurd hentry (by simp)⟩

/-- An entry with a new name may be put before proper ones. -/
theorem cons {n : Node} (hnew : name ∉ entries.map Prod.fst) (hn : n.IsProper)
    (h : AreProper entries) : AreProper ((name, n) :: entries) := by
  refine ⟨List.nodup_cons.2 ⟨hnew, h.names⟩, fun entry hentry => ?_⟩
  rcases List.mem_cons.1 hentry with rfl | hentry
  · exact hn
  · exact h.entries entry hentry

theorem filter (h : AreProper entries) (p : String × Node → Bool) :
    AreProper (entries.filter p) :=
  ⟨h.names.sublist ((List.filter_sublist).map Prod.fst),
    fun entry hentry => h.entries entry (List.mem_of_mem_filter hentry)⟩

/-- A change of one entry adds no name but its own. -/
theorem mem_names_of_alterEntry {f : Option Node → Option Node} {key : String}
    (h : key ∈ (alterEntry name f entries).map Prod.fst) :
    key = name ∨ key ∈ entries.map Prod.fst := by
  induction entries with
  | nil =>
    rw [alterEntry] at h
    split at h
    · exact .inl (List.mem_singleton.1 h)
    · exact absurd h List.not_mem_nil
  | cons entry entries ih =>
    obtain ⟨other, m⟩ := entry
    rw [alterEntry] at h
    split at h
    · next hother =>
      subst hother
      right
      split at h
      · exact h
      · obtain ⟨entry, hentry, rfl⟩ := List.mem_map.1 h
        exact List.mem_cons_of_mem _ (List.mem_map_of_mem (List.mem_of_mem_filter hentry))
    · rcases List.mem_cons.1 h with rfl | h
      · exact .inr List.mem_cons_self
      · exact (ih h).imp_right (List.mem_cons_of_mem _)

/-- Entries stay proper if one of them is changed into a proper tree, or taken out. -/
theorem alterEntry (h : AreProper entries) {f : Option Node → Option Node}
    (hf : ∀ n, (∀ m ∈ n, IsProper m) → ∀ m ∈ f n, m.IsProper) :
    AreProper (alterEntry name f entries) := by
  induction entries with
  | nil =>
    rw [Node.alterEntry]
    cases hnew : f none with
    | none => exact nil
    | some n => exact cons (by simp) (hf none (by simp) n hnew) nil
  | cons entry entries ih =>
    obtain ⟨other, m⟩ := entry
    obtain ⟨hnew, hm, hrest⟩ := h.of_cons
    rw [Node.alterEntry]
    split
    · next hother =>
      subst hother
      cases hchanged : f (some m) with
      | none => exact hrest.filter _
      | some n =>
        refine cons hnew (hf (some m) ?_ n hchanged) hrest
        intro m' hm'
        rw [← Option.some.inj hm']
        exact hm
    · next hother =>
      refine cons (fun hmem => ?_) hm (ih hrest)
      rcases mem_names_of_alterEntry hmem with hname | hold
      · exact hother hname
      · exact hnew hold

end AreProper

/-- What is below an entry of a directory is below the directory. -/
theorem AreProper.get?_cons {modified : Instant} {isListable : Bool}
    {entries : List (String × Node)} (h : AreProper entries) (name : String) (rest : Location)
    (m : Node) :
    (directory modified isListable entries).get? (name :: rest) = some m ↔
      ∃ child, (name, child) ∈ entries ∧ child.get? rest = some m := by
  show (entries.lookup name).bind (get? rest) = some m ↔ _
  rw [Option.bind_eq_some_iff]
  simp only [h.lookup_eq_some_iff]

/-- Everything in a proper tree is proper. -/
theorem IsProper.get? {n m : Node} (h : n.IsProper) {q : Location} (hm : n.get? q = some m) :
    m.IsProper := by
  induction q generalizing n with
  | nil =>
    rw [get?_nil] at hm
    rwa [← Option.some.inj hm]
  | cons name q ih =>
    cases n with
    | file | link | device => exact absurd hm (by simp [Node.get?])
    | directory modified isListable entries =>
      rw [isProper_directory_iff] at h
      obtain ⟨child, hchild, hm⟩ := (h.get?_cons name q m).1 hm
      exact ih (h.entries _ hchild) hm

/-- A tree stays proper if what is at a location is changed into a proper tree, or taken out. -/
theorem IsProper.alter {n : Node} (h : n.IsProper) {f : Option Node → Option Node}
    (hf : ∀ n, (∀ m ∈ n, IsProper m) → ∀ m ∈ f n, m.IsProper) (location : Location) :
    (n.alter f location).IsProper := by
  induction location generalizing n with
  | nil =>
    have hchanged := hf (some n) (fun m hm => Option.some.inj hm ▸ h)
    rw [Node.alter]
    cases hfn : f (some n) with
    | none => exact h
    | some m => exact hchanged m hfn
  | cons name location ih =>
    cases n with
    | file | link | device => exact h
    | directory modified isListable entries =>
      rw [isProper_directory_iff] at h
      rw [alter_cons, isProper_directory_iff]
      -- at the last name the entry itself is changed, before it what is below the entry
      refine h.alterEntry fun n hn m hm => ?_
      split at hm
      · exact hf n hn m hm
      · obtain ⟨child, hchild, rfl⟩ := Option.map_eq_some_iff.1 hm
        exact ih (hn child hchild)

/-- A proper tree is proper with another time. -/
theorem isProper_touched {n : Node} (h : n.IsProper) (time : Instant) :
    (n.touched time).IsProper := by
  cases n with
  | file | link | device => exact h
  | directory modified isListable entries =>
    exact isProper_directory_iff.2 (isProper_directory_iff.1 h)

end Node

/-- A name that an entry may have. -/
def IsEntryName (name : String) : Prop :=
  name ≠ "" ∧ name ≠ "." ∧ name ≠ ".." ∧ '/' ∉ name.toList ∧ name.utf8ByteSize ≤ maxNameLength

instance (name : String) : Decidable (IsEntryName name) :=
  inferInstanceAs (Decidable (_ ∧ _ ∧ _ ∧ _ ∧ _))

/-- A file system as it can be: the names in every directory are distinct, and the working directory
is given by names that entries may have. -/
structure IsProper (fs : FileSystem) : Prop where
  root : fs.root.IsProper
  workingDirectory : ∀ name ∈ fs.workingDirectory, IsEntryName name

namespace IsProper

variable {fs fs' : FileSystem}

/-- A proper tree stays proper if a proper one is put into it. -/
theorem setEntry (h : fs.IsProper) (location : Location) {n : Option Node}
    (hn : ∀ m ∈ n, m.IsProper) : (fs.setEntry location n).IsProper := by
  refine ⟨?_, h.workingDirectory⟩
  refine (h.root.alter (fun _ _ => hn) location).alter (fun n' hn' m hm => ?_) _
  obtain ⟨child, hchild, rfl⟩ := Option.map_eq_some_iff.1 hm
  exact Node.isProper_touched (hn' child hchild) _

theorem createDirectory {p : Path} (h : fs.IsProper) (hmade : fs.createDirectory p = .ok fs') :
    fs'.IsProper := by
  obtain ⟨above, name, -, -, -, rfl⟩ := of_addEntry hmade
  refine h.setEntry _ fun m hm => ?_
  rw [← Option.some.inj hm]
  exact Node.isProper_directory_iff.2 .nil

theorem createDirectories (h : fs.IsProper) (p : Path) : (fs.createDirectories p).1.IsProper :=
  createDirectories_induction (R := fun fs fs' => fs.IsProper → fs'.IsProper) (fun _ h => h)
    (fun h h' => h' ∘ h) (fun _ hmade h => h.createDirectory hmade) fs h

theorem replaceFile {p : Path} {contents : ByteArray} (h : fs.IsProper)
    (hreplace : fs.replaceFile p contents = .ok fs') : fs'.IsProper := by
  obtain ⟨source, directory, name, hslot, hdirectory, hfree, hrename⟩ := of_replaceFile hreplace
  have hfile : ∀ time : Instant, ∀ m ∈ some (Node.file time false contents), m.IsProper := by
    intro time m hm
    rw [← Option.some.inj hm]
    exact .leaf rfl
  have hwritten := h.setEntry (directory ++ [name]) (hfile fs.nextTime)
  have hsource := slot_setEntry_of_free hslot hfree (some (.file fs.nextTime false contents))
  have hentry := entryAt_setEntry_self hdirectory name (.file fs.nextTime false contents)
  obtain ⟨above, text, -, ⟨-, rfl⟩ | ⟨-, -, -, rfl⟩⟩ :=
    of_rename_file rfl hsource hentry rfl hrename
  · exact hwritten
  · exact (hwritten.setEntry _ (fun _ hm => absurd hm (by simp))).setEntry _ (hfile fs.nextTime)

end IsProper

end Registrar.FileSystem
