/-
# Staleness

The generated file is current as long as it is at least as new as every header.  What cannot be
read counts as stale.
-/
import Registrar.FileSystem.Basic
import Registrar.Log
import Registrar.Text.Pattern

namespace Registrar

namespace FileSystem

/-- The later of two times, the first of which may be missing. -/
def later (newest : Option Instant) (time : Instant) : Option Instant :=
  match newest with
  | none => some time
  | some t => some (max t time)

/-- The latest of a time and the times of those entries that are no directories and whose names are
picked. -/
def newestAmong (picked : String → Bool) (newest : Option Instant)
    (entries : List (String × Node)) : Option Instant :=
  entries.foldl
    (fun newest entry =>
      if !entry.2.isDirectory && picked entry.1 then later newest entry.2.modified else newest)
    newest

/-- The directories among the entries of a directory, with their paths. -/
def subdirectories (dir : Path) (entries : List (String × Node)) : List (Path × Node) :=
  (entries.filter fun entry => entry.2.isDirectory).map fun entry => (dir / entry.1, entry.2)

/-- The size of the trees in some directories. -/
noncomputable def weight : List (Path × Node) → Nat
  | [] => 0
  | d :: dirs => sizeOf d.2 + weight dirs

theorem weight_append (dirs dirs' : List (Path × Node)) :
    weight (dirs ++ dirs') = weight dirs + weight dirs' := by
  induction dirs with
  | nil => exact (Nat.zero_add _).symm
  | cons d dirs ih => rw [List.cons_append, weight, weight, ih, Nat.add_assoc]

theorem weight_reverse (dirs : List (Path × Node)) : weight dirs.reverse = weight dirs := by
  induction dirs with
  | nil => rfl
  | cons d dirs ih =>
    rw [List.reverse_cons, weight_append, ih, Nat.add_comm]
    rfl

theorem weight_subdirectories_le (dir : Path) (entries : List (String × Node)) :
    weight (subdirectories dir entries) ≤ sizeOf entries := by
  induction entries with
  | nil => exact Nat.zero_le _
  | cons entry entries ih =>
    obtain ⟨name, n⟩ := entry
    rw [subdirectories, List.filter_cons]
    split
    · show sizeOf n + weight (subdirectories dir entries) ≤ _
      simp only [List.cons.sizeOf_spec, Prod.mk.sizeOf_spec]
      omega
    · show weight (subdirectories dir entries) ≤ _
      simp only [List.cons.sizeOf_spec]
      omega

/-- The latest of a time and the times of the picked entries in some pending directories and below
them.  The directory that was found last is read next, each under its own path, and links are not
followed. -/
def scan (picked : String → Bool) :
    Option Instant → List (Path × Node) → Except IoError (Option Instant)
  | newest, [] => .ok newest
  | newest, (dir, .directory _ isListable entries) :: pending =>
    match checkText dir with
    | .error e => .error e
    | .ok () =>
      if isListable then
        scan picked (newestAmong picked newest entries)
          ((subdirectories dir entries).reverse ++ pending)
      else .error .permissionDenied
  | _, _ => .error .notADirectory
termination_by _ pending => weight pending
decreasing_by
  have hle := weight_subdirectories_le dir entries
  simp only [weight_append, weight_reverse, weight, Node.directory.sizeOf_spec]
  omega

/-- Whether a name matches one of some patterns. -/
def matchesAny (patterns : List String) (name : String) : Bool :=
  patterns.any fun pattern => Pattern.matchesName pattern name

/-- The latest time of a file below a directory whose name matches one of some patterns. -/
def newestSource (fs : FileSystem) (dir : Path) (patterns : List String) :
    Except IoError (Option Instant) := do
  let n ← fs.entry dir
  scan (matchesAny patterns) none [(dir, n)]

/-- Whether a generated file can be kept. -/
def isUpToDate (fs : FileSystem) (input output : Path) (patterns : List String) : Logged Bool :=
  match fs.modified output with
  | .error _ => pure false
  | .ok generated =>
    match fs.newestSource input patterns with
    | .ok (some newest) => pure (newest ≤ generated)
    | .ok none => pure true
    | .error _ => do
      Logged.say .debug "staleness check failed, regenerating"
      pure false

end FileSystem

end Registrar
