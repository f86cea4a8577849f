/-
# Redirections

Files that are opened for a command, and descriptors that become the same as others.
-/
import Registrar.Script.Expansion

namespace Registrar.Script

open FileSystem (Location)

namespace Process

/-- The descriptor that a path stands for. -/
def deviceDescriptor? (path : String) : Option Nat :=
  match path with
  | "/dev/stdin" => some 0
  | "/dev/stdout" => some 1
  | "/dev/stderr" => some 2
  | _ => (Text.dropStart? "/dev/fd/" path).bind String.toNat?

/-- The location of the file that is opened for writing under a path; one that is missing is made,
and with `isEmptied` nothing is left in it. -/
def openFile (fs : FileSystem) (path : String) (isEmptied : Bool) :
    Except IoError (Location × FileSystem) := do
  let location ← fs.fileSlot FileSystem.maxLinks fs.workingDirectory ⟨path⟩
  let isThere := (fs.entry? location).any FileSystem.Node.isFile
  let changed ← if isThere && !isEmptied then pure fs
    else fs.writeFile ⟨path⟩ ByteArray.empty
  pure (location, changed)

/-- Opens a file for a descriptor; nothing if that is refused. -/
def redirectTo (p : Process) (descriptor : Nat) (kind : RedirectionKind) (path : String) :
    Option Process :=
  let opened (isEmptied appends : Bool) : Option Process :=
    match openFile p.fs path isEmptied with
    | .ok (location, fs) =>
      some ({ p with fs := fs }.openChannel descriptor (.file location 0 appends))
    | .error _ => none
  match deviceDescriptor? path, (p.fs.entry ⟨path⟩).toOption, kind with
  | some other, _, _ => (p.descriptors.lookup other).map fun i => p.connect descriptor (some i)
  | none, some (.device _), _ => some (p.openChannel descriptor .nothing)
  | none, some (.file _ _ _), .read =>
    match p.fs.locate true ⟨path⟩ with
    | .ok location => some (p.openChannel descriptor (.file location 0 false))
    | .error _ => none
  | none, _, .read => none
  | none, n, .write =>
    if p.has 'C' && n.any FileSystem.Node.isFile then none else opened true false
  | none, _, .overwrite => opened true false
  | none, _, .append => opened false true
  | none, _, _ => opened false false

/-- Lets a descriptor be the same as the one that a text names, or closes it. -/
def duplicate (p : Process) (descriptor : Nat) (text : String) : Option Process :=
  if text = "-" then some (p.connect descriptor none)
  else do
    let other ← text.toNat?
    let i ← p.descriptors.lookup other
    pure (p.connect descriptor (some i))

end Process

namespace Interpreter

/-- Carries out redirections, and says whether none of them was refused. -/
def redirect (i : Interpreter) : List Redirection → Session Bool
  | [] => pure true
  | .mk descriptor kind w :: rest => do
    let text ← i.text w
    let p ← get
    let changed :=
      if !p.isRunning then none
      else match kind with
        | .text => some (p.openChannel descriptor (.buffer text.toUTF8))
        | .duplicate => p.duplicate descriptor text
        | kind => p.redirectTo descriptor kind text
    match changed with
    | some p =>
      set p
      i.redirect rest
    | none => pure false

/-- Does something with redirections that hold only for it.  If one of them is refused, the status
is two. -/
def redirected (i : Interpreter) (rs : List Redirection) (action : Session Unit) :
    Session Unit := do
  let before := (← get).descriptors
  if ← i.redirect rs then action else Session.whenRunning (Session.setStatus 2)
  modify fun p => { p with descriptors := before }

end Interpreter

end Registrar.Script
