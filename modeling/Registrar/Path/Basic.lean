/-
# Paths

A path is kept as it was written.  Its components are what the writing means: slashes in a row
count once, and a `.` counts only at the front of a relative path.
-/
import Registrar.Text.Search

namespace Registrar

/-- A path as it was written. -/
structure Path where
  text : String
  deriving DecidableEq, Repr, Inhabited

/-- One step of a path. -/
inductive Component where
  /-- The slash at the front of an absolute path. -/
  | root
  /-- A `.` at the front of a relative path. -/
  | current
  /-- A `..`. -/
  | parent
  /-- Any other name. -/
  | name (text : String)
  deriving DecidableEq, Repr

namespace Component

/-- How a component is written. -/
def spelling : Component → String
  | root => "/"
  | current => "."
  | parent => ".."
  | name text => text

/-- What a piece between two slashes means past the front of a path. -/
def ofPiece? (piece : List Char) : Option Component :=
  if piece = [] then none
  else if piece = ['.'] then none
  else if piece = ['.', '.'] then some parent
  else some (name (String.ofList piece))

end Component

namespace Path

instance : ToString Path := ⟨Path.text⟩

/-- Whether a path starts at the root. -/
def isAbsolute (p : Path) : Bool :=
  p.text.toList.head? = some '/'

/-- What stands between the slashes of a path, the empty pieces included. -/
def pieces (p : Path) : List (List Char) :=
  Chars.splitOn '/' p.text.toList

/-- The components of a path. -/
def components (p : Path) : List Component :=
  if p.isAbsolute then .root :: p.pieces.filterMap Component.ofPiece?
  else match p.pieces with
    | ['.'] :: rest => .current :: rest.filterMap Component.ofPiece?
    | pieces => pieces.filterMap Component.ofPiece?

/-- Whether a path ends in a slash. -/
def endsInSlash (p : Path) : Bool :=
  p.text.toList.getLast? = some '/'

/-- The path `q` as seen from `p`: an absolute `q` stands for itself, any other one is written
behind `p` with one slash between them. -/
def join (p q : Path) : Path :=
  if q.isAbsolute then q
  else if p.text.isEmpty || p.endsInSlash then ⟨p.text ++ q.text⟩
  else ⟨p.text ++ "/" ++ q.text⟩

instance : HDiv Path String Path := ⟨fun p name => p.join ⟨name⟩⟩

/-- The path that is written by joining components one after the other. -/
def ofComponents (cs : List Component) : Path :=
  cs.foldl (fun p c => p / c.spelling) ⟨""⟩

/-- The character at the front of a path that is a component of its own: the slash of an absolute path,
or a `.`. -/
def leadText (p : Path) : List Char :=
  if p.isAbsolute then ['/']
  else match p.pieces with
    | ['.'] :: _ => ['.']
    | _ => []

/-- The text of a path up to its last component, without what means nothing before it; the root and
the empty path have nothing above them. -/
def parent? (p : Path) : Option Path :=
  let isBlank (piece : List Char) := (Component.ofPiece? piece).isNone
  let body := Chars.splitOn '/' (p.text.toList.drop p.leadText.length)
  match body.reverse.dropWhile isBlank with
  | _ :: above =>
    some ⟨String.ofList (p.leadText ++ ['/'].intercalate (above.dropWhile isBlank).reverse)⟩
  | [] => if p.leadText = ['.'] then some ⟨""⟩ else none

/-- What follows the last dot of a file name; a dot at the front starts no extension. -/
def extension? (fileName : String) : Option String :=
  match Text.breakOnLast? "." fileName with
  | some ("", _) => none
  | some (_, extension) => some extension
  | none => none

/-- A path as seen from the directory `base`.  The slash at the end is kept, two slashes at the
front are kept as two, and an empty path has no place at all. -/
def absolute? (base p : Path) : Option Path :=
  if p.text.isEmpty then none
  else
    let start : Path :=
      if !p.isAbsolute then base
      else match p.text.toList with
        | ['/', '/'] => ⟨"//"⟩
        | '/' :: '/' :: c :: _ => if c = '/' then ⟨"/"⟩ else ⟨"//"⟩
        | _ => ⟨"/"⟩
    let steps := p.components.filter fun c => c ≠ .root ∧ c ≠ .current
    let whole := steps.foldl (fun q c => q / c.spelling) start
    some (if p.endsInSlash then whole / "" else whole)

end Path

end Registrar
