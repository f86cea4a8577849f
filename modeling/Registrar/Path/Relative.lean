/-
# Relative paths

How to get from one directory to a file, and how an include directive spells a path.
-/
import Registrar.Path.Basic

namespace Registrar.Path

/-- The components of a path that lead somewhere else. -/
def steps (p : Path) : List Component :=
  p.components.filter fun c => c ≠ .current

/-- The two lists without the front that they have in common. -/
def dropCommon : List Component → List Component → List Component × List Component
  | a :: as, b :: bs => if a = b then dropCommon as bs else (a :: as, b :: bs)
  | as, bs => (as, bs)

/-- The path `p` as seen from the directory `base`: up once for every component of `base` behind
the common front, then down what remains of `p`.  A path that is absolute where the other one
is not stays as it was written. -/
def relativeTo (p base : Path) : Path :=
  if p.isAbsolute ≠ base.isAbsolute then p
  else
    let (down, up) := dropCommon p.steps base.steps
    ofComponents (up.map (fun _ => Component.parent) ++ down)

/-- How an include directive spells a path: its components with a slash between each two. -/
def includeSpelling (p : Path) : String :=
  "/".intercalate (p.components.map Component.spelling)

end Registrar.Path
