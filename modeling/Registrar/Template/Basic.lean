/-
# Templates

A template is a text with placeholders: `$(`, a key of letters, digits and underscores, and `)`.
Rendering puts a value in the place of each placeholder and never looks into a value.
-/
import Registrar.Path.Basic
import Registrar.Text.Search

namespace Registrar

/-- Why a text cannot be rendered. -/
inductive TemplateError where
  /-- There is no template of this name. -/
  | unknown (name : String)
  /-- A placeholder has no value. -/
  | missingValue (template key : String)
  /-- The file of a template cannot be read. -/
  | read (path : Path)
  deriving DecidableEq, Repr

namespace TemplateError

/-- The wording of a failure. -/
def message : TemplateError → String
  | unknown name => "template '" ++ name ++ "' does not exist"
  | missingValue template key => "template '" ++ template ++ "' has no value for '$(" ++ key ++ ")'"
  | read path => "failed to read template '" ++ path.text ++ "'"

end TemplateError

/-- The values of the keys; of several values for a key the first one counts. -/
abbrev Values := List (String × String)

/-- A text with placeholders, and the name by which it is known. -/
structure Template where
  name : String
  text : String
  deriving DecidableEq, Repr

namespace Template

/-- A character that a key may have. -/
def isKeyPart (c : Char) : Bool :=
  c.isAlphanum || c = '_'

/-- Whether a text is a key. -/
def isKey (cs : List Char) : Bool :=
  !cs.isEmpty && cs.all isKeyPart

/-- What starts a placeholder. -/
def opening : List Char :=
  ['$', '(']

/-- What stands before the next `)`, if that is a key, and what stands behind it. -/
def keyAhead? (cs : List Char) : Option (List Char × List Char) :=
  (Chars.breakOn? [')'] cs).filter fun (key, _) => isKey key

theorem length_lt_of_breakOn?_opening {cs before body : List Char}
    (h : Chars.breakOn? opening cs = some (before, body)) : body.length < cs.length := by
  rw [Chars.eq_append_of_breakOn? h]
  simp only [List.length_append, opening, List.length_cons, List.length_nil]
  omega

theorem length_le_of_keyAhead? {cs key rest : List Char} (h : keyAhead? cs = some (key, rest)) :
    rest.length ≤ cs.length :=
  Chars.length_le_of_breakOn? (Option.filter_eq_some_iff.1 h).1

/-- A text with a value in the place of each placeholder.  The search goes from one `$(` to the next.
If no key follows, then the two characters stay, and the search goes on behind them.  The first
placeholder without a value ends it. -/
def renderText (name : String) (values : Values) (cs : List Char) :
    Except TemplateError (List Char) :=
  match hopen : Chars.breakOn? opening cs with
  | none => .ok cs
  | some (before, body) =>
    have : body.length < cs.length := length_lt_of_breakOn?_opening hopen
    match hkey : keyAhead? body with
    | none => (renderText name values body).map fun rest => before ++ opening ++ rest
    | some (key, behind) =>
      have : behind.length ≤ body.length := length_le_of_keyAhead? hkey
      match values.lookup (String.ofList key) with
      | none => .error (.missingValue name (String.ofList key))
      | some value =>
        (renderText name values behind).map fun rest => before ++ value.toList ++ rest
termination_by cs.length

/-- The text of a template with a value in the place of each placeholder. -/
def render (t : Template) (values : Values) : Except TemplateError String :=
  (renderText t.name values t.text.toList).map String.ofList

end Template

end Registrar
