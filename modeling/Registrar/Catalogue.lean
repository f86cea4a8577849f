/-
# The catalogue of a run

The types of one run together with the tables by which they are looked up.  A type is entered into
the tables when it is pushed, and the first one under an identifier or a name stays there.  Linking
and classification change types in their places and do not touch the tables.
-/
import Registrar.Classification

namespace Registrar

/-- Handles by text. -/
structure Table where
  entries : List (String × Handle) := []
  deriving DecidableEq, Repr

namespace Table

/-- The handle under a text. -/
def find? (t : Table) (key : String) : Option Handle :=
  t.entries.lookup key

/-- Enters a handle under a text, unless there is one already. -/
def enter (t : Table) (key : String) (h : Handle) : Table :=
  if (t.find? key).isSome then t else ⟨(key, h) :: t.entries⟩

end Table

/-- The types of one run and the tables by which they are looked up. -/
structure Catalogue where
  model : Model := {}
  identifiers : Table := {}
  names : Table := {}
  simpleNames : Table := {}
  deriving DecidableEq, Repr

namespace Catalogue

/-- Adds a type at the end and enters it into the tables.  The first component is its handle. -/
def push (t : Catalogue) (d : Declaration) : Handle × Catalogue :=
  let h := t.model.size
  (h,
    { model := t.model.push d
      identifiers :=
        match d.identifier with
        | some identifier => t.identifiers.enter identifier h
        | none => t.identifiers
      names := t.names.enter d.qualifiedName h
      simpleNames := t.simpleNames.enter d.simpleName h })

/-- A catalogue of some types. -/
def ofDeclarations (ds : List Declaration) : Catalogue :=
  ds.foldl (fun t d => (t.push d).2) {}

/-- The type under an identifier. -/
def byIdentifier? (t : Catalogue) (identifier : String) : Option Handle :=
  t.identifiers.find? identifier

/-- The type under a qualified name, or else the one under that simple name.  Blanks around the name
that is asked for do not count. -/
def byName? (t : Catalogue) (name : String) : Option Handle :=
  (t.names.find? (Text.trim name)).orElse fun _ => t.simpleNames.find? (Text.trim name)

/-- Links the types. -/
def link (t : Catalogue) : Catalogue :=
  { t with model := t.model.link }

/-- Classifies the classes.  The second component is the failure that ended it, if any. -/
def classify (t : Catalogue) (bases : BaseSettings) :
    Logged (Catalogue × Option ClassifyError) := do
  let classified ← t.model.classify bases
  pure ({ t with model := classified.model }, classified.failure)

end Catalogue

end Registrar
