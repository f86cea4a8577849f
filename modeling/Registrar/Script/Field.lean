/-
# Fields

What the expansions of a word leave is split into fields: at the boundaries between arguments, and
at the separators in what was expanded outside of quotes.
-/

namespace Registrar.Script

/-- A part of an expanded word. -/
inductive Piece where
  /-- A character, with whether it is quoted and whether the word may be split at it. -/
  | char (c : Char) (isQuoted maySplit : Bool)
  /-- A pair of quotes, which make a field even if nothing stands between them. -/
  | quotes
  /-- The boundary between two arguments. -/
  | gap
  deriving DecidableEq, Repr

/-- The characters of a field, each with whether it is quoted. -/
abbrev Field := List (Char × Bool)

/-- How far the splitting of a word has come. -/
structure Splitting where
  /-- The fields that are complete, last one first. -/
  done : List Field := []
  /-- The field that has been started, last character first. -/
  current : Option Field := none
  /-- Whether the last field has been ended by a blank, which may belong to a separator. -/
  isAfterBlank : Bool := false

namespace Splitting

/-- Ends the field that has been started, if there is one. -/
def finish (s : Splitting) : Splitting :=
  match s.current with
  | some field => { s with done := field.reverse :: s.done, current := none }
  | none => s

/-- Takes up one part of the word. -/
def step (separators : List Char) (s : Splitting) : Piece → Splitting
  | .quotes => { s with current := some (s.current.getD []), isAfterBlank := false }
  | .gap => { s.finish with isAfterBlank := false }
  | .char c isQuoted maySplit =>
    if maySplit && separators.contains c then
      if c = ' ' || c = '\t' || c = '\n' then
        { s.finish with isAfterBlank := s.isAfterBlank || s.current.isSome }
      else if s.current.isSome then { s.finish with isAfterBlank := false }
      else if s.isAfterBlank then { s with isAfterBlank := false }
      else { s with done := [] :: s.done }
    else { s with current := some ((c, isQuoted) :: s.current.getD []), isAfterBlank := false }

end Splitting

/-- The fields of an expanded word. -/
def splitFields (separators : List Char) (pieces : List Piece) : List Field :=
  (pieces.foldl (Splitting.step separators) {}).finish.done.reverse

/-- The characters of an expanded word that is not split; a boundary counts as a space. -/
def joinPieces (pieces : List Piece) : Field :=
  pieces.flatMap fun
    | .char c isQuoted _ => [(c, isQuoted)]
    | .quotes => []
    | .gap => [(' ', true)]

/-- The text of a field. -/
def Field.text (field : Field) : String :=
  String.ofList (field.map Prod.fst)

end Registrar.Script
