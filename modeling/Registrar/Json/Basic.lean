/-
# JSON values

A value with its object members in the order in which they are written, repeated keys included.
-/

namespace Registrar

/-- A JSON value.  A string or a key is `none` when an escape in it names half of a surrogate
pair without the other half, so that it spells no text. -/
inductive Json where
  | null
  | boolean (value : Bool)
  | number (numeral : String)
  | string (content : Option String)
  | array (elements : List Json)
  | object (members : List (Option String × Json))
  deriving Inhabited

namespace Json

/-- A string value. -/
def text (s : String) : Json :=
  .string (some s)

/-- An array of string values. -/
def texts (ss : List String) : Json :=
  .array (ss.map text)

end Json

end Registrar
