/-
# Reading JSON

A value from its tokens.  The brackets that are still open stand on a stack, each with what has
been read inside it, last element first.
-/
import Registrar.Json.Token

namespace Registrar.Json

/-- A bracket that is still open. -/
inductive Frame where
  | array (elements : List Json)
  | object (key : Option String) (members : List (Option String × Json))

/-- What the next token has to be. -/
inductive Expectation where
  /-- The start of a value. -/
  | value
  /-- The start of a value, or the end of the array that has just been opened. -/
  | firstElement
  /-- A key of the object whose members so far are given. -/
  | key (members : List (Option String × Json))
  /-- A key, or the end of the object that has just been opened. -/
  | firstKey
  /-- The colon behind a key. -/
  | colon (key : Option String) (members : List (Option String × Json))
  /-- What may follow a value that is complete. -/
  | after (value : Json)

/-- Reads one value from all of the tokens. -/
def read? : List Frame → Expectation → List Token → Option Json
  | [], .after v, [] => some v
  | _, _, [] => none
  | fs, .value, .string s :: ts => read? fs (.after (.string s)) ts
  | fs, .value, .scalar v :: ts => read? fs (.after v) ts
  | fs, .value, .openArray :: ts => read? fs .firstElement ts
  | fs, .value, .openObject :: ts => read? fs .firstKey ts
  | fs, .firstElement, .closeArray :: ts => read? fs (.after (.array [])) ts
  | fs, .firstElement, .string s :: ts => read? (.array [] :: fs) (.after (.string s)) ts
  | fs, .firstElement, .scalar v :: ts => read? (.array [] :: fs) (.after v) ts
  | fs, .firstElement, .openArray :: ts => read? (.array [] :: fs) .firstElement ts
  | fs, .firstElement, .openObject :: ts => read? (.array [] :: fs) .firstKey ts
  | fs, .firstKey, .closeObject :: ts => read? fs (.after (.object [])) ts
  | fs, .firstKey, .string k :: ts => read? fs (.colon k []) ts
  | fs, .key ms, .string k :: ts => read? fs (.colon k ms) ts
  | fs, .colon k ms, .colon :: ts => read? (.object k ms :: fs) .value ts
  | .array es :: fs, .after v, .comma :: ts => read? (.array (v :: es) :: fs) .value ts
  | .array es :: fs, .after v, .closeArray :: ts =>
    read? fs (.after (.array (v :: es).reverse)) ts
  | .object k ms :: fs, .after v, .comma :: ts => read? fs (.key ((k, v) :: ms)) ts
  | .object k ms :: fs, .after v, .closeObject :: ts =>
    read? fs (.after (.object ((k, v) :: ms).reverse)) ts
  | _, _, _ => none

/-- The value that a text spells, or nothing if it spells none. -/
def parse? (s : String) : Option Json := do
  let ts ← tokens? s.toList
  read? [] .value ts

end Registrar.Json
