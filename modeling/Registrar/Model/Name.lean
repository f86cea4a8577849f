/-
# Names of types

A qualified name has its scopes in front, each closed by `::`.
-/
import Registrar.Text.Search

namespace Registrar.Name

/-- A name without its first scope: `hect::Mesh::Handle` is known as `Mesh::Handle`, and a name
without a scope as itself. -/
def simple (qualified : String) : String :=
  match Text.breakOn? "::" qualified with
  | some (_, rest) => rest
  | none => qualified

/-- The scope that a name stands in, if it has one. -/
def scope? (qualified : String) : Option String :=
  (Text.breakOnLast? "::" qualified).map Prod.fst

end Registrar.Name
