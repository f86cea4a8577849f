/-
# Types as they are taken in

Whatever the documents in a directory say, the classes that they declare have nothing in them that
linking fills in.  So everything that is shown of linking for such classes holds for every model that
is read.
-/
import Registrar.Proofs.Documentation.Directory
import Registrar.Proofs.Documentation.WellFormed
import Registrar.Proofs.Linking.Base

namespace Registrar

/-- No class of a list of types is linked. -/
def AreUnlinked (ds : List Declaration) : Prop :=
  ∀ c, .classType c ∈ ds → c.IsUnlinked

namespace Documentation

variable {tags : TagSettings}

theorem areUnlinked_declarations (document : List Xml.Node) :
    AreUnlinked (declarations tags document).result := by
  intro c hc
  obtain ⟨n, -, hn⟩ := isDeclared_of_mem_declarations hc
  exact hn.unlinked

/-- No class of a model that is read from a directory is linked. -/
theorem areUnlinked_readDirectory {fs : FileSystem} {dir : Path} {m : Model}
    (h : (readDirectory fs tags dir).run.result = .ok m) : AreUnlinked m.declarations := by
  cases hlist : fs.listDirectory dir with
  | error e =>
    unfold readDirectory at h
    rw [hlist] at h
    cases h
  | ok entries =>
    rw [result_readDirectory hlist, Model.foldl_push] at h
    obtain rfl := Except.ok.inj h
    intro c hc
    obtain ⟨d, -, hd⟩ := List.mem_flatMap.1 hc
    exact areUnlinked_declarations d.2 c hd

/-- Linking does with every model that is read what it does with any types that were taken in. -/
theorem links_readDirectory {fs : FileSystem} {dir : Path} {m : Model}
    (h : (readDirectory fs tags dir).run.result = .ok m) : m.Links m.link := by
  refine m.links_link fun c hc => ?_
  obtain ⟨x, hx⟩ := (m.mem_classes c).1 hc
  have hmem := List.mem_of_getElem? (Model.get?_eq_some_of_class? hx)
  exact (areUnlinked_readDirectory h c hmem).isDerivedFrom

end Documentation

end Registrar
