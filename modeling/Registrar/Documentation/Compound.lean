/-
# Compounds

What the documentation of a namespace, a class or a struct declares.  A namespace gives its
enums, a public class or struct gives one class, and other compounds give nothing.
-/
import Registrar.Documentation.Tag
import Registrar.Log
import Registrar.Text.Blank
import Registrar.Xml.Tree

namespace Registrar.Documentation

open Xml (Node)

/-- A compound that lacks something it must have. -/
structure MissingField where
  kind : String
  field : String
  deriving DecidableEq, Repr

namespace MissingField

/-- The wording of the failure. -/
def message (missing : MissingField) : String :=
  missing.kind ++ " compound is missing its " ++ missing.field

end MissingField

/-! ## Parts of a compound -/

/-- The text of the first child of a given name, without the blanks around it. -/
def childText? (n : Node) (name : String) : Option String :=
  (n.child? name).bind fun child => Text.trimmed? child.content

/-- The texts of the paragraphs of the detailed description, then of the brief one. -/
def paragraphs (n : Node) : List String :=
  let descriptions := ["detaileddescription", "briefdescription"].filterMap n.child?
  (descriptions.flatMap fun d => d.childrenNamed "para").map Node.content

/-- The file in which something is declared. -/
def location? (n : Node) : Option Path :=
  ((n.child? "location").bind fun l => l.attribute? "file").map Path.mk

/-- The reference to the first base class. -/
def baseReference (n : Node) : BaseReference :=
  match n.child? "basecompoundref" with
  | none => .unresolved
  | some base =>
    match base.attribute? "refid", Text.trimmed? base.content with
    | some identifier, name => .byIdentifier identifier name
    | none, some name => .byName name
    | none, none => .unresolved

/-! ## Enums -/

/-- The enum that a member of a namespace declares, if it has a name. -/
def enum? (scope : String) (member : Node) : Option EnumType :=
  (childText? member "name").map fun name =>
    { header := location? member
      identifier := member.attribute? "id"
      qualifiedName := scope ++ "::" ++ name
      values := (member.childrenNamed "enumvalue").filterMap fun v => childText? v "name"
      isScoped := member.attribute? "strong" = some "yes" }

/-- Whether a node is a member that declares an enum. -/
def isEnumMember (n : Node) : Bool :=
  n.isNamed "memberdef" && n.attribute? "kind" = some "enum"

/-- The enums of a namespace, at any depth. -/
def enums (compound : Node) : Except MissingField (List EnumType) :=
  match childText? compound "compoundname" with
  | none => .error ⟨"namespace", "compoundname"⟩
  | some scope => .ok ((compound.descendants.filter isEnumMember).filterMap (enum? scope))

/-! ## Classes -/

/-- A property completed by the type of its member. -/
def withType (member : Node) (p : Property) : Property :=
  match member.child? "type" with
  | none => p
  | some type =>
    { p with
      isVector := p.isVector ||
        "std::vector".toList.isPrefixOf (Chars.trimStart type.content.toList)
      typeReference := (type.child? "ref").bind fun r => r.attribute? "refid" }

/-- The property that a member of a class gives.  Private members and members without a name
give none. -/
def property? (tags : TagSettings) (member : Node) : Option Property :=
  if member.attribute? "prot" = some "private" then none
  else do
    let name ← childText? member "name"
    let p ← tags.propertyTag? name (paragraphs member)
    pure (withType member p)

/-- The members of a class, section by section. -/
def members (compound : Node) : List Node :=
  (compound.childrenNamed "sectiondef").flatMap fun s => s.childrenNamed "memberdef"

/-- The class that a compound gives, if it is public. -/
def class? (tags : TagSettings) (kind : String) (compound : Node) :
    Except MissingField (Option ClassType) :=
  match compound.attribute? "prot" with
  | none => .error ⟨kind, "prot"⟩
  | some "public" =>
    match compound.attribute? "id", childText? compound "compoundname" with
    | none, _ => .error ⟨kind, "id"⟩
    | some _, none => .error ⟨kind, "compoundname"⟩
    | some identifier, some name =>
      let found := tags.classTags (paragraphs compound)
      .ok (some
        { header := location? compound
          identifier := some identifier
          qualifiedName := name
          isTemplate := (compound.child? "templateparamlist").isSome
          base := baseReference compound
          role := found.role.getD .none
          isEncodable := found.isEncodable
          properties := (members compound).filterMap (property? tags)
          innerClasses := (compound.childrenNamed "innerclass").filterMap fun i =>
            i.attribute? "refid" })
  | some _ => .ok none

/-! ## Documents -/

/-- What a compound declares. -/
def compound (tags : TagSettings) (n : Node) : Except MissingField (List Declaration) :=
  match n.attribute? "kind" with
  | none => .error ⟨"unnamed", "kind"⟩
  | some kind =>
    if kind = "namespace" then (enums n).map fun es => es.map Declaration.enumType
    else if kind = "class" ∨ kind = "struct" then
      (class? tags kind n).map fun c => (c.map Declaration.classType).toList
    else .ok []

/-- The compounds of a document, at any depth. -/
def compounds (document : List Node) : List Node :=
  (Node.allDescendants document).filter fun n => n.isNamed "compounddef"

/-- What a document declares.  A compound that lacks something is reported and left out. -/
def declarations (tags : TagSettings) (document : List Node) : Logged (List Declaration) :=
  let found := (compounds document).map (compound tags)
  { result := found.flatMap fun
      | .ok ds => ds
      | .error _ => []
    log := found.filterMap fun
      | .ok _ => none
      | .error missing => some ⟨.warn, "skipping compound: " ++ missing.message⟩ }

end Registrar.Documentation
