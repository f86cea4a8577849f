/-
# Reading a document

The tree of a document from its events.  The elements that are still open stand on a stack, the
innermost first, each with the children that it has so far, last child first.
-/
import Registrar.Xml.Event
import Registrar.Xml.Node
import Registrar.Xml.Reference

namespace Registrar.Xml

/-! ## Namespaces -/

/-- The namespaces that qualifiers stand for, innermost declaration first.  The empty qualifier
gives the namespace of elements without a qualifier. -/
abbrev Scope := List (String × Space)

/-- An attribute as it is written, with its value decoded. -/
structure WrittenAttribute where
  qualifier : String
  localName : String
  value : String

namespace WrittenAttribute

/-- The qualifier that an attribute declares, if it declares one. -/
def declares? (a : WrittenAttribute) : Option String :=
  if a.qualifier = "xmlns" then some a.localName
  else if a.localName = "xmlns" then some ""
  else none

/-- Whether an attribute may declare a qualifier.  The address of declarations stands for no
qualifier, and the address of reserved names only for `xml`, which stands for nothing else. -/
def isAdmissible (qualifier : String) (a : WrittenAttribute) : Bool :=
  a.value ≠ Space.declarationAddress && (a.value = Space.reservedAddress ↔ qualifier = "xml")

/-- The declarations among some attributes, or nothing if one of them is not admissible or a
qualifier is declared twice.  That `xml` stands for reserved names needs no declaration, so one of
it adds nothing. -/
def declarations? (attributes : List WrittenAttribute) : Option Scope :=
  let declaring := attributes.filterMap fun a =>
    a.declares?.map fun qualifier => (qualifier, a)
  let declared := (declaring.filter fun (qualifier, _) => qualifier ≠ "xml").map
    fun (qualifier, a) => (qualifier, Space.address a.value)
  let qualifiers := (declared.map Prod.fst).filter (· ≠ "")
  if declaring.all (fun (qualifier, a) => isAdmissible qualifier a) && qualifiers.Nodup then
    some declared
  else none

/-- The name of an attribute; an attribute without a qualifier has no namespace. -/
def name? (scope : Scope) (a : WrittenAttribute) : Option Name :=
  if a.qualifier = "" then some ⟨none, a.localName⟩
  else if a.qualifier = "xml" then some ⟨some .reserved, a.localName⟩
  else (scope.lookup a.qualifier).map fun space => ⟨some space, a.localName⟩

end WrittenAttribute

/-- An element that is still open. -/
structure OpenElement where
  written : WrittenName
  name : Name
  attributes : List Attribute
  scope : Scope
  children : List Node := []

namespace OpenElement

/-- The name of an element in a scope.  A qualifier has to be declared. -/
def name? (scope : Scope) (written : WrittenName) : Option Name :=
  let qualifier := String.ofList written.qualifier
  let localName := String.ofList written.localName
  match scope.lookup qualifier with
  | some space => some ⟨some space, localName⟩
  | none => if qualifier = "" then some ⟨none, localName⟩ else none

/-- Opens an element.  No two of its attributes have the same name. -/
def open? (outer : Scope) (written : WrittenName)
    (attributes : List (WrittenName × List Char)) : Option OpenElement := do
  let attributes ← attributes.mapM fun (name, value) => do
    let value ← decodeValue? value
    pure (WrittenAttribute.mk (String.ofList name.qualifier) (String.ofList name.localName) value)
  let declared ← WrittenAttribute.declarations? attributes
  let scope := declared ++ outer
  let name ← name? scope written
  let kept := attributes.filter fun a => a.declares?.isNone
  let attributes ← kept.mapM fun a => do
    let name ← a.name? scope
    pure (Attribute.mk name a.value)
  if (attributes.map Attribute.name).Nodup then pure ⟨written, name, attributes, scope, []⟩
  else none

/-- The element when it is complete. -/
def toNode (e : OpenElement) : Node :=
  .element e.name e.attributes e.children.reverse

end OpenElement

/-! ## The tree -/

/-- The open elements, innermost first, and the nodes that are in none of them, last first. -/
structure Progress where
  stack : List OpenElement := []
  top : List Node := []

namespace Progress

/-- The scope of the innermost open element. -/
def scope (p : Progress) : Scope :=
  match p.stack with
  | [] => []
  | e :: _ => e.scope

/-- Adds a complete node.  There is only one element outside of all others. -/
def add? (p : Progress) (n : Node) : Option Progress :=
  match p.stack with
  | e :: stack => some { p with stack := { e with children := n :: e.children } :: stack }
  | [] =>
    if n.isElement && p.top.any Node.isElement then none else some { p with top := n :: p.top }

/-- Adds text: outside of all elements there is only blank text, which counts for nothing. -/
def addText? (p : Progress) (written : List Char) : Option Progress :=
  if p.stack.isEmpty then
    if written.all isSpace then some p else none
  else (decodeText? written).bind fun content => p.add? (.text content)

/-- Adds a section of literal text, which stands inside of an element. -/
def addLiteral? (p : Progress) (written : List Char) : Option Progress :=
  if p.stack.isEmpty then none else p.add? (.text (decodeLiteral written))

/-- Completes the innermost open element. -/
def close? (p : Progress) (written : WrittenName) : Option Progress :=
  match p.stack with
  | [] => none
  | e :: stack =>
    if e.written = written then Progress.add? { p with stack := stack } e.toNode else none

/-- Opens an element, and completes it right away if it is empty. -/
def open? (p : Progress) (written : WrittenName) (attributes : List (WrittenName × List Char))
    (isEmpty : Bool) : Option Progress := do
  let e ← OpenElement.open? p.scope written attributes
  if isEmpty then p.add? e.toNode else pure { p with stack := e :: p.stack }

/-- The nodes of the document when there is nothing more to read: no element is open, and there
is one. -/
def finish? (p : Progress) : Option (List Node) :=
  if p.stack.isEmpty && p.top.any Node.isElement then some p.top.reverse else none

end Progress

/-- The nodes of a document from its events; `tag` is the start tag that is being read, with its
attributes so far, last one first. -/
def nodes? : Progress → Option (WrittenName × List (WrittenName × List Char)) → List Event →
    Option (List Node)
  | p, none, [] => p.finish?
  | p, none, .start name :: es =>
    if name.qualifier = "xmlns".toList then none else nodes? p (some (name, [])) es
  | p, some (name, attributes), .attribute a value :: es =>
    nodes? p (some (name, (a, value) :: attributes)) es
  | p, some (name, attributes), .startDone isEmpty :: es => do
    let p ← p.open? name attributes.reverse isEmpty
    nodes? p none es
  | p, none, .close name :: es => do
    let p ← p.close? name
    nodes? p none es
  | p, none, .text written :: es => do
    let p ← p.addText? written
    nodes? p none es
  | p, none, .literal written :: es => do
    let p ← p.addLiteral? written
    nodes? p none es
  | p, none, .comment content :: es => do
    let p ← p.add? (.comment (String.ofList content))
    nodes? p none es
  | p, none, .instruction target content :: es => do
    let p ← p.add? (.instruction (String.ofList target) (String.ofList content))
    nodes? p none es
  | _, _, _ => none

/-! ## The front of a document -/

/-- A blank, or the end of the declaration, or the end of the text. -/
def declarationGap? (cs : List Char) : Option (List Char) :=
  if cs.head?.any isSpace || cs.isEmpty || ['?', '>'].isPrefixOf cs then some (skipSpaces cs)
  else none

/-- The attribute whose name starts with a given word, if there is one. -/
def declarationPart? (word : String) (cs : List Char) : Option (List Char) := do
  let (_, _, rest) ← writtenAttribute? cs
  if word.toList.isPrefixOf cs then pure rest else none

/-- What follows the declaration of the version, the encoding and the independence of a
document, of which only the first has to be there. -/
def skipDeclaration? (cs : List Char) : Option (List Char) := do
  let rest ← declarationPart? "version" (skipSpaces cs)
  let rest ← declarationGap? rest
  let rest ←
    if "encoding".toList.isPrefixOf rest then
      (declarationPart? "encoding" rest).bind declarationGap?
    else pure rest
  let rest ←
    if "standalone".toList.isPrefixOf rest then declarationPart? "standalone" rest else pure rest
  match skipSpaces rest with
  | '?' :: '>' :: rest => pure rest
  | _ => none

/-- A text without a byte order mark at its front. -/
def skipByteOrderMark : List Char → List Char
  | [] => []
  | c :: cs => if c = Char.ofNat 0xFEFF then cs else c :: cs

/-- The nodes of the document that a text spells, or nothing if it spells none. -/
def parse? (s : String) : Option (List Node) := do
  let cs := skipByteOrderMark s.toList
  let body ←
    match ['<', '?', 'x', 'm', 'l', ' '].isPrefixOf? cs with
    | some rest => skipDeclaration? rest
    | none => pure cs
  let es ← events? false body
  nodes? {} none es

end Registrar.Xml
