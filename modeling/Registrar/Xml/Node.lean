/-
# The tree of a document

Elements with their attributes and children, and the text, comments and processing instructions
between them.
-/

namespace Registrar.Xml

/-- A namespace: the one that the qualifier `xml` always stands for, or one that a document gives
by its address. -/
inductive Space where
  | reserved
  | address (text : String)
  deriving DecidableEq, Repr

namespace Space

/-- The address that consists of a host and the steps of a path on it. -/
def addressOn (host : String) (steps : List String) : String :=
  "/".intercalate ("http:" :: "" :: host :: steps)

/-- The address of the namespace that `xml` stands for. -/
def reservedAddress : String := addressOn "www.w3.org" ["XML", "1998", "namespace"]

/-- The address of the namespace of declarations. -/
def declarationAddress : String := addressOn "www.w3.org" ["2000", "xmlns", ""]

end Space

/-- A name with its namespace, if it has one. -/
structure Name where
  space : Option Space := none
  localName : String
  deriving DecidableEq, Repr

/-- An attribute of an element. -/
structure Attribute where
  name : Name
  value : String
  deriving DecidableEq, Repr

/-- A part of a document. -/
inductive Node where
  | element (name : Name) (attributes : List Attribute) (children : List Node)
  | text (content : String)
  | comment (content : String)
  | instruction (target content : String)

namespace Node

/-- The children of an element. -/
def children : Node → List Node
  | element _ _ children => children
  | _ => []

/-- Whether a node is an element. -/
def isElement : Node → Bool
  | element _ _ _ => true
  | _ => false

/-- Whether a node is an element with a given name, whatever its namespace. -/
def isNamed (name : String) : Node → Bool
  | element n _ _ => n.localName = name
  | _ => false

/-- The value of an attribute without a namespace. -/
def attribute? (name : String) : Node → Option String
  | element _ attributes _ =>
    (attributes.find? fun a => a.name = ⟨none, name⟩).map Attribute.value
  | _ => none

/-- The children of an element that have a given name. -/
def childrenNamed (n : Node) (name : String) : List Node :=
  n.children.filter (isNamed name)

/-- The first child of an element that has a given name. -/
def child? (n : Node) (name : String) : Option Node :=
  n.children.find? (isNamed name)

mutual

/-- All text in a node, in order. -/
def content : Node → String
  | element _ _ children => contents children
  | text content => content
  | comment _ => ""
  | instruction _ _ => ""

/-- All text in some nodes, in order. -/
def contents : List Node → String
  | [] => ""
  | n :: ns => n.content ++ contents ns

end

mutual

/-- A node and all nodes in it, in the order of their starts. -/
def descendants : Node → List Node
  | element name attributes children =>
    element name attributes children :: allDescendants children
  | text content => [text content]
  | comment content => [comment content]
  | instruction target content => [instruction target content]

/-- Some nodes and all nodes in them, in the order of their starts. -/
def allDescendants : List Node → List Node
  | [] => []
  | n :: ns => n.descendants ++ allDescendants ns

end

end Node

end Registrar.Xml
