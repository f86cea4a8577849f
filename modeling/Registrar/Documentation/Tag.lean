/-
# Tags

The markers that the paragraphs of a description hold, and what they say of a class or of a data
member.
-/
import Registrar.Model.Declaration
import Registrar.Settings.Basic

namespace Registrar

/-- What the description of a class says. -/
structure ClassTags where
  role : Option Role := none
  isEncodable : Bool := false
  deriving DecidableEq, Repr

namespace TagSettings

/-- Whether a paragraph holds one of some markers. -/
def holdsAny (paragraph : String) (markers : List String) : Bool :=
  markers.any fun marker => Text.contains paragraph marker

/-- The role that a paragraph gives: the first one with a marker in it. -/
def paragraphRole? (tags : TagSettings) (paragraph : String) : Option Role :=
  Role.structural.find? fun role => holdsAny paragraph (tags.roleMarkers role)

/-- What the paragraphs of a class say.  The first paragraph that gives a role decides. -/
def classTags (tags : TagSettings) (paragraphs : List String) : ClassTags :=
  ⟨paragraphs.findSome? tags.paragraphRole?, paragraphs.any fun p => holdsAny p tags.encodable⟩

/-- The property that the paragraphs of a data member describe, if one of them has the marker of
properties.  Qualifiers count in that paragraph only. -/
def propertyTag? (tags : TagSettings) (name : String) (paragraphs : List String) :
    Option Property :=
  (paragraphs.find? fun p => Text.contains p tags.property).map fun p =>
    { name := name
      isRequired := Text.contains p tags.required
      isVector := Text.contains p tags.vector
      isEnum := Text.contains p tags.enumeration }

end TagSettings

end Registrar
