/-
# Doxyfiles

The configuration with which the documentation tool writes its documents.  Every marker that is a
word in square brackets gets an alias, so that a header can say `\component` for `[component]`.
-/
import Registrar.Path.Basic
import Registrar.Settings.Basic

namespace Registrar.Doxyfile

/-- The directory of the documents, as seen from the output directory of the tool. -/
def xmlOutput : String := "ast"

/-- The settings that are the same for every run. -/
def fixedSettings : List (String × String) :=
  [("DOXYFILE_ENCODING", "UTF-8"),
    ("GENERATE_BUGLIST", "NO"),
    ("GENERATE_DEPRECATEDLIST", "NO"),
    ("GENERATE_HTML", "NO"),
    ("GENERATE_LATEX", "NO"),
    ("GENERATE_XML", "YES"),
    ("INPUT_ENCODING", "UTF-8"),
    ("JAVADOC_AUTOBRIEF", "YES"),
    ("OUTPUT_LANGUAGE", "English"),
    ("PROJECT_NAME", "\"Reflect\""),
    ("QUIET", "YES"),
    ("RECURSIVE", "YES"),
    ("WARN_IF_DOC_ERROR", "NO"),
    ("WARN_IF_UNDOCUMENTED", "NO"),
    ("WARN_NO_PARAMDOC", "NO"),
    ("WARNINGS", "NO"),
    ("XML_PROGRAMLISTING", "NO")]

/-- A character of a word. -/
def isWordPart (c : Char) : Bool :=
  c.isAlphanum || c = '_'

/-- The word in a marker that is a word in square brackets. -/
def aliasName? (marker : String) : Option String :=
  match marker.toList with
  | '[' :: rest =>
    match rest.getLast? with
    | some ']' =>
      let word := rest.dropLast
      if !word.isEmpty && word.all isWordPart then some (String.ofList word) else none
    | _ => none
  | _ => none

/-- An alias: its name, how many arguments it takes, and its text, in which `\n` stands for the
argument number `n`. -/
structure Alias where
  name : String
  arity : Nat := 0
  text : String
  deriving DecidableEq, Repr

namespace Alias

/-- The line that declares an alias. -/
def line (a : Alias) : String :=
  let arity := if a.arity = 0 then "" else r"{" ++ toString a.arity ++ r"}"
  "ALIASES += " ++ a.name ++ arity ++ "=\"" ++ a.text ++ "\""

end Alias

/-- The alias of a marker of a class. -/
def markerAlias? (marker : String) : Option Alias :=
  (aliasName? marker).map fun name => { name := name, text := marker }

/-- The aliases of the markers of roles and of encodable classes. -/
def classAliases (tags : TagSettings) : List Alias :=
  ((Role.structural.flatMap tags.roleMarkers) ++ tags.encodable).filterMap markerAlias?

/-- The arguments number one to `arity`, each as a qualifier. -/
def argumentQualifiers (arity : Nat) : String :=
  String.join ((List.range arity).map fun i => r"{\" ++ toString (i + 1) ++ r"}")

/-- The most qualifiers that the marker of a property can be given at once. -/
def maxQualifiers : Nat := 4

/-- The aliases of the marker of properties, one for every number of qualifiers. -/
def propertyAliases (tags : TagSettings) : List Alias :=
  match aliasName? tags.property with
  | none => []
  | some name =>
    (List.range (maxQualifiers + 1)).map fun arity =>
      { name := name, arity := arity, text := tags.property ++ argumentQualifiers arity }

/-- All aliases in the order in which they are declared. -/
def aliases (tags : TagSettings) : List Alias :=
  classAliases tags ++ propertyAliases tags

/-- The lines of the configuration. -/
def lines (input output : Path) (s : Settings) : List String :=
  fixedSettings.map (fun (key, value) => key ++ " = " ++ value) ++
    ["FILE_PATTERNS = " ++ " ".intercalate s.filePatterns,
      "INPUT = \"" ++ input.text ++ "\"",
      "OUTPUT_DIRECTORY = \"" ++ output.text ++ "\"",
      "XML_OUTPUT = " ++ xmlOutput] ++
    (aliases s.tags).map Alias.line

/-- The text of the configuration. -/
def contents (input output : Path) (s : Settings) : String :=
  String.join ((lines input output s).map fun line => line ++ "\n")

end Registrar.Doxyfile
