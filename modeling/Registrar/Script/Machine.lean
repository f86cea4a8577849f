/-
# The files of a machine

What is there before any other file: the directories of the system and the programs in them.
-/
import Registrar.Script.Program

namespace Registrar.Script.Machine

open FileSystem (Node)

/-- The programs of the system as the entries of a directory. -/
def programs (modified : Instant) : List (String × Node) :=
  ("sh", .link modified "dash") ::
    Program.systemNames.map fun name => (name, .file modified true (Program.image name))

/-- The root of a machine on which nothing has been done yet. -/
def root (modified : Instant) : Node :=
  let directory (entries : List (String × Node)) : Node := .directory modified true entries
  let text (contents : String) : Node := .file modified false contents.toUTF8
  let empty (names : List String) : List (String × Node) :=
    names.map fun name => (name, Node.emptyDirectory modified)
  directory <|
    [("bin", .link modified "usr/bin"),
      ("dev", directory [("null", .device modified)]),
      ("etc", directory [("hostname", text "localhost\n"),
        ("passwd", text "root:x:0:0:root:/root:/bin/bash\n")]),
      ("lib", .link modified "usr/lib"),
      ("proc", directory (empty ["self"])),
      ("sbin", .link modified "usr/sbin"),
      ("usr", directory <|
        ("bin", directory (programs modified)) ::
        ("local", directory (empty ["bin", "lib", "sbin", "share"])) ::
        empty ["include", "lib", "sbin", "share", "src"]),
      ("var", directory (empty ["cache", "lib", "log", "tmp"]))]
    ++ empty ["boot", "home", "media", "mnt", "opt", "root", "run", "srv", "sys", "tmp"]

end Registrar.Script.Machine
