/-
# The utilities of the system

The programs that only read and change files, by their names.
-/
import Registrar.Script.Utility.Condition
import Registrar.Script.Utility.Edit
import Registrar.Script.Utility.Print
import Registrar.Script.Utility.Search

namespace Registrar.Script

namespace Utility

/-- A utility that only has a status. -/
def ofStatus (status : List String → Nat) : Utility := fun fs _ args =>
  { fs := fs, status := status args }

/-- A utility that only writes a text, and takes no operands. -/
def constant (text : String) : Utility := fun fs _ args =>
  if (Arguments.read [] {} args).operands.isEmpty then Effect.say fs text else Effect.refusal fs

/-- A utility that tells something about entries, which have to be there. -/
def inspect : Utility := fun fs _ args =>
  let operands := (Arguments.read ['d'] {} args).operands
  let isThere (name : String) : Bool := (fs.linkEntry ⟨name⟩).toOption.isSome
  { fs := fs, status := if operands.all isThere then 0 else 1 }

/-- What a format says about an entry of a given name. -/
def described (name : String) (n : FileSystem.Node) : List Char → List Char
  | '%' :: c :: format =>
    let text := match c, n with
      | 'n', _ => name
      | 's', .file _ _ contents => toString contents.size
      | 's', .link _ target => toString target.utf8ByteSize
      | 's', .directory _ _ _ => "4096"
      | 'F', .file _ _ contents =>
        if contents.isEmpty then "regular empty file" else "regular file"
      | 'F', .link _ _ => "symbolic link"
      | 'F', .directory _ _ _ => "directory"
      | 's', .device _ => "0"
      | 'F', .device _ => "character special file"
      | 'Y', n => toString (Int.fdiv n.modified 1000000000)
      | 'a', .file _ isExecutable _ => if isExecutable then "755" else "644"
      | 'a', .link _ _ => "777"
      | 'a', .directory _ _ _ => "755"
      | 'a', .device _ => "666"
      | '%', _ => "%"
      | _, _ => "?"
    text.toList ++ described name n format
  | c :: format => c :: described name n format
  | [] => []

/-- Writes what a format says about entries. -/
def stat : Utility := fun fs input args =>
  let a := Arguments.read ['c'] {} args
  match a.value? 'c' with
  | none => inspect fs input a.operands
  | some format =>
    Effect.forEach fs a.operands fun fs name =>
      match if a.has ['L'] then fs.entry ⟨name⟩ else fs.linkEntry ⟨name⟩ with
      | .error _ => Effect.refusal fs
      | .ok n => Effect.say fs (String.ofList (described name n format.toList) ++ "\n")

/-- Copies the input, or a file, to the output, or to a file. -/
def dd : Utility := fun fs input args =>
  let value (name : String) : Option String := args.findSome? (Text.dropStart? (name ++ "="))
  let number (name : String) : Option Nat := (value name).bind String.toNat?
  let isKnown (arg : String) : Bool :=
    ["if", "of", "bs", "count", "skip", "status", "conv"].any fun name =>
      Text.startsWith arg (name ++ "=")
  let size := (number "bs").getD 512
  match if args.all isKnown then contentsOf fs input ((value "if").getD "-") else none with
  | none => Effect.refusal fs
  | some contents =>
    let start := (number "skip").getD 0 * size
    let rest := contents.extract start contents.size
    let taken := match number "count" with
      | some n => rest.extract 0 (n * size)
      | none => rest
    match value "of" with
    | some file => { putContents fs file taken with readsInput := (value "if").isNone }
    | none => { fs := fs, output := taken, readsInput := (value "if").isNone }

/-- Writes who runs it. -/
def identify : Utility := fun fs _ args =>
  let a := Arguments.read [] {} args
  if !a.operands.isEmpty then Effect.refusal fs
  else if a.has ['n'] then Effect.say fs "root\n"
  else if a.has ['u', 'g', 'G'] then Effect.say fs "0\n"
  else Effect.say fs "uid=0(root) gid=0(root) groups=0(root)\n"

/-- Whether a text is a time to wait for. -/
def isDuration (text : String) : Bool :=
  let digits := text.toList.takeWhile fun c => c.isDigit || c = '.'
  let unit := text.toList.drop digits.length
  digits.any Char.isDigit && (unit.isEmpty || ["s", "m", "h", "d"].contains (String.ofList unit))

/-- Waits, which takes no time here. -/
def sleep : Utility :=
  ofStatus fun args => if !args.isEmpty && args.all isDuration then 0 else 1

/-- Tells the time, which is different for every run and so is not written. -/
def date : Utility :=
  ofStatus fun args =>
    let operands := (Arguments.read ['d', 'r', 'f'] {} args).operands
    if operands.all fun text => text.toList.head? = some '+' then 0 else 1

/-- Gives files to somebody else, which changes nothing that can be seen. -/
def chown : Utility := fun fs _ args =>
  match (Arguments.read [] {} args).operands with
  | _ :: name :: names =>
    let isThere (name : String) : Bool := (fs.entry ⟨name⟩).toOption.isSome
    { fs := fs, status := if (name :: names).all isThere then 0 else 1 }
  | _ => Effect.refusal fs

/-- Writes the path of the directory in which it runs. -/
def pwd : Utility := fun fs _ _ =>
  match fs.workingPath? with
  | some path => Effect.say fs (path.text ++ "\n")
  | none => Effect.refusal fs

end Utility

/-- The utilities that write what is in files or what is to be found out about texts. -/
def readingUtilities : List (String × Utility) :=
  [("basename", Utility.basename), ("cat", Utility.cat), ("cmp", Utility.cmp),
    ("comm", Utility.comm), ("cut", Utility.cut), ("diff", Utility.diff),
    ("dirname", Utility.dirname),
    ("egrep", fun fs input args => Utility.grep fs input ("-E" :: args)), ("expr", Utility.expr),
    ("fgrep", fun fs input args => Utility.grep fs input ("-F" :: args)), ("fold", Utility.fold),
    ("grep", Utility.grep), ("head", Utility.head), ("ls", Utility.ls), ("dir", Utility.ls),
    ("vdir", Utility.ls), ("nl", Utility.nl), ("paste", Utility.paste), ("pwd", Utility.pwd),
    ("readlink", Utility.readlink), ("realpath", Utility.realpath), ("rev", Utility.rev),
    ("rgrep", fun fs input args => Utility.grep fs input ("-r" :: args)), ("sed", Utility.sed),
    ("seq", Utility.seq), ("sort", Utility.sort), ("stat", Utility.stat), ("tac", Utility.tac),
    ("tail", Utility.tail), ("test", Utility.test), ("[", Utility.bracket), ("tr", Utility.tr),
    ("uniq", Utility.uniq), ("wc", Utility.wc), ("echo", Utility.echo true),
    ("printf", Utility.printf)]

/-- The utilities that change files. -/
def writingUtilities : List (String × Utility) :=
  [("chgrp", Utility.chown), ("chmod", Utility.chmod), ("chown", Utility.chown),
    ("cp", Utility.cp), ("dd", Utility.dd), ("install", Utility.install), ("link", Utility.link),
    ("ln", Utility.ln), ("mkdir", Utility.mkdir), ("mktemp", Utility.mktemp), ("mv", Utility.mv),
    ("rm", Utility.rm), ("rmdir", Utility.rmdir), ("tee", Utility.tee), ("touch", Utility.touch),
    ("truncate", Utility.truncate), ("unlink", Utility.unlink)]

/-- The utilities that tell something about the system, or nothing at all. -/
def tellingUtilities : List (String × Utility) :=
  [("date", Utility.date), ("df", Utility.inspect), ("du", Utility.inspect),
    ("false", Utility.ofStatus fun _ => 1), ("id", Utility.identify), ("sleep", Utility.sleep),
    ("sync", Utility.ofStatus fun _ => 0), ("true", Utility.ofStatus fun _ => 0),
    ("tty", Utility.ofStatus fun args => if args.isEmpty then 1 else 2),
    ("uname", Utility.constant "Linux\n"), ("whoami", Utility.constant "root\n")]

/-- The utilities of which only the status is told. -/
def examiningUtilities : List (String × Utility) :=
  let always (status : Nat) (names : List String) : List (String × Utility) :=
    names.map fun name => (name, Utility.ofStatus fun _ => status)
  (["md5sum", "sha1sum", "sha224sum", "sha256sum", "sha384sum", "sha512sum", "b2sum", "cksum",
      "sum", "od", "base64", "base32", "expand", "unexpand", "fmt", "pr", "shuf", "ptx"].map
        fun name => (name, Utility.examine))
    ++ (["groups", "hostname", "nproc", "arch", "logname", "hostid"].map
        fun name => (name, Utility.constant ""))
    ++ always 0 ["who", "users", "pinky", "pathchk"]
    ++ (["factor", "join", "csplit", "tsort", "mkfifo", "mknod", "stty", "chcon", "dircolors",
        "basenc"].map
        fun name => (name, Utility.ofStatus fun args => if args.isEmpty then 0 else 1))
    ++ always 2 ["numfmt", "diff3", "sdiff", "tar", "gunzip"]

/-- The utilities by their names. -/
def utilities : List (String × Utility) :=
  readingUtilities ++ writingUtilities ++ tellingUtilities ++ examiningUtilities

end Registrar.Script
