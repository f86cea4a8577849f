/-
# What utilities do

A utility changes the file system, writes some output, and succeeds with status zero or fails with
another status.
-/
import Registrar.FileSystem.Change

namespace Registrar.Script

/-- What a utility has done. -/
structure Effect where
  fs : FileSystem
  status : Nat := 0
  output : ByteArray := ByteArray.empty
  /-- Whether the input has been read, which then is used up. -/
  readsInput : Bool := false

/-- A utility: what it does with its input and its arguments. -/
abbrev Utility :=
  FileSystem → (input : ByteArray) → (arguments : List String) → Effect

namespace Effect

/-- The effect of something that may be refused; a refusal has status one. -/
def ofExcept (fs : FileSystem) : Except IoError FileSystem → Effect
  | .ok changed => { fs := changed }
  | .error _ => { fs := fs, status := 1 }

/-- The effect of something that may change a part and then be refused. -/
def ofPartial : FileSystem × Except IoError Unit → Effect
  | (fs, .ok ()) => { fs := fs }
  | (fs, .error _) => { fs := fs, status := 1 }

/-- The effect of something that is refused. -/
def refusal (fs : FileSystem) : Effect :=
  { fs := fs, status := 1 }

/-- The effect of writing a text. -/
def say (fs : FileSystem) (text : String) : Effect :=
  { fs := fs, output := text.toUTF8 }

/-- One effect and then another; the greater status counts. -/
def andThen (a b : Effect) : Effect :=
  { fs := b.fs
    status := max a.status b.status
    output := a.output ++ b.output
    readsInput := a.readsInput || b.readsInput }

/-- The effect of something that is done for each of some arguments. -/
def forEach {α : Type} (fs : FileSystem) (args : List α) (f : FileSystem → α → Effect) : Effect :=
  args.foldl (fun e arg => e.andThen (f e.fs arg)) { fs := fs }

end Effect

/-! ## Arguments -/

/-- The arguments of a utility. -/
structure Arguments where
  /-- The options of one letter. -/
  letters : List Char := []
  /-- The values of options, by their letters, in the order in which they are given. -/
  values : List (Char × String) := []
  /-- The options with longer names. -/
  words : List String := []
  operands : List String := []

namespace Arguments

/-- Takes up a cluster of letters, of which the last may take the rest as its value or, if there
is no rest, the next argument. -/
def addCluster (valued : List Char) (a : Arguments) :
    List Char → List String → Arguments × List String
  | [], args => (a, args)
  | c :: cs, args =>
    if valued.contains c then
      if !cs.isEmpty then ({ a with values := a.values ++ [(c, String.ofList cs)] }, args)
      else match args with
        | value :: args => ({ a with values := a.values ++ [(c, value)] }, args)
        | [] => ({ a with letters := c :: a.letters }, [])
    else addCluster valued { a with letters := c :: a.letters } cs args

theorem length_addCluster_le (valued : List Char) (a : Arguments) (cs : List Char)
    (args : List String) : (addCluster valued a cs args).2.length ≤ args.length := by
  induction cs generalizing a with
  | nil => simp [addCluster]
  | cons c cs ih =>
    unfold addCluster
    split
    · split
      · simp
      · split <;> simp
    · exact ih _

/-- Reads arguments; `valued` are the letters of the options that take a value.  Options may stand
behind operands. -/
def read (valued : List Char) (a : Arguments) : List String → Arguments
  | [] => a
  | "--" :: args => { a with operands := a.operands ++ args }
  | arg :: args =>
    match arg.toList with
    | '-' :: '-' :: word => read valued { a with words := String.ofList word :: a.words } args
    | '-' :: c :: cs =>
      read valued (addCluster valued a (c :: cs) args).1 (addCluster valued a (c :: cs) args).2
    | _ => read valued { a with operands := a.operands ++ [arg] } args
termination_by args => args.length
decreasing_by
  · simp
  · exact Nat.lt_succ_of_le (length_addCluster_le valued a (c :: cs) args)
  · simp

/-- Whether one of some letters is given. -/
def has (a : Arguments) (letters : List Char) : Bool :=
  letters.any a.letters.contains

/-- Whether an option with a longer name is given. -/
def hasWord (a : Arguments) (word : String) : Bool :=
  a.words.contains word

/-- The last value of an option. -/
def value? (a : Arguments) (letter : Char) : Option String :=
  (a.values.reverse.find? fun value => value.1 = letter).map Prod.snd

end Arguments

/-! ## Contents as text -/

/-- Contents as text.  Contents that are no text are read byte by byte. -/
def textOf (contents : ByteArray) : String :=
  match String.fromUTF8? contents with
  | some text => text
  | none => String.ofList (contents.toList.map fun b => Char.ofNat b.toNat)

/-- The lines of contents, without the line feeds behind them. -/
def contentLines (contents : ByteArray) : List (List Char) :=
  let pieces := Chars.splitOn '\n' (textOf contents).toList
  if pieces.getLast? = some [] then pieces.dropLast else pieces

/-- Lines as contents, with a line feed behind each. -/
def ofContentLines (lines : List (List Char)) : ByteArray :=
  (String.ofList (lines.flatMap fun line => line ++ ['\n'])).toUTF8

/-- What stands in a file; `-` stands for the input. -/
def contentsOf (fs : FileSystem) (input : ByteArray) (operand : String) : Option ByteArray :=
  if operand = "-" || operand = "/dev/stdin" then some input
  else (fs.readFile ⟨operand⟩).toOption

/-- The contents of the files that are named, or the input if none is.  A file that cannot be read
is left out, and the last answer says whether all could be. -/
def readAll (fs : FileSystem) (input : ByteArray) (operands : List String) :
    List (String × ByteArray) × Bool :=
  let operands := if operands.isEmpty then ["-"] else operands
  let found := operands.filterMap fun o => (contentsOf fs input o).map fun c => (o, c)
  (found, found.length = operands.length)

/-- A utility that makes output of the contents of its operands, taken together. -/
def onContents (fs : FileSystem) (input : ByteArray) (operands : List String)
    (f : ByteArray → ByteArray) : Effect :=
  let (found, isComplete) := readAll fs input operands
  { fs := fs
    status := if isComplete then 0 else 1
    output := f (found.foldl (fun whole part => whole ++ part.2) ByteArray.empty)
    readsInput := operands.isEmpty || operands.contains "-" }

end Registrar.Script
