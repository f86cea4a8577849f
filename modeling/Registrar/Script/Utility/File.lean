/-
# Copying, moving and removing files

The utilities that change the file system.
-/
import Registrar.Script.Utility.Name

namespace Registrar.Script

/-- Writes a file. -/
def putContents (fs : FileSystem) (path : String) (contents : ByteArray) : Effect :=
  Effect.ofExcept fs (fs.writeFile ⟨path⟩ contents)

/-- Lets a file be executable or not. -/
def setExecutable (fs : FileSystem) (path : Path) (isExecutable : Bool) :
    Except IoError FileSystem := do
  let location ← fs.locate true path
  pure (fs.modifyEntry location fun
    | .file modified _ contents => .file modified isExecutable contents
    | n => n)

/-- The sources of a utility with the paths that they are to have: the last operand, or, if that
is a directory, their own names in it. -/
def destinations? (fs : FileSystem) (a : Arguments) : Option (List (String × Path)) :=
  match a.value? 't' with
  | some directory =>
    if fs.isDirectory ⟨directory⟩ && !a.operands.isEmpty then
      some (a.operands.map fun source => (source, inside directory source))
    else none
  | none =>
    match a.operands.getLast?, a.operands.dropLast with
    | some last, source :: sources =>
      if fs.isDirectory ⟨last⟩ && !a.has ['T'] then
        some ((source :: sources).map fun source => (source, inside last source))
      else if sources.isEmpty then some [(source, ⟨last⟩)]
      else none
    | _, _ => none

/-- Whether two paths lead to the same entry. -/
def isSameEntry (fs : FileSystem) (followLast : Bool) (a b : Path) : Bool :=
  match fs.locate followLast a, fs.locate followLast b with
  | .ok l, .ok m => l = m
  | _, _ => false

/-! ## Copies -/

/-- How entries are copied. -/
structure Copying where
  keepsTime : Bool
  /-- Whether a file that is there already stays as it is. -/
  skipsPresent : Bool
  /-- Whether a file stays as it is unless the source has been changed after it. -/
  skipsNewer : Bool

/-- Copies a file. -/
def Copying.copyFile (c : Copying) (destination : Path) (modified : Instant)
    (isExecutable : Bool) (contents : ByteArray) (fs : FileSystem) : Effect :=
  let copied (isNew : Bool) : Except IoError FileSystem := do
    let fs ← fs.writeFile destination contents
    let fs ← if isNew && isExecutable then fs.makeExecutable destination else pure fs
    if c.keepsTime then fs.setModified destination modified else pure fs
  match fs.linkEntry destination with
  | .error .notFound => Effect.ofExcept fs (copied true)
  | .error _ => Effect.refusal fs
  | .ok (.directory _ _ _) => Effect.refusal fs
  | .ok _ =>
    match fs.entry destination with
    | .error _ => Effect.refusal fs
    | .ok present =>
      if c.skipsPresent || (c.skipsNewer && modified ≤ present.modified) then { fs := fs }
      else Effect.ofExcept fs (copied false)

mutual

/-- Copies an entry with everything in it; what is in a directory that is there already stays. -/
def Copying.copy (c : Copying) (destination : Path) : FileSystem.Node → FileSystem → Effect
  | .file modified isExecutable contents, fs =>
    c.copyFile destination modified isExecutable contents fs
  | .link _ target, fs =>
    let made (fs : FileSystem) := Effect.ofExcept fs (fs.createLink destination target)
    match fs.linkEntry destination with
    | .ok (.directory _ _ _) => Effect.refusal fs
    | .ok _ =>
      if c.skipsPresent then { fs := fs }
      else match fs.removeFile destination with
        | .ok fs => made fs
        | .error _ => Effect.refusal fs
    | .error _ => made fs
  | .device modified, fs => c.copyFile destination modified false ByteArray.empty fs
  | .directory modified _ entries, fs =>
    let made := match fs.linkEntry destination with
      | .ok (.directory _ _ _) => some fs
      | .ok _ => none
      | .error _ => (fs.createDirectory destination).toOption
    match made with
    | none => Effect.refusal fs
    | some fs =>
      let e := c.copyEntries destination entries fs
      if c.keepsTime then
        e.andThen (Effect.ofExcept e.fs (e.fs.setModified destination modified))
      else e

/-- Copies some entries into a directory. -/
def Copying.copyEntries (c : Copying) (directory : Path) :
    List (String × FileSystem.Node) → FileSystem → Effect
  | [], fs => { fs := fs }
  | (name, n) :: entries, fs =>
    let e := c.copy (directory / name) n fs
    e.andThen (c.copyEntries directory entries e.fs)

end

namespace Utility

/-- Copies files and, if it is asked to, directories. -/
def cp : Utility := fun fs _ args =>
  let a := Arguments.read ['t', 'S'] {} args
  let isRecursive := a.has ['r', 'R', 'a'] || a.hasWord "recursive" || a.hasWord "archive"
  let keepsLinks := (isRecursive || a.has ['P', 'd']) && !a.has ['L', 'H']
  let c : Copying := {
    keepsTime := a.has ['p', 'a'] || a.hasWord "archive" || a.hasWord "preserve"
    skipsPresent := a.has ['n']
    skipsNewer := a.has ['u'] }
  match destinations? fs a with
  | none => Effect.refusal fs
  | some pairs =>
    Effect.forEach fs pairs fun fs (source, destination) =>
      match if keepsLinks then fs.linkEntry ⟨source⟩ else fs.entry ⟨source⟩ with
      | .error _ => Effect.refusal fs
      | .ok n =>
        if n.isDirectory && !isRecursive then Effect.refusal fs
        else if isSameEntry fs (!keepsLinks) ⟨source⟩ destination then Effect.refusal fs
        else
          let isInside := match fs.locate true ⟨source⟩, fs.resolve true destination with
            | .ok origin, .ok (.present location) => origin.isPrefixOf location
            | .ok origin, .ok (.absent location _) => origin.isPrefixOf location
            | _, _ => false
          let e := c.copy destination n fs
          if n.isDirectory && isInside then { e with status := 1 } else e

/-- Moves files and directories. -/
def mv : Utility := fun fs _ args =>
  let a := Arguments.read ['t', 'S'] {} args
  match destinations? fs a with
  | none => Effect.refusal fs
  | some pairs =>
    Effect.forEach fs pairs fun fs (source, destination) =>
      if a.has ['n'] && (fs.linkEntry destination).toOption.isSome then { fs := fs }
      else if isSameEntry fs false ⟨source⟩ destination then Effect.refusal fs
      else Effect.ofExcept fs (fs.rename ⟨source⟩ destination)

/-- Removes one entry. -/
def removeOne (isRecursive isForced : Bool) (fs : FileSystem) (name : String) : Effect :=
  let last := baseName name
  if last = "." || last = ".." || last = "/" then Effect.refusal fs
  else match fs.linkEntry ⟨String.ofList (withoutSlashes name.toList)⟩ with
    | .error .notFound => { fs := fs, status := if isForced then 0 else 1 }
    | .error .notADirectory => { fs := fs, status := if isForced then 0 else 1 }
    | .error _ => Effect.refusal fs
    | .ok (.directory _ _ _) =>
      if isRecursive then Effect.ofPartial (fs.removeTree ⟨name⟩) else Effect.refusal fs
    | .ok _ => Effect.ofExcept fs (fs.removeFile ⟨name⟩)

/-- Removes files and, if it is asked to, directories. -/
def rm : Utility := fun fs _ args =>
  let a := Arguments.read [] {} args
  let isForced := a.has ['f'] || a.hasWord "force"
  if a.operands.isEmpty then { fs := fs, status := if isForced then 0 else 1 }
  else Effect.forEach fs a.operands fun fs name =>
    if a.has ['d'] && !a.has ['r', 'R'] && fs.isDirectory ⟨name⟩ then
      Effect.ofExcept fs (fs.removeDirectory ⟨name⟩)
    else removeOne (a.has ['r', 'R'] || a.hasWord "recursive") isForced fs name

/-- Removes a file. -/
def unlink : Utility := fun fs _ args =>
  match args with
  | [name] => Effect.ofExcept fs (fs.removeFile ⟨name⟩)
  | _ => Effect.refusal fs

/-! ## Directories -/

/-- Makes directories, with those above them if it is asked to. -/
def mkdir : Utility := fun fs _ args =>
  let a := Arguments.read ['m'] {} args
  if a.operands.isEmpty then Effect.refusal fs
  else Effect.forEach fs a.operands fun fs name =>
    if a.has ['p'] || a.hasWord "parents" then Effect.ofPartial (fs.createDirectories ⟨name⟩)
    else Effect.ofExcept fs (fs.createDirectory ⟨name⟩)

/-- Removes an empty directory and those above it as far as they are named. -/
def removeUpward (fs : FileSystem) : (count : Nat) → (name : String) → Effect
  | 0, _ => { fs := fs }
  | count + 1, name =>
    match fs.removeDirectory ⟨name⟩ with
    | .error _ => Effect.refusal fs
    | .ok changed => removeUpward changed count (directoryName name)

/-- Removes empty directories. -/
def rmdir : Utility := fun fs _ args =>
  let a := Arguments.read [] {} args
  if a.operands.isEmpty then Effect.refusal fs
  else Effect.forEach fs a.operands fun fs name =>
    let count := if a.has ['p'] then
        ((Chars.splitOn '/' name.toList).filter fun piece => !piece.isEmpty).length
      else 1
    let e := removeUpward fs count name
    if a.hasWord "ignore-fail-on-non-empty" then { e with status := 0 } else e

/-! ## Times, links and permissions -/

/-- The number of days from the first day of 1970 to a date. -/
def daysTo (year month day : Nat) : Int :=
  let y : Int := if month ≤ 2 then year - 1 else year
  let era := Int.fdiv y 400
  let yearOfEra := y - era * 400
  let monthFromMarch : Int := if month > 2 then month - 3 else month + 9
  let dayOfYear := Int.fdiv (153 * monthFromMarch + 2) 5 + day - 1
  era * 146097 + yearOfEra * 365 + Int.fdiv yearOfEra 4 - Int.fdiv yearOfEra 100 + dayOfYear
    - 719468

/-- The instant of a date and a time of day. -/
def instantAt (year month day hour minute second : Nat) : Instant :=
  (((daysTo year month day * 24 + hour) * 60 + minute) * 60 + second) * 1000000000

/-- The runs of digits in a text. -/
def digitRuns (cs : List Char) : List (List Char) :=
  (cs.foldr
    (fun c runs =>
      if c.isDigit then
        match runs with
        | run :: runs => (c :: run) :: runs
        | [] => [[c]]
      else [] :: runs)
    [[]]).filter fun run => !run.isEmpty

/-- The instant that a text names: seconds behind an `@`, or a date with or without a time. -/
def instant? (text : String) : Option Instant :=
  match text.toList with
  | '@' :: seconds => (String.ofList seconds).toInt?.map (· * 1000000000)
  | cs =>
    match (digitRuns cs).mapM fun run => (String.ofList run).toNat? with
    | some [year, month, day] => some (instantAt year month day 0 0 0)
    | some [year, month, day, hour, minute] => some (instantAt year month day hour minute 0)
    | some (year :: month :: day :: hour :: minute :: second :: _) =>
      some (instantAt year month day hour minute second)
    | _ => none

/-- The instant that is written as digits only, from the year down to the minute, with the seconds
behind a dot. -/
def stampedInstant? (text : String) : Option Instant := do
  let cs := text.toList
  let digits := cs.takeWhile Char.isDigit
  let number (skipped size : Nat) := (String.ofList ((digits.drop skipped).take size)).toNat?
  let second := ((String.ofList ((cs.dropWhile Char.isDigit).drop 1)).toNat?).getD 0
  if digits.length = 12 then
    pure (instantAt (← number 0 4) (← number 4 2) (← number 6 2) (← number 8 2) (← number 10 2)
      second)
  else none

/-- Sets the times of files, which are made if they are missing. -/
def touch : Utility := fun fs _ args =>
  let a := Arguments.read ['d', 'r', 't'] {} args
  let time : Option Instant :=
    match a.value? 'r', a.value? 'd', a.value? 't' with
    | some file, _, _ => (fs.modified ⟨file⟩).toOption
    | _, some text, _ => instant? text
    | _, _, some text => stampedInstant? text
    | _, _, _ => some fs.nextTime
  match time with
  | none => Effect.refusal fs
  | some time =>
    let isNow := (a.values.filter fun value => value.1 ≠ 'm').isEmpty
    if a.operands.isEmpty then Effect.refusal fs
    else Effect.forEach fs a.operands fun fs name =>
      let time := if isNow then fs.nextTime else time
      match fs.setModified ⟨name⟩ time with
      | .ok fs => { fs := fs }
      | .error _ =>
        if a.has ['c'] then { fs := fs }
        else Effect.ofExcept fs do
          let fs ← fs.writeFile ⟨name⟩ ByteArray.empty
          if isNow then pure fs else fs.setModified ⟨name⟩ time

/-- Gives an entry another name, or makes a link to it. -/
def ln : Utility := fun fs _ args =>
  let a := Arguments.read ['t', 'S'] {} args
  let isSymbolic := a.has ['s'] || a.hasWord "symbolic"
  let isForced := a.has ['f'] || a.hasWord "force"
  let isLink (name : String) : Bool := match fs.linkEntry ⟨name⟩ with
    | .ok (.link _ _) => true
    | _ => false
  let a := match a.operands with
    | [source] => if (a.value? 't').isNone then { a with operands := [source, "."] } else a
    | [_, last] =>
      if a.has ['n'] && isLink last then { a with letters := 'T' :: a.letters } else a
    | _ => a
  match destinations? fs a with
  | none => Effect.refusal fs
  | some pairs =>
    Effect.forEach fs pairs fun fs (source, destination) =>
      let cleared : Option FileSystem := match fs.linkEntry destination with
        | .error _ => some fs
        | .ok (.directory _ _ _) => none
        | .ok _ =>
          if isForced && !isSameEntry fs false ⟨source⟩ destination then
            (fs.removeFile destination).toOption
          else none
      match cleared with
      | none => Effect.refusal fs
      | some cleared =>
        if isSymbolic then Effect.ofExcept fs (cleared.createLink destination source)
        else match if a.has ['L'] then fs.entry ⟨source⟩ else fs.linkEntry ⟨source⟩ with
          | .error _ => Effect.refusal fs
          | .ok n =>
            if n.isDirectory then Effect.refusal fs
            else Effect.ofExcept fs (cleared.addEntry destination n)

/-- Whether a mode lets a file be executed, if it says something about that; nothing if it makes no
sense. -/
def executableMode? (mode : String) : Option (Option Bool) :=
  let cs := mode.toList
  if !cs.isEmpty && cs.all (fun c => '0' ≤ c && c ≤ '7') then
    some (some (cs.any fun c => (c.toNat - '0'.toNat) % 2 = 1))
  else
    (Chars.splitOn ',' cs).foldlM
      (fun found clause =>
        match clause.dropWhile ['u', 'g', 'o', 'a'].contains with
        | [] => none
        | operator :: permissions =>
          if !(operator = '+' || operator = '-' || operator = '=') then none
          else if !permissions.all ['r', 'w', 'x', 'X', 's', 't', 'u', 'g', 'o'].contains then none
          else if permissions.contains 'x' then some (some (operator ≠ '-'))
          else if operator = '=' then some (some false)
          else some found)
      none

/-- Changes the permissions of files, of which only that to execute them counts. -/
def chmod : Utility := fun fs _ args =>
  let isMode (arg : String) : Bool := (executableMode? arg).isSome
  let mode := args.find? isMode
  let operands := (args.erase (mode.getD "")).filter fun arg => arg.toList.head? ≠ some '-'
  match mode.bind executableMode? with
  | none => Effect.refusal fs
  | some change =>
    if operands.isEmpty then Effect.refusal fs
    else Effect.forEach fs operands fun fs name =>
      match fs.entry ⟨name⟩, change with
      | .error _, _ => Effect.refusal fs
      | .ok _, none => { fs := fs }
      | .ok _, some isExecutable =>
        Effect.ofExcept fs do
          let before ← fs.modified ⟨name⟩
          let fs ← setExecutable fs ⟨name⟩ isExecutable
          fs.setModified ⟨name⟩ before

/-- Makes a temporary file or directory and writes its path. -/
def mktemp : Utility := fun fs _ args =>
  let a := Arguments.read ['p'] {} args
  let isBelow := a.has ['t'] || (a.value? 'p').isSome || a.operands.isEmpty
  let template := a.operands.headD "tmp.XXXXXXXXXX"
  let marks := template.toList.reverse.takeWhile (· = 'X')
  let front := String.ofList (template.toList.take (template.length - marks.length))
  let directory := (a.value? 'p').getD "/tmp"
  if marks.length < 3 || a.operands.length > 1 then Effect.refusal fs
  else
    let pathOf (n : Nat) : String :=
      let digits := (toString n).toList
      let filling := List.replicate (marks.length - digits.length) 'A'
      let text := front ++ String.ofList (filling ++ digits)
      if isBelow then ((⟨directory⟩ : Path) / text).text else text
    let isFree (path : String) : Bool := (fs.linkEntry ⟨path⟩).toOption.isNone
    match ((List.range 1000).map pathOf).find? isFree with
    | none => Effect.refusal fs
    | some path =>
      let made :=
        if a.has ['u'] then .ok fs
        else if a.has ['d'] then fs.createDirectory ⟨path⟩
        else fs.writeFile ⟨path⟩ ByteArray.empty
      let e := Effect.ofExcept fs made
      if e.status = 0 then e.andThen (Effect.say e.fs (path ++ "\n")) else e

/-- Gives a file another name. -/
def link : Utility := fun fs input args =>
  match args with
  | [source, destination] => ln fs input ["-T", "--", source, destination]
  | _ => Effect.refusal fs

/-- Copies files that are to be executed, or makes directories. -/
def install : Utility := fun fs input args =>
  let a := Arguments.read ['m', 'o', 'g', 't'] {} args
  if a.has ['d'] then mkdir fs input ("-p" :: "--" :: a.operands)
  else match destinations? fs a with
    | none => Effect.refusal fs
    | some pairs =>
      Effect.forEach fs pairs fun fs (source, destination) =>
        let above := destination.parent?.getD ⟨"."⟩
        let made := if a.has ['D'] && !above.text.isEmpty then fs.createDirectories above
          else (fs, .ok ())
        match fs.readFile ⟨source⟩, made with
        | .ok contents, (fs, .ok ()) =>
          Effect.ofExcept fs do
            let fs ← fs.writeFile destination contents
            setExecutable fs destination
              (((a.value? 'm').bind executableMode?).bind id |>.getD true)
        | _, (fs, _) => Effect.refusal fs

/-- Cuts files, or extends them, to a size. -/
def truncate : Utility := fun fs _ args =>
  let a := Arguments.read ['s', 'r'] {} args
  match (a.value? 's').bind String.toNat? with
  | none => Effect.refusal fs
  | some size =>
    if a.operands.isEmpty then Effect.refusal fs
    else Effect.forEach fs a.operands fun fs name =>
      let before := ((fs.readFile ⟨name⟩).toOption).getD ByteArray.empty
      let added := ByteArray.mk (Array.replicate (size - before.size) 0)
      if a.has ['c'] && !fs.isFile ⟨name⟩ then { fs := fs }
      else putContents fs name (before.extract 0 size ++ added)

/-- Writes the input to files and on. -/
def tee : Utility := fun fs input args =>
  let a := Arguments.read [] {} args
  let e := Effect.forEach fs a.operands fun fs name =>
    let before :=
      if a.has ['a'] then ((fs.readFile ⟨name⟩).toOption).getD ByteArray.empty else ByteArray.empty
    putContents fs name (before ++ input)
  { e with output := input, readsInput := true }

end Utility

end Registrar.Script
