/-
# Expansion of words

What the parts of a word stand for, and the arguments, patterns and texts that words become.
-/
import Registrar.Script.Arithmetic
import Registrar.Script.Interpreter
import Registrar.Script.Utility.Effect
import Registrar.Script.Wildcard

namespace Registrar.Script.Interpreter

/-- The pieces of a value. -/
def valuePieces (isQuoted : Bool) (value : String) : List Piece :=
  value.toList.map fun c => .char c isQuoted (!isQuoted)

/-- The pieces of the arguments of a script, with a boundary between each two of them. -/
def argumentPieces (isQuoted : Bool) (args : List String) : List Piece :=
  let pieces := args.map fun arg =>
    if isQuoted then .quotes :: valuePieces true arg else valuePieces false arg
  [Piece.gap].intercalate pieces

/-- The pieces of the value of a parameter. -/
def parameterPieces (p : Process) (name : String) (isQuoted : Bool) (value : String) :
    List Piece :=
  if name = "@" || (name = "*" && !isQuoted) then argumentPieces isQuoted p.arguments
  else if name = "*" then
    let separator := match p.separators with
      | [] => ""
      | c :: _ => String.singleton c
    valuePieces true (separator.intercalate p.arguments)
  else valuePieces isQuoted value

/-- The text of a word that is not split. -/
def text (i : Interpreter) (w : Word) : Session String := do
  pure (Field.text (joinPieces (← i.expand w)))

/-- The pattern that a word spells. -/
def pattern (i : Interpreter) (w : Word) : Session (List Wildcard) := do
  pure (Wildcard.ofCharacters (joinPieces (← i.expand w)))

/-- What some commands write, without the line feeds at its end. -/
def outputOf (i : Interpreter) (body : List Command) : Session String := do
  let channel := (← get).channels.size
  let status ← i.inSubshell (fun p => p.openChannel 1 (.buffer ByteArray.empty))
    (i.runAll false body)
  let p ← get
  let contents := match p.channels[channel]? with
    | some (.buffer contents) => contents
    | _ => ByteArray.empty
  set { p with outputStatus := status.number }
  let cs := (textOf contents).toList.filter (· ≠ '\x00')
  pure (String.ofList (cs.reverse.dropWhile (· = '\n')).reverse)

/-- The value of an arithmetic expression, which may change variables.  One that makes no sense
ends the script. -/
def arithmetic (i : Interpreter) (w : Word) : Session String := do
  let spelling ← i.text w
  let p ← get
  let value (name : String) : String := (p.parameter? name).getD ""
  match (Expression.parse? spelling.toList).bind fun e => e.evaluate? value [] with
  | none =>
    Session.abort
    pure ""
  | some (n, changes) =>
    changes.reverse.forM fun change =>
      modify fun p => p.assign change.1 (toString change.2)
    pure (toString n)

/-- What is taken of the value of a parameter. -/
def usePieces (i : Interpreter) (name : String) (use : Use) (isQuoted : Bool) :
    Session (List Piece) := do
  let p ← get
  let value := p.parameter? name
  let isList := name = "@" || name = "*"
  let refuse : Session (List Piece) := do
    Session.abort
    pure []
  let isRefused := value.isNone && p.has 'u'
  match use with
  | .plain => if isRefused then refuse else pure (parameterPieces p name isQuoted (value.getD ""))
  | .length =>
    if isRefused then refuse
    else pure (valuePieces isQuoted (toString (value.getD "").length))
  | .invalid => refuse
  | .without isFront isLongest w =>
    if isRefused then refuse
    else
      let cut ← i.pattern w
      let cs := (value.getD "").toList
      let rest := if isFront then Wildcard.cutFront isLongest cut cs
        else Wildcard.cutEnd isLongest cut cs
      pure (valuePieces isQuoted (String.ofList rest))
  | .fallback kind countsEmpty w =>
    let isMissing := if isList then p.arguments.isEmpty
      else value.all fun value => countsEmpty && value.isEmpty
    let itself := parameterPieces p name isQuoted (value.getD "")
    let replacement : Session (List Piece) := do
      let pieces ← i.expand w
      pure (pieces.map fun
        | .char c false _ => .char c false (!isQuoted)
        | piece => piece)
    match kind with
    | .word => if isMissing then replacement else pure itself
    | .alternative => if isMissing then pure [] else replacement
    | .failure => if isMissing then refuse else pure itself
    | .assignment =>
      if !isMissing then pure itself
      else if !isName name.toList then refuse
      else do
        let value ← i.text w
        modify fun p => p.assign name value
        pure (valuePieces isQuoted value)

/-- What a part of a word stands for. -/
def partPieces (i : Interpreter) : Part → Session (List Piece)
  | .char c isQuoted => pure [.char c isQuoted false]
  | .quotes => pure [.quotes]
  | .parameter name use isQuoted => i.usePieces name use isQuoted
  | .output body isQuoted => do pure (valuePieces isQuoted (← i.outputOf body))
  | .value expression isQuoted => do pure (valuePieces isQuoted (← i.arithmetic expression))

/-- A word in which a tilde at the front is the home directory. -/
def withHome (p : Process) (w : Word) : Word :=
  match w with
  | .char '~' false :: rest =>
    let isAlone := match rest with
      | [] => true
      | .char '/' false :: _ => true
      | _ => false
    match isAlone, p.valueOf? "HOME" with
    | true, some home => home.toList.map (fun c => Part.char c true) ++ rest
    | _, _ => w
  | _ => w

/-- What some parts of a word stand for, one after the other as long as the script goes on. -/
def partsPieces (i : Interpreter) : Word → Session (List Piece)
  | [] => pure []
  | part :: rest => do
    let pieces ← i.partPieces part
    if (← get).isRunning then pure (pieces ++ (← i.partsPieces rest)) else pure pieces

/-- What a word stands for. -/
def expandStep (i : Interpreter) (w : Word) : Session (List Piece) := do
  i.partsPieces (withHome (← get) w)

/-- The arguments that a word becomes. -/
def fields (i : Interpreter) (w : Word) : Session (List String) := do
  let pieces ← i.expand w
  let p ← get
  let found := splitFields p.separators pieces
  if p.has 'f' then pure (found.map Field.text) else pure (found.flatMap (Wildcard.paths p.fs))

/-- Whether a word is written as an assignment. -/
def isAssignment (w : Word) : Bool :=
  let name := w.takeWhile fun
    | .char c false => isNamePart c
    | _ => false
  isName (plainText name) && match w.drop name.length with
    | .char '=' false :: _ => true
    | _ => false

/-- The commands whose arguments may be assignments. -/
def isDeclaration (name : String) : Bool :=
  name = "export" || name = "readonly" || name = "local"

/-- The arguments that words become, as long as the script goes on. -/
def argumentsOf (i : Interpreter) (isDeclared : Bool) : List Word → Session (List String)
  | [] => pure []
  | w :: ws => do
    let found ← if isDeclared && isAssignment w then do pure [← i.text w] else i.fields w
    if (← get).isRunning then pure (found ++ (← i.argumentsOf isDeclared ws)) else pure found

end Registrar.Script.Interpreter
