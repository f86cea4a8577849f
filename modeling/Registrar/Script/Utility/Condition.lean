/-
# Conditions and expressions

Utilities whose status says whether something holds of texts, numbers and files.
-/
import Registrar.Script.Utility.File
import Registrar.Script.Arithmetic
import Registrar.Script.Regular

namespace Registrar.Script

/-- The number that an operand spells. -/
def integer? (text : String) : Option Int :=
  let cs := text.toList.dropWhile fun c => c = ' ' || c = '\t' || c = '\n'
  let cs := (cs.reverse.dropWhile fun c => c = ' ' || c = '\t' || c = '\n').reverse
  match cs with
  | '+' :: cs => if (cs.head?).any Char.isDigit then (String.ofList cs).toInt? else none
  | cs => if cs.all (fun c => c.isDigit || c = '-') then (String.ofList cs).toInt? else none

/-- What a condition on a single operand says; nothing if there is no such condition. -/
def unaryCondition? (fs : FileSystem) (operator operand : String) : Option Bool :=
  let path : Path := ⟨operand⟩
  let node := (fs.entry path).toOption
  let isThere := node.isSome
  match operator with
  | "-n" => some !operand.isEmpty
  | "-z" => some operand.isEmpty
  | "-e" => some isThere
  | "-f" => some (fs.isFile path)
  | "-d" => some (fs.isDirectory path)
  | "-r" => some isThere
  | "-w" => some isThere
  | "-x" => some <| match node with
    | some (.file _ isExecutable _) => isExecutable
    | some n => n.isDirectory
    | none => false
  | "-s" => some <| match node with
    | some (.file _ _ contents) => !contents.isEmpty
    | some n => n.isDirectory
    | none => false
  | "-h" | "-L" => some <| match fs.linkEntry path with
    | .ok (.link _ _) => true
    | _ => false
  | "-c" => some (node.any FileSystem.Node.isDevice)
  | "-O" | "-G" => some isThere
  | "-b" | "-p" | "-S" | "-g" | "-u" | "-k" | "-t" => some false
  | _ => none

/-- The conditions on two operands. -/
def binaryConditions : List String :=
  ["=", "!=", "<", ">", "-eq", "-ne", "-lt", "-le", "-gt", "-ge", "-nt", "-ot", "-ef"]

/-- What a condition on two operands says; nothing if its operands make no sense. -/
def binaryCondition? (fs : FileSystem) (operator a b : String) : Option Bool :=
  let numbers (f : Int → Int → Bool) : Option Bool := do
    let m ← integer? a
    let n ← integer? b
    pure (f m n)
  let time (text : String) : Option Instant := (fs.modified ⟨text⟩).toOption
  match operator with
  | "=" => some (a = b)
  | "!=" => some (a ≠ b)
  | "<" => some (a < b)
  | ">" => some (b < a)
  | "-eq" => numbers fun m n => m = n
  | "-ne" => numbers fun m n => m ≠ n
  | "-lt" => numbers fun m n => m < n
  | "-le" => numbers fun m n => m ≤ n
  | "-gt" => numbers fun m n => n < m
  | "-ge" => numbers fun m n => n ≤ m
  | "-nt" => some <| match time a, time b with
    | some s, some t => t < s
    | _, _ => false
  | "-ot" => some <| match time a, time b with
    | some s, some t => s < t
    | _, _ => false
  | "-ef" => some (isSameEntry fs true ⟨a⟩ ⟨b⟩)
  | _ => none

mutual

/-- The alternatives at the front of some words, and the words behind them. -/
def anyOf? (fs : FileSystem) : (fuel : Nat) → List String → Option (Bool × List String)
  | 0, _ => none
  | fuel + 1, ws => do
    match ← allOf? fs fuel ws with
    | (a, "-o" :: rest) => do
      let (b, rest) ← anyOf? fs fuel rest
      pure (a || b, rest)
    | found => pure found

/-- The conditions at the front of some words that have to hold together. -/
def allOf? (fs : FileSystem) : (fuel : Nat) → List String → Option (Bool × List String)
  | 0, _ => none
  | fuel + 1, ws => do
    match ← oneOf? fs fuel ws with
    | (a, "-a" :: rest) => do
      let (b, rest) ← allOf? fs fuel rest
      pure (a && b, rest)
    | found => pure found

/-- The condition at the front of some words.  A word stands for itself if nothing else fits. -/
def oneOf? (fs : FileSystem) : (fuel : Nat) → List String → Option (Bool × List String)
  | 0, _ => none
  | fuel + 1, ws =>
    let isBinary (word : String) : Bool := binaryConditions.contains word
    match ws with
    | [] => some (false, [])
    | a :: operator :: b :: rest =>
      if isBinary operator then (binaryCondition? fs operator a b).map fun holds => (holds, rest)
      else if a = "!" then
        (oneOf? fs fuel (operator :: b :: rest)).map fun (holds, rest) => (!holds, rest)
      else if a = "(" then
        match anyOf? fs fuel (operator :: b :: rest) with
        | some (holds, ")" :: rest) => some (holds, rest)
        | _ => none
      else match unaryCondition? fs a operator with
        | some holds => some (holds, b :: rest)
        | none => some (!a.isEmpty, operator :: b :: rest)
    | [a, operand] =>
      if a = "!" then (oneOf? fs fuel [operand]).map fun (holds, rest) => (!holds, rest)
      else match unaryCondition? fs a operand with
        | some holds => some (holds, [])
        | none => some (!a.isEmpty, [operand])
    | [a] => some (!a.isEmpty, [])

end

/-- What some words say as a condition; nothing if they make no sense.  The number of the words
decides where they could mean more than one thing. -/
def condition? (fs : FileSystem) (ws : List String) : Option Bool :=
  let whole (ws : List String) : Option Bool :=
    match anyOf? fs (4 * ws.length + 4) ws with
    | some (holds, []) => some holds
    | _ => none
  match ws with
  | [] => some false
  | [a] => some (!a.isEmpty)
  | ["!", a] => some a.isEmpty
  | ["(", a, ")"] => some (!a.isEmpty)
  | ["!", a, b, c] =>
    if binaryConditions.contains b then (binaryCondition? fs b a c).map not else whole ws
  | _ => whole ws

namespace Utility

/-- Checks a condition. -/
def test : Utility := fun fs _ args =>
  { fs := fs
    status := match condition? fs args with
      | some true => 0
      | some false => 1
      | none => 2 }

/-- Checks a condition that ends in a bracket. -/
def bracket : Utility := fun fs input args =>
  if args.getLast? = some "]" then test fs input args.dropLast else { fs := fs, status := 2 }

end Utility

/-! ## Expressions -/

/-- The value of an operator of an expression on two texts; nothing if it has none. -/
def operation? (operator a b : String) : Option String :=
  let numbers (f : Int → Int → Option Int) : Option String := do
    let m ← integer? a
    let n ← integer? b
    (f m n).map toString
  let compared (f : Int → Bool) : Option String :=
    let difference : Int := match integer? a, integer? b with
      | some m, some n => m - n
      | _, _ => if a < b then -1 else if a = b then 0 else 1
    some (if f difference then "1" else "0")
  match operator with
  | "+" => numbers fun m n => some (m + n)
  | "-" => numbers fun m n => some (m - n)
  | "*" => numbers fun m n => some (m * n)
  | "/" => numbers fun m n => if n = 0 then none else some (Int.tdiv m n)
  | "%" => numbers fun m n => if n = 0 then none else some (Int.tmod m n)
  | "<" => compared (· < 0)
  | "<=" => compared (· ≤ 0)
  | "=" | "==" => compared (· = 0)
  | "!=" => compared (· ≠ 0)
  | ">=" => compared (· ≥ 0)
  | ">" => compared (· > 0)
  | "|" => some (if a.isEmpty || a = "0" then if b.isEmpty then "0" else b else a)
  | "&" => some (if a.isEmpty || a = "0" || b.isEmpty || b = "0" then "0" else a)
  | ":" =>
    (Regular.parse? false b).map fun r =>
      let isGrouped := Text.contains b "\\("
      match r.matchAt? false { rest := a.toList } with
      | none => if isGrouped then "" else "0"
      | some last =>
        if isGrouped then String.ofList ((last.groups.lookup 1).getD [])
        else toString (a.length - last.rest.length)
  | _ => none

/-- How tightly an operator of an expression binds. -/
def operationStrength? : String → Option Nat
  | "|" => some 1
  | "&" => some 2
  | "<" | "<=" | "=" | "==" | "!=" | ">=" | ">" => some 3
  | "+" | "-" => some 4
  | "*" | "/" | "%" => some 5
  | ":" => some 6
  | _ => none

mutual

/-- The value of the operators at the front of some words that bind at least as tightly as a given
strength, and the words behind them. -/
def operations? : (fuel least : Nat) → List String → Option (String × List String)
  | 0, _, _ => none
  | fuel + 1, least, ws => do
    let (a, rest) ← operand? fuel ws
    furtherOperations? fuel least a rest

/-- A value with the operators behind it. -/
def furtherOperations? : (fuel least : Nat) → String → List String → Option (String × List String)
  | 0, _, _, _ => none
  | fuel + 1, least, a, ws =>
    match ws with
    | operator :: rest =>
      match operationStrength? operator with
      | some n =>
        if least ≤ n then do
          let (b, rest) ← operations? fuel (n + 1) rest
          let value ← operation? operator a b
          furtherOperations? fuel least value rest
        else some (a, ws)
      | none => some (a, ws)
    | [] => some (a, [])

/-- The operand at the front of some words. -/
def operand? : (fuel : Nat) → List String → Option (String × List String)
  | 0, _ => none
  | fuel + 1, ws =>
    match ws with
    | "(" :: rest => do
      match ← operations? fuel 1 rest with
      | (value, ")" :: rest) => pure (value, rest)
      | _ => none
    | "length" :: text :: rest => some (toString text.length, rest)
    | "match" :: text :: pattern :: rest =>
      (operation? ":" text pattern).map fun value => (value, rest)
    | "index" :: text :: set :: rest =>
      let i := (text.toList.findIdx? set.toList.contains).map (· + 1)
      some (toString (i.getD 0), rest)
    | "substr" :: text :: start :: size :: rest =>
      let part := match integer? start, integer? size with
        | some m, some n => if m ≤ 0 then [] else (text.toList.drop (m.toNat - 1)).take n.toNat
        | _, _ => []
      some (String.ofList part, rest)
    | text :: rest => some (text, rest)
    | [] => none

end

namespace Utility

/-- Writes the value of an expression; the status is one if it is empty or zero. -/
def expr : Utility := fun fs _ args =>
  match operations? (4 * args.length + 4) 1 args with
  | some (value, []) =>
    { Effect.say fs (value ++ "\n") with
      status := if value.isEmpty || integer? value = some 0 then 1 else 0 }
  | _ => { fs := fs, status := 2 }

end Utility

end Registrar.Script
