/-
# Printing texts

Utilities that write their arguments, as they are or as a format says.
-/
import Registrar.Script.Utility.CharacterSet

namespace Registrar.Script

/-! ## Escapes -/

/-- What the text behind a backslash stands for, and what follows; nothing if it stands for
itself. -/
def escape? : List Char → Option (Char × List Char)
  | [] => none
  | c :: cs =>
    if '0' ≤ c && c ≤ '7' then some (Char.ofNat (octal 3 (c :: cs)).1, (octal 3 (c :: cs)).2)
    else if c = '\\' || ['a', 'b', 'f', 'n', 'r', 't', 'v'].contains c then some (escaped c, cs)
    else none

/-- A text with its escapes replaced, and whether one of them ends the output. -/
def interpret : (fuel : Nat) → List Char → List Char × Bool
  | 0, cs => (cs, false)
  | _, [] => ([], false)
  | _ + 1, '\\' :: 'c' :: _ => ([], true)
  | fuel + 1, '\\' :: cs =>
    /- A zero in front of other octal digits does not count. -/
    let digits := match cs with
      | '0' :: d :: rest => if '0' ≤ d && d ≤ '7' then d :: rest else cs
      | cs => cs
    match escape? digits with
    | some (c, rest) =>
      let (text, isEnded) := interpret fuel rest
      (c :: text, isEnded)
    | none =>
      let (text, isEnded) := interpret fuel cs
      ('\\' :: text, isEnded)
  | fuel + 1, c :: cs =>
    let (text, isEnded) := interpret fuel cs
    (c :: text, isEnded)

/-- A text with its escapes replaced, and whether one of them ends the output. -/
def interpreted (text : String) : List Char × Bool :=
  interpret (text.length + 1) text.toList

/-! ## Formats -/

/-- A part of a format. -/
inductive Directive where
  | literal (c : Char)
  /-- Writes an argument.  A width or a precision may itself be an argument. -/
  | argument (flags : List Char) (width : Option (Option Nat)) (precision : Option (Option Nat))
      (conversion : Char)
  deriving DecidableEq

/-- A number at the front of a text, or a star in its place. -/
def measure? (cs : List Char) : Option (Option Nat) × List Char :=
  match cs with
  | '*' :: cs => (some none, cs)
  | cs =>
    match (String.ofList (cs.takeWhile Char.isDigit)).toNat? with
    | some n => (some (some n), cs.dropWhile Char.isDigit)
    | none => (none, cs)

/-- The parts of a format; nothing if it makes no sense. -/
def directives? : (fuel : Nat) → List Char → Option (List Directive)
  | 0, _ => some []
  | _, [] => some []
  | fuel + 1, '\\' :: cs =>
    match escape? cs with
    | some (c, rest) => (directives? fuel rest).map (.literal c :: ·)
    | none => (directives? fuel cs).map (.literal '\\' :: ·)
  | fuel + 1, '%' :: '%' :: cs => (directives? fuel cs).map (.literal '%' :: ·)
  | fuel + 1, '%' :: cs =>
    let isFlag (c : Char) : Bool := ['-', '+', ' ', '0', '#'].contains c
    let flags := cs.takeWhile isFlag
    let (width, rest) := measure? (cs.dropWhile isFlag)
    let (precision, rest) := match rest with
      | '.' :: rest =>
        match measure? rest with
        | (none, rest) => (some (some 0), rest)
        | found => found
      | rest => (none, rest)
    match rest with
    | c :: rest =>
      if ['d', 'i', 'u', 'o', 'x', 'X', 'c', 's', 'b'].contains c then
        (directives? fuel rest).map (.argument flags width precision c :: ·)
      else none
    | [] => none
  | fuel + 1, c :: cs => (directives? fuel cs).map (.literal c :: ·)

/-- A text filled up to a width. -/
def filled (flags : List Char) (width : Nat) (sign text : List Char) : List Char :=
  let size := sign.length + text.length
  if flags.contains '-' then sign ++ text ++ List.replicate (width - size) ' '
  else if flags.contains '0' then sign ++ List.replicate (width - size) '0' ++ text
  else List.replicate (width - size) ' ' ++ sign ++ text

/-- The number that an argument spells, and whether it does so: behind a quote it is that of a
character. -/
def numberOf (text : String) : Int × Bool :=
  match text.toList with
  | '\x27' :: c :: _ => (c.toNat, true)
  | '"' :: c :: _ => (c.toNat, true)
  | cs =>
    let cs := cs.dropWhile fun c => c = ' ' || c = '\t'
    let (isNegative, cs) := match cs with
      | '-' :: cs => (true, cs)
      | '+' :: cs => (false, cs)
      | cs => (false, cs)
    let value := if text.isEmpty then some 0 else (Expression.number? cs).map Int64.toInt
    let digits := (String.ofList (cs.takeWhile Char.isDigit)).toNat?
    let n : Int := value.getD (digits.getD 0)
    (if isNegative then -n else n, value.isSome)

/-- What a conversion makes of an argument, and whether the argument makes sense. -/
def converted (flags : List Char) (width : Nat) (precision : Option Nat) (conversion : Char)
    (text : String) : List Char × Bool :=
  let plain := flags.filter (· ≠ '0')
  let cut (cs : List Char) : List Char := match precision with
    | some n => cs.take n
    | none => cs
  if conversion = 's' then (filled plain width [] (cut text.toList), true)
  else if conversion = 'b' then (filled plain width [] (cut (interpreted text).1), true)
  else if conversion = 'c' then (filled plain width [] (text.toList.take 1), true)
  else
    let (n, isNumber) := numberOf text
    let isSigned := conversion = 'd' || conversion = 'i'
    let magnitude := if isSigned then n.natAbs else (n % 0x10000000000000000).toNat
    let base := if conversion = 'o' then 8 else if conversion = 'x' || conversion = 'X' then 16
      else 10
    let digits := Nat.toDigits base magnitude
    let digits := if conversion = 'X' then digits.map Char.toUpper else digits
    let digits := match precision with
      | some n => List.replicate (n - digits.length) '0' ++ digits
      | none => digits
    let sign : List Char :=
      if isSigned then
        if n < 0 then ['-'] else if flags.contains '+' then ['+']
        else if flags.contains ' ' then [' '] else []
      else if flags.contains '#' && magnitude ≠ 0 then
        if conversion = 'x' then ['0', 'x'] else if conversion = 'X' then ['0', 'X']
        else if conversion = 'o' then ['0'] else []
      else []
    (filled (if precision.isSome then plain else flags) width sign digits, isNumber)

/-- What is written once for a format. -/
structure Printing where
  text : List Char := []
  arguments : List String
  isEnded : Bool := false
  isSound : Bool := true

namespace Printing

/-- Takes the next argument. -/
def next (p : Printing) : String × Printing :=
  (p.arguments.headD "", { p with arguments := p.arguments.drop 1 })

/-- Takes a width or a precision, which may be an argument. -/
def measured (p : Printing) : Option (Option Nat) → Option Int × Printing
  | none => (none, p)
  | some (some n) => (some n, p)
  | some none =>
    let (text, p) := p.next
    (some (numberOf text).1, p)

/-- Writes what a part of a format says. -/
def step (p : Printing) : Directive → Printing
  | .literal c => if p.isEnded then p else { p with text := p.text ++ [c] }
  | .argument flags width precision conversion =>
    if p.isEnded then p
    else
      let (width, p) := p.measured width
      let (precision, p) := p.measured precision
      let (text, p) := p.next
      let flags := if width.any (· < 0) then '-' :: flags else flags
      let most := precision.bind fun n => if n < 0 then none else some n.toNat
      let (cs, isSound) := converted flags (width.getD 0).natAbs most conversion text
      { p with
        text := p.text ++ cs
        isEnded := conversion = 'b' && (interpreted text).2
        isSound := p.isSound && isSound }

/-- Writes a format again and again as long as there are arguments. -/
def repeated (ds : List Directive) : (count : Nat) → Printing → Printing
  | 0, p => p
  | count + 1, p =>
    let after := ds.foldl step p
    let takes := ds.any fun
      | .argument _ _ _ _ => true
      | _ => false
    if after.isEnded || after.arguments.isEmpty || !takes then after else repeated ds count after

end Printing

namespace Utility

/-- Writes its arguments with spaces between them.  Unless it is plain it replaces escapes. -/
def echo (isPlain : Bool) : Utility := fun fs _ args =>
  let letters : List Char := if isPlain then ['n', 'e', 'E'] else ['n']
  let isOption (arg : String) : Bool :=
    match arg.toList with
    | '-' :: c :: cs => (c :: cs).all letters.contains
    | _ => false
  let options := if isPlain then args.takeWhile isOption else (args.take 1).filter (· = "-n")
  let text := " ".intercalate (args.drop options.length)
  let given := options.flatMap fun option => option.toList.drop 1
  let interprets := !isPlain || ((given.reverse.find? fun c => c ≠ 'n') = some 'e')
  let (cs, isEnded) := if interprets then interpreted text else (text.toList, false)
  { fs := fs, output := ofText (if isEnded || given.contains 'n' then cs else cs ++ ['\n']) }

/-- Writes its arguments as a format says. -/
def printf : Utility := fun fs _ args =>
  let args := if args.head? = some "--" then args.drop 1 else args
  match args with
  | [] => { fs := fs, status := 2 }
  | format :: arguments =>
    match directives? (format.length + 1) format.toList with
    | none => { fs := fs, status := 2 }
    | some ds =>
      let p := Printing.repeated ds (arguments.length + 1) { arguments := arguments }
      { fs := fs, status := if p.isSound then 0 else 1, output := ofText p.text }

end Utility

end Registrar.Script
