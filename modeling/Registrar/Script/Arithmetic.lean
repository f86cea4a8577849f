/-
# Arithmetic of scripts

Expressions over integers of 64 bits and the variables of a script, which an expression may change.
-/
import Registrar.Script.Syntax

namespace Registrar.Script

/-- An arithmetic expression. -/
inductive Expression where
  | number (n : Int64)
  | variable (name : String)
  | unary (operator : Char) (e : Expression)
  | binary (operator : String) (a b : Expression)
  /-- Gives a variable the value of an expression. -/
  | assignment (name : String) (e : Expression)
  | conditional (condition a b : Expression)

namespace Expression

/-! ## Numbers -/

/-- The value of a digit, letters standing for the digits from ten on. -/
def digitValue (c : Char) : Nat :=
  if c.isDigit then c.toNat - '0'.toNat
  else if 'a' ≤ c && c ≤ 'z' then c.toNat - 'a'.toNat + 10
  else if 'A' ≤ c && c ≤ 'Z' then c.toNat - 'A'.toNat + 10
  else 36

/-- The number that digits of a base spell, the greatest there is if it is too large. -/
def ofDigits? (base : Nat) (cs : List Char) : Option Int64 :=
  if !cs.isEmpty && cs.all (fun c => digitValue c < base) then
    let n := cs.foldl (fun n c => n * base + digitValue c) 0
    some (Int64.ofNat (min n 0x7FFFFFFFFFFFFFFF))
  else none

/-- The number that a text spells: in base 16 behind `0x`, in base 8 behind another zero. -/
def number? : List Char → Option Int64
  | '0' :: 'x' :: cs => ofDigits? 16 cs
  | '0' :: 'X' :: cs => ofDigits? 16 cs
  | '0' :: cs => if cs.isEmpty then some 0 else ofDigits? 8 cs
  | cs => ofDigits? 10 cs

/-- The number that the value of a variable stands for; an empty one stands for zero. -/
def valueOf? (text : String) : Option Int64 :=
  match text.toList.filter fun c => c ≠ ' ' && c ≠ '\t' && c ≠ '\n' with
  | [] => some 0
  | '-' :: cs => (number? cs).map fun n => -n
  | '+' :: cs => number? cs
  | cs => number? cs

/-! ## Reading -/

/-- The operators, longer ones first. -/
def operators : List String :=
  ["<<=", ">>=", "||", "&&", "==", "!=", "<=", ">=", "<<", ">>", "+=", "-=", "*=", "/=", "%=", "&=",
    "^=", "|=", "+", "-", "*", "/", "%", "<", ">", "&", "|", "^", "=", "!", "~", "?", ":", "(", ")"]

/-- A number, a name or an operator. -/
inductive Token where
  | number (n : Int64)
  | name (text : String)
  | operator (text : String)
  deriving DecidableEq

/-- The tokens of a text. -/
def tokens? : (fuel : Nat) → List Char → Option (List Token)
  | _, [] => some []
  | 0, _ => none
  | fuel + 1, c :: cs =>
    if c = ' ' || c = '\t' || c = '\n' then tokens? fuel cs
    else if c.isDigit then do
      let n ← number? ((c :: cs).takeWhile isNamePart)
      let ts ← tokens? fuel ((c :: cs).dropWhile isNamePart)
      pure (.number n :: ts)
    else if isNamePart c then do
      let ts ← tokens? fuel ((c :: cs).dropWhile isNamePart)
      pure (.name (String.ofList ((c :: cs).takeWhile isNamePart)) :: ts)
    else do
      let operator ← operators.find? fun o => o.toList.isPrefixOf (c :: cs)
      let ts ← tokens? fuel ((c :: cs).drop operator.length)
      pure (.operator operator :: ts)

/-- How tightly an operator between two operands binds. -/
def strength? : String → Option Nat
  | "||" => some 1
  | "&&" => some 2
  | "|" => some 3
  | "^" => some 4
  | "&" => some 5
  | "==" | "!=" => some 6
  | "<" | ">" | "<=" | ">=" => some 7
  | "<<" | ">>" => some 8
  | "+" | "-" => some 9
  | "*" | "/" | "%" => some 10
  | _ => none

/-- The operator that an assignment applies before it assigns. -/
def assigning? : String → Option String
  | "=" => some ""
  | "+=" => some "+"
  | "-=" => some "-"
  | "*=" => some "*"
  | "/=" => some "/"
  | "%=" => some "%"
  | "<<=" => some "<<"
  | ">>=" => some ">>"
  | "&=" => some "&"
  | "^=" => some "^"
  | "|=" => some "|"
  | _ => none

mutual

/-- The whole expression at the front of some tokens. -/
def whole? : Nat → List Token → Option (Expression × List Token)
  | 0, _ => none
  | fuel + 1, ts =>
    let assigned : Option (String × String × List Token) :=
      match ts with
      | .name x :: .operator o :: rest => (assigning? o).map fun o => (x, o, rest)
      | _ => none
    match assigned with
    | some (x, o, rest) => do
      let (e, rest) ← whole? fuel rest
      pure (.assignment x (if o.isEmpty then e else .binary o (.variable x) e), rest)
    | none => do
      let (condition, rest) ← chain? fuel 1 ts
      match rest with
      | .operator "?" :: rest => do
        let (a, rest) ← whole? fuel rest
        match rest with
        | .operator ":" :: rest => do
          let (b, rest) ← whole? fuel rest
          pure (.conditional condition a b, rest)
        | _ => none
      | _ => pure (condition, rest)

/-- The expression of operators that bind at least as tightly as a given strength. -/
def chain? : Nat → Nat → List Token → Option (Expression × List Token)
  | 0, _, _ => none
  | fuel + 1, least, ts => do
    let (e, rest) ← operand? fuel ts
    extended? fuel least e rest

/-- An expression with the operators behind it that bind at least as tightly as a given strength. -/
def extended? : Nat → Nat → Expression → List Token → Option (Expression × List Token)
  | 0, _, _, _ => none
  | fuel + 1, least, e, ts =>
    match ts with
    | .operator o :: rest =>
      match strength? o with
      | some n =>
        if least ≤ n then do
          let (b, rest) ← chain? fuel (n + 1) rest
          extended? fuel least (.binary o e b) rest
        else some (e, ts)
      | none => some (e, ts)
    | _ => some (e, ts)

/-- The operand at the front of some tokens. -/
def operand? : Nat → List Token → Option (Expression × List Token)
  | 0, _ => none
  | fuel + 1, ts =>
    match ts with
    | .number n :: rest => some (.number n, rest)
    | .name x :: rest => some (.variable x, rest)
    | .operator "(" :: rest => do
      match ← whole? fuel rest with
      | (e, .operator ")" :: rest) => pure (e, rest)
      | _ => none
    | .operator o :: rest =>
      match o.toList with
      | [c] =>
        if c = '+' || c = '-' || c = '!' || c = '~' then do
          let (e, rest) ← operand? fuel rest
          pure (.unary c e, rest)
        else none
      | _ => none
    | [] => none

end

/-- The expression that a text spells; an empty text spells zero. -/
def parse? (text : List Char) : Option Expression := do
  match ← tokens? text.length text with
  | [] => pure (.number 0)
  | ts =>
    match ← whole? (20 * ts.length + 20) ts with
    | (e, []) => pure e
    | _ => none

/-! ## Values -/

/-- One for what holds and zero for what does not. -/
def ofBool (b : Bool) : Int64 :=
  if b then 1 else 0

/-- The value of an operator other than the two that may leave out an operand.  There is no
division by zero. -/
def combine? (operator : String) (a b : Int64) : Option Int64 :=
  match operator with
  | "|" => some (a ||| b)
  | "^" => some (a ^^^ b)
  | "&" => some (a &&& b)
  | "==" => some (ofBool (a == b))
  | "!=" => some (ofBool (a != b))
  | "<" => some (ofBool (a < b))
  | ">" => some (ofBool (a > b))
  | "<=" => some (ofBool (a ≤ b))
  | ">=" => some (ofBool (a ≥ b))
  | "<<" => some (a <<< b)
  | ">>" => some (a >>> b)
  | "+" => some (a + b)
  | "-" => some (a - b)
  | "*" => some (a * b)
  | "/" => if b == 0 then none else some (a / b)
  | "%" => if b == 0 then none else some (a % b)
  | _ => none

/-- The value of an expression with the variables that it has set, the last one first. -/
def evaluate? (value : String → String) :
    Expression → List (String × Int64) → Option (Int64 × List (String × Int64))
  | number n, changes => some (n, changes)
  | .variable name, changes =>
    match changes.lookup name with
    | some n => some (n, changes)
    | none => (valueOf? (value name)).map fun n => (n, changes)
  | unary o e, changes => do
    let (n, changes) ← evaluate? value e changes
    let n := if o = '-' then -n else if o = '!' then ofBool (n == 0)
      else if o = '~' then ~~~n else n
    pure (n, changes)
  | binary o a b, changes => do
    let (m, changes) ← evaluate? value a changes
    if o = "&&" && m == 0 then pure (0, changes)
    else if o = "||" && m != 0 then pure (1, changes)
    else do
      let (n, changes) ← evaluate? value b changes
      if o = "&&" || o = "||" then pure (ofBool (n != 0), changes)
      else do
        let n ← combine? o m n
        pure (n, changes)
  | assignment name e, changes => do
    let (n, changes) ← evaluate? value e changes
    pure (n, (name, n) :: changes)
  | conditional condition a b, changes => do
    let (n, changes) ← evaluate? value condition changes
    if n != 0 then evaluate? value a changes else evaluate? value b changes

end Expression

end Registrar.Script
