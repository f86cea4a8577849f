/-
# Scripts

What the text of a shell script means before it runs: words with the expansions in them, and
commands that are put together from other commands.
-/

namespace Registrar.Script

/-- What takes the place of a parameter that has no value. -/
inductive Fallback where
  /-- A word stands in for the value. -/
  | word
  /-- A word stands in for the value and becomes it. -/
  | assignment
  /-- The script ends. -/
  | failure
  /-- A word stands in for the value of a parameter that has one. -/
  | alternative
  deriving DecidableEq, Repr

/-- What a redirection does with a file descriptor. -/
inductive RedirectionKind where
  | read
  /-- Writes a new file, over one that is there only if scripts may do that. -/
  | write
  | overwrite
  | append
  | readWrite
  /-- Lets the descriptor be the same as another one, or closes it. -/
  | duplicate
  /-- Reads from a text that stands in the script. -/
  | text
  deriving DecidableEq, Repr

mutual

/-- A part of a word. -/
inductive Part where
  /-- A character, with whether it is quoted. -/
  | char (c : Char) (isQuoted : Bool)
  /-- A pair of quotes, which make an argument even if nothing stands between them. -/
  | quotes
  /-- The value of a parameter. -/
  | parameter (name : String) (use : Use) (isQuoted : Bool)
  /-- The output of some commands. -/
  | output (body : List Command) (isQuoted : Bool)
  /-- The value of an arithmetic expression. -/
  | value (expression : List Part) (isQuoted : Bool)

/-- What is taken of the value of a parameter. -/
inductive Use where
  | plain
  /-- The number of its characters. -/
  | length
  /-- A replacement if there is no value; with `countsEmpty` an empty one counts as none. -/
  | fallback (kind : Fallback) (countsEmpty : Bool) (word : List Part)
  /-- The value without what a pattern stands for at its front or at its end. -/
  | without (isFront isLongest : Bool) (pattern : List Part)
  /-- What makes no sense, which is noticed only when the value is to be taken. -/
  | invalid

/-- A command. -/
inductive Command where
  /-- A program with its arguments, behind some assignments. -/
  | simple (assignments : List (String × List Part)) (words : List (List Part))
  | redirected (body : Command) (redirections : List Redirection)
  /-- Commands of which each reads what the one before it writes. -/
  | pipeline (stages : List Command)
  | negation (body : Command)
  /-- The second command runs if the first one succeeds. -/
  | both (first second : Command)
  /-- The second command runs if the first one fails. -/
  | either (first second : Command)
  | sequence (commands : List Command)
  | background (body : Command)
  | subshell (body : Command)
  | conditional (condition body otherwise : Command)
  /-- Repeats a command as long as a condition succeeds, or as long as it fails. -/
  | loop (isUntil : Bool) (condition body : Command)
  /-- Repeats a command for some words, or for the arguments of the script. -/
  | forEach (name : String) (words : Option (List (List Part))) (body : Command)
  | choice (word : List Part) (branches : List Branch)
  | function (name : String) (body : Command)

/-- A branch of a choice with the patterns that lead to it. -/
inductive Branch where
  | mk (patterns : List (List Part)) (body : Command)

/-- A redirection of a file descriptor. -/
inductive Redirection where
  | mk (descriptor : Nat) (kind : RedirectionKind) (word : List Part)

end

/-- A word of a script. -/
abbrev Word := List Part

instance : Inhabited Command := ⟨.sequence []⟩

/-- A character of the name of a variable. -/
def isNamePart (c : Char) : Bool :=
  c.isAlphanum || c = '_'

/-- Whether a text may be the name of a variable. -/
def isName : List Char → Bool
  | [] => false
  | c :: cs => !c.isDigit && (c :: cs).all isNamePart

/-- A parameter whose name is a single character. -/
def isShortParameter (c : Char) : Bool :=
  c.isDigit || c = '$' || c = '?' || c = '#' || c = '@' || c = '*' || c = '!' || c = '-'

end Registrar.Script
