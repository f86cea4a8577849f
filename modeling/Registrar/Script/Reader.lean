/-
# Reading scripts

The commands that the text of a script spells, line by line.  Every function reads from the front
of a text and answers with what follows; it answers nothing if the text makes no sense there.
-/
import Registrar.Script.Syntax
import Registrar.Text.Search

namespace Registrar.Script

/-! ## Between words -/

/-- A character that ends a word. -/
def isDelimiter (c : Char) : Bool :=
  c = ' ' || c = '\t' || c = '\n' || c = ';' || c = '&' || c = '|' || c = '<' || c = '>' ||
    c = '(' || c = ')'

/-- A text without the blanks, the continued line ends and the comment at its front. -/
def skipBlanks : List Char → List Char
  | ' ' :: cs => skipBlanks cs
  | '\t' :: cs => skipBlanks cs
  | '\\' :: '\n' :: cs => skipBlanks cs
  | '#' :: cs => cs.dropWhile (· ≠ '\n')
  | cs => cs

theorem length_skipBlanks_le (cs : List Char) : (skipBlanks cs).length ≤ cs.length := by
  fun_induction skipBlanks cs with
  | case1 cs ih => simp only [List.length_cons]; omega
  | case2 cs ih => simp only [List.length_cons]; omega
  | case3 cs ih => simp only [List.length_cons]; omega
  | case4 cs =>
    have := (List.dropWhile_sublist (· ≠ '\n') (l := cs)).length_le
    simp only [List.length_cons]
    omega
  | case5 cs => omega

/-- A text without the empty lines at its front. -/
def skipLines (cs : List Char) : List Char :=
  match h : skipBlanks cs with
  | '\n' :: rest =>
    have : rest.length < cs.length := by
      have h1 := length_skipBlanks_le cs
      rw [h] at h1
      simp only [List.length_cons] at h1
      omega
    skipLines rest
  | rest => rest
termination_by cs.length

/-- Whether a word starts at the front of a text. -/
def startsWord : List Char → Bool
  | [] => false
  | c :: _ => !isDelimiter c

/-! ## Keywords -/

/-- The words that have a meaning of their own where a command is expected. -/
def keywords : List String :=
  ["if", "then", "else", "elif", "fi", "while", "until", "for", "do", "done", "case", "esac", "in",
    r"{", r"}", "!"]

/-- The keywords that end a list of commands. -/
def closingKeywords : List String :=
  ["then", "else", "elif", "fi", "do", "done", "esac", r"}"]

/-- The keyword at the front of a text. -/
def keyword? (cs : List Char) : Option (String × List Char) :=
  let word := String.ofList (cs.takeWhile fun c => !isDelimiter c)
  if keywords.contains word then some (word, cs.dropWhile fun c => !isDelimiter c) else none

/-- What follows a given keyword, which may stand on a later line. -/
def expect? (word : String) (cs : List Char) : Option (List Char) :=
  (keyword? (skipLines cs)).bind fun (found, rest) => if found = word then some rest else none

/-- Whether a list of commands has its end at the front of a text. -/
def endsList (cs : List Char) : Bool :=
  match cs with
  | [] => true
  | ')' :: _ => true
  | ';' :: ';' :: _ => true
  | _ => (keyword? cs).any fun (word, _) => closingKeywords.contains word

/-! ## Pieces of words -/

/-- Where a part of a word stands. -/
inductive Context where
  | bare
  /-- Between double quotes. -/
  | quoted
  /-- In a text that a command reads. -/
  | document
  /-- Between the braces of a parameter. -/
  | braces (isQuoted : Bool)
  /-- In an arithmetic expression, with the number of its open parentheses. -/
  | arithmetic (depth : Nat)
  deriving DecidableEq, Repr

/-- Whether characters have no meaning of their own there, apart from a few. -/
def Context.isQuoted : Context → Bool
  | bare => false
  | braces isQuoted => isQuoted
  | _ => true

/-- Whether a backslash takes away the meaning of a character. -/
def Context.isEscapable (context : Context) (c : Char) : Bool :=
  !context.isQuoted || c = '$' || c = '\x60' || c = '\\' ||
    (c = '"' && context ≠ .document) || (c = '}' && context = .braces true)

/-- The text up to the next backquote, without the backslashes that keep its characters. -/
def backquoted? (isQuoted : Bool) : List Char → Option (List Char × List Char)
  | [] => none
  | '\x60' :: rest => some ([], rest)
  | '\\' :: c :: rest =>
    (backquoted? isQuoted rest).map fun (text, after) =>
      if c = '$' || c = '\x60' || c = '\\' || (c = '"' && isQuoted) then (c :: text, after)
      else ('\\' :: c :: text, after)
  | c :: rest => (backquoted? isQuoted rest).map fun (text, after) => (c :: text, after)

/-- The name of the parameter at the front of a text; between braces a number may be long. -/
def parameterName? (inBraces : Bool) (cs : List Char) : Option (String × List Char) :=
  match cs with
  | [] => none
  | c :: rest =>
    if c.isDigit && inBraces then
      some (String.ofList (cs.takeWhile Char.isDigit), cs.dropWhile Char.isDigit)
    else if isShortParameter c then some (String.singleton c, rest)
    else match cs.takeWhile isNamePart with
      | [] => none
      | name => some (String.ofList name, cs.dropWhile isNamePart)

/-- What stands in for a missing value, by the character that asks for it. -/
def fallback? : Char → Option Fallback
  | '-' => some .word
  | '=' => some .assignment
  | '?' => some .failure
  | '+' => some .alternative
  | _ => none

/-- The characters of a word as they are, without what is expanded. -/
def plainText (w : Word) : List Char :=
  w.filterMap fun
    | .char c _ => some c
    | _ => none

/-- Whether some part of a word is quoted. -/
def hasQuotes (w : Word) : Bool :=
  w.any fun
    | .char _ isQuoted => isQuoted
    | .quotes => true
    | _ => false

/-! ## Texts in a script -/

/-- The lines up to one that reads `stop`, and the lines behind that one.  With `strips` the tabs
at the front of each line do not count. -/
def documentLines (stop : List Char) (strips : Bool) :
    List (List Char) → List (List Char) × List (List Char)
  | [] => ([], [])
  | line :: lines =>
    let line := if strips then line.dropWhile (· = '\t') else line
    if line = stop then ([], lines)
    else
      let (body, rest) := documentLines stop strips lines
      (line :: body, rest)

/-- The lines of a text; what stands behind its last line feed is a line only if it is not
empty. -/
def linesOf (cs : List Char) : List (List Char) :=
  let pieces := Chars.splitOn '\n' cs
  if pieces.getLast? = some [] then pieces.dropLast else pieces

/-- Lines with a line feed behind each. -/
def ofLines (lines : List (List Char)) : List Char :=
  lines.flatMap fun line => line ++ ['\n']

/-- The text that starts on the next line and ends at a line that reads `stop`, and what is left
of the script without it.  Without such a line it ends with the script. -/
def takeDocument (stop : List Char) (strips : Bool) (cs : List Char) : List Char × List Char :=
  let lines := linesOf ((cs.dropWhile (· ≠ '\n')).drop 1)
  let (body, rest) := documentLines stop strips lines
  let isCut := body.length = lines.length && cs.getLast? ≠ some '\n'
  let text := ofLines body
  (if isCut then text.dropLast else text, cs.takeWhile (· ≠ '\n') ++ '\n' :: ofLines rest)

/-! ## Redirections -/

/-- The file descriptor that is written in front of a redirection, if one is, and the
redirection. -/
def descriptor? : List Char → Option (Option Nat × List Char)
  | '<' :: cs => some (none, '<' :: cs)
  | '>' :: cs => some (none, '>' :: cs)
  | d :: '<' :: cs => if d.isDigit then some (some (d.toNat - '0'.toNat), '<' :: cs) else none
  | d :: '>' :: cs => if d.isDigit then some (some (d.toNat - '0'.toNat), '>' :: cs) else none
  | _ => none

/-- The kind of the redirection at the front of a text, with the descriptor that it is about if
none is given. -/
def redirectionKind? : List Char → Option (RedirectionKind × Nat × List Char)
  | '<' :: '<' :: cs => some (.text, 0, cs)
  | '<' :: '&' :: cs => some (.duplicate, 0, cs)
  | '<' :: '>' :: cs => some (.readWrite, 0, cs)
  | '<' :: cs => some (.read, 0, cs)
  | '>' :: '>' :: cs => some (.append, 1, cs)
  | '>' :: '&' :: cs => some (.duplicate, 1, cs)
  | '>' :: '|' :: cs => some (.overwrite, 1, cs)
  | '>' :: cs => some (.write, 1, cs)
  | _ => none

/-- The name that is assigned to at the front of a text, and what follows the sign. -/
def assignmentName? (cs : List Char) : Option (String × List Char) :=
  match cs.takeWhile isNamePart, cs.dropWhile isNamePart with
  | name, '=' :: rest => if isName name then some (String.ofList name, rest) else none
  | _, _ => none

/-- What has been read of a simple command, last things first. -/
structure Draft where
  assignments : List (String × Word) := []
  words : List Word := []
  redirections : List Redirection := []

/-- Whether nothing has been read. -/
def Draft.isEmpty (d : Draft) : Bool :=
  d.assignments.isEmpty && d.words.isEmpty && d.redirections.isEmpty

/-- The command with its redirections, if it has any. -/
def Command.redirect (c : Command) (rs : List Redirection) : Command :=
  if rs.isEmpty then c else .redirected c rs

/-- The command that has been read. -/
def Draft.command (d : Draft) : Command :=
  (Command.simple d.assignments.reverse d.words.reverse).redirect d.redirections.reverse

/-! ## Commands

The functions below call each other, and the number with which each starts bounds the depth of the
calls. -/

mutual

/-- The parts of a word up to the end of the place where it stands, which is taken away as well if
it is a mark of its own. -/
def parts? : Nat → Context → List Char → Option (Word × List Char)
  | 0, _, _ => none
  | fuel + 1, context, cs =>
    let behind (first : Word) (rest : List Char) : Option (Word × List Char) := do
      let (ps, rest) ← parts? fuel context rest
      pure (first ++ ps, rest)
    let literal (c : Char) (rest : List Char) : Option (Word × List Char) :=
      behind [.char c context.isQuoted] rest
    match cs with
    | [] => if context = .bare || context = .document then some ([], []) else none
    | '\\' :: '\n' :: rest => parts? fuel context rest
    | '\\' :: c :: rest =>
      if context.isEscapable c then behind [.char c true] rest
      else behind [.char '\\' true, .char c true] rest
    | '$' :: rest => do
      let (part, rest) ← dollar? fuel context.isQuoted rest
      behind [part] rest
    | '\x60' :: rest => do
      let (text, rest) ← backquoted? context.isQuoted rest
      match ← items? fuel false text with
      | (body, []) => behind [.output body context.isQuoted] rest
      | _ => none
    | '\x27' :: rest =>
      if context.isQuoted then literal '\x27' rest
      else do
        let (text, rest) ← Chars.breakOn? ['\x27'] rest
        behind (.quotes :: text.map fun c => Part.char c true) rest
    | '"' :: rest =>
      match context with
      | .quoted => some ([], rest)
      | .bare | .braces _ => do
        match ← parts? fuel .quoted rest with
        | ([.parameter "@" .plain _], rest) => behind [.parameter "@" .plain true] rest
        | (inner, rest) => behind (.quotes :: inner) rest
      | _ => literal '"' rest
    | c :: rest =>
      match context with
      | .bare => if isDelimiter c then some ([], c :: rest) else literal c rest
      | .braces _ => if c = '}' then some ([], rest) else literal c rest
      | .arithmetic depth =>
        if c = '(' then do
          let (ps, rest) ← parts? fuel (.arithmetic (depth + 1)) rest
          pure (.char c true :: ps, rest)
        else if c = ')' then
          match depth, rest with
          | depth + 1, _ => do
            let (ps, rest) ← parts? fuel (.arithmetic depth) rest
            pure (.char c true :: ps, rest)
          | 0, ')' :: rest => some ([], rest)
          | 0, _ => none
        else literal c rest
      | _ => literal c rest

/-- The part of a word whose `$` has been read. -/
def dollar? : Nat → Bool → List Char → Option (Part × List Char)
  | 0, _, _ => none
  | fuel + 1, isQuoted, cs =>
    let output (rest : List Char) : Option (Part × List Char) := do
      match ← items? fuel false rest with
      | (body, ')' :: rest) => pure (.output body isQuoted, rest)
      | _ => none
    match cs with
    | '(' :: '(' :: rest => do
      let (expression, rest) ← parts? fuel (.arithmetic 0) rest
      pure (.value expression isQuoted, rest)
    | '(' :: rest => output rest
    | '{' :: rest => braced? fuel isQuoted rest
    | _ =>
      match parameterName? false cs with
      | some (name, rest) => some (.parameter name .plain isQuoted, rest)
      | none => some (.char '$' isQuoted, cs)

/-- The parameter whose opening brace has been read. -/
def braced? : Nat → Bool → List Char → Option (Part × List Char)
  | 0, _, _ => none
  | fuel + 1, isQuoted, cs =>
    let sized := match cs with
      | '#' :: rest =>
        match parameterName? true rest with
        | some (name, '}' :: rest) => some (name, rest)
        | _ => none
      | _ => none
    match sized with
    | some (name, rest) => some (.parameter name .length isQuoted, rest)
    | none => do
      let (name, rest) := (parameterName? true cs).getD ("", cs)
      let replaced (countsEmpty : Bool) (mark : Char) (rest : List Char) := do
        let (word, rest) ← parts? fuel (.braces isQuoted) rest
        let use := match fallback? mark with
          | some kind => Use.fallback kind countsEmpty word
          | none => .invalid
        pure (Part.parameter name (if name.isEmpty then .invalid else use) isQuoted, rest)
      let cut (isFront isLongest : Bool) (rest : List Char) := do
        let (pattern, rest) ← parts? fuel (.braces false) rest
        pure (Part.parameter name (.without isFront isLongest pattern) isQuoted, rest)
      match rest with
      | '}' :: rest =>
        pure (.parameter name (if name.isEmpty then .invalid else .plain) isQuoted, rest)
      | ':' :: mark :: rest => replaced true mark rest
      | '#' :: '#' :: rest => cut true true rest
      | '#' :: rest => cut true false rest
      | '%' :: '%' :: rest => cut false true rest
      | '%' :: rest => cut false false rest
      | mark :: rest => replaced false mark rest
      | [] => none

/-- The word at the front of a text. -/
def word? : Nat → List Char → Option (Word × List Char)
  | 0, _ => none
  | fuel + 1, cs => if startsWord cs then parts? fuel .bare cs else none

/-- The words up to the end of a line or a command. -/
def words? : Nat → List Char → Option (List Word × List Char)
  | 0, _ => none
  | fuel + 1, cs =>
    if startsWord (skipBlanks cs) then do
      let (w, rest) ← word? fuel (skipBlanks cs)
      let (ws, rest) ← words? fuel rest
      pure (w :: ws, rest)
    else some ([], skipBlanks cs)

/-- The redirection at the front of a text, its descriptor already read. -/
def redirection? : Nat → Option Nat → List Char → Option (Redirection × List Char)
  | 0, _, _ => none
  | fuel + 1, given, cs => do
    let (kind, usual, rest) ← redirectionKind? cs
    let descriptor := given.getD usual
    if kind = .text then
      let (strips, rest) := match rest with
        | '-' :: rest => (true, rest)
        | _ => (false, rest)
      let (stop, rest) ← word? fuel (skipBlanks rest)
      let (text, rest) := takeDocument (plainText stop) strips rest
      if hasQuotes stop then
        pure (.mk descriptor .text (text.map fun c => Part.char c true), rest)
      else do
        let (body, _) ← parts? fuel .document text
        pure (.mk descriptor .text body, rest)
    else do
      let (file, rest) ← word? fuel (skipBlanks rest)
      pure (.mk descriptor kind file, rest)

/-- The redirections at the front of a text. -/
def redirections? : Nat → List Char → Option (List Redirection × List Char)
  | 0, _ => none
  | fuel + 1, cs =>
    match descriptor? (skipBlanks cs) with
    | none => some ([], cs)
    | some (given, rest) => do
      let (r, rest) ← redirection? fuel given rest
      let (rs, rest) ← redirections? fuel rest
      pure (r :: rs, rest)

/-- The simple command of which a part has been read, or the function if it turns out to be the
definition of one. -/
def simple? : Nat → Draft → List Char → Option (Command × List Char)
  | 0, _, _ => none
  | fuel + 1, d, cs =>
    let cs := skipBlanks cs
    match descriptor? cs with
    | some (given, rest) => do
      let (r, rest) ← redirection? fuel given rest
      simple? fuel { d with redirections := r :: d.redirections } rest
    | none =>
      if !startsWord cs then
        if d.isEmpty then none else some (d.command, cs)
      else
        match if d.words.isEmpty then assignmentName? cs else none with
        | some (name, rest) => do
          let (value, rest) ← parts? fuel .bare rest
          simple? fuel { d with assignments := (name, value) :: d.assignments } rest
        | none => do
          let (w, rest) ← word? fuel cs
          match d.isEmpty, skipBlanks rest with
          | true, '(' :: rest =>
            match skipBlanks rest with
            | ')' :: rest =>
              if isName (plainText w) && !hasQuotes w then do
                let (body, rest) ← command? fuel (skipLines rest)
                pure (.function (String.ofList (plainText w)) body, rest)
              else none
            | _ => none
          | _, _ => simple? fuel { d with words := w :: d.words } rest

/-- The command at the front of a text. -/
def command? : Nat → List Char → Option (Command × List Char)
  | 0, _ => none
  | fuel + 1, cs => do
    let compound : Option (Option (Command × List Char)) :=
      match keyword? cs, cs with
      | some ("if", rest), _ => some (conditional? fuel rest)
      | some ("while", rest), _ => some (loop? fuel false rest)
      | some ("until", rest), _ => some (loop? fuel true rest)
      | some ("for", rest), _ => some (forEach? fuel rest)
      | some ("case", rest), _ => some do
        let (w, rest) ← word? fuel (skipBlanks rest)
        let rest ← expect? "in" rest
        let (branches, rest) ← branches? fuel rest
        pure (.choice w branches, rest)
      | some (r"{", rest), _ => some do
        let (body, rest) ← block? fuel rest
        let rest ← expect? r"}" rest
        pure (body, rest)
      | none, '(' :: rest => some do
        match ← block? fuel rest with
        | (body, ')' :: rest) => pure (.subshell body, rest)
        | _ => none
      | none, _ => none
      | some _, _ => some none
    match compound with
    | none => simple? fuel {} cs
    | some read => do
      let (c, rest) ← read
      let (rs, rest) ← redirections? fuel rest
      pure (c.redirect rs, rest)

/-- The condition and its branches whose `if` has been read. -/
def conditional? : Nat → List Char → Option (Command × List Char)
  | 0, _ => none
  | fuel + 1, cs => do
    let (condition, rest) ← block? fuel cs
    let rest ← expect? "then" rest
    let (body, rest) ← block? fuel rest
    match keyword? rest with
    | some ("fi", rest) => pure (.conditional condition body (.sequence []), rest)
    | some ("else", rest) => do
      let (otherwise, rest) ← block? fuel rest
      let rest ← expect? "fi" rest
      pure (.conditional condition body otherwise, rest)
    | some ("elif", rest) => do
      let (otherwise, rest) ← conditional? fuel rest
      pure (.conditional condition body otherwise, rest)
    | _ => none

/-- The loop whose keyword has been read. -/
def loop? : Nat → Bool → List Char → Option (Command × List Char)
  | 0, _, _ => none
  | fuel + 1, isUntil, cs => do
    let (condition, rest) ← block? fuel cs
    let (body, rest) ← repeated? fuel rest
    pure (.loop isUntil condition body, rest)

/-- The commands between `do` and `done`. -/
def repeated? : Nat → List Char → Option (Command × List Char)
  | 0, _ => none
  | fuel + 1, cs => do
    let rest ← expect? "do" cs
    let (body, rest) ← block? fuel rest
    let rest ← expect? "done" rest
    pure (body, rest)

/-- The loop over words whose `for` has been read. -/
def forEach? : Nat → List Char → Option (Command × List Char)
  | 0, _ => none
  | fuel + 1, cs => do
    let (w, rest) ← word? fuel (skipBlanks cs)
    let name := plainText w
    if !isName name || hasQuotes w then none
    let (words, rest) ←
      match expect? "in" rest with
      | some rest => do
        let (ws, rest) ← words? fuel rest
        match rest with
        | ';' :: rest => pure (some ws, rest)
        | '\n' :: rest => pure (some ws, rest)
        | _ => none
      | none =>
        match skipBlanks rest with
        | ';' :: rest => pure (none, rest)
        | rest => pure (none, rest)
    let (body, rest) ← repeated? fuel rest
    pure (.forEach (String.ofList name) words body, rest)

/-- The branches of a choice up to its end. -/
def branches? : Nat → List Char → Option (List Branch × List Char)
  | 0, _ => none
  | fuel + 1, cs =>
    match expect? "esac" cs with
    | some rest => some ([], rest)
    | none => do
      let rest := match skipLines cs with
        | '(' :: rest => rest
        | rest => rest
      let (patterns, rest) ← patterns? fuel rest
      let (body, rest) ← items? fuel false rest
      let branch := Branch.mk patterns (.sequence body)
      match rest with
      | ';' :: ';' :: rest => do
        let (others, rest) ← branches? fuel rest
        pure (branch :: others, rest)
      | _ => do
        let rest ← expect? "esac" rest
        pure ([branch], rest)

/-- The patterns of a branch up to the parenthesis behind them. -/
def patterns? : Nat → List Char → Option (List Word × List Char)
  | 0, _ => none
  | fuel + 1, cs => do
    let (w, rest) ← word? fuel (skipBlanks cs)
    match skipBlanks rest with
    | ')' :: rest => pure ([w], rest)
    | '|' :: rest => do
      let (ws, rest) ← patterns? fuel rest
      pure (w :: ws, rest)
    | _ => none

/-- The pipeline at the front of a text. -/
def pipeline? : Nat → List Char → Option (Command × List Char)
  | 0, _ => none
  | fuel + 1, cs =>
    match keyword? cs with
    | some ("!", rest) => do
      let (c, rest) ← stages? fuel rest
      pure (.negation c, rest)
    | _ => stages? fuel cs

/-- The stages of a pipeline. -/
def stages? : Nat → List Char → Option (Command × List Char)
  | 0, _ => none
  | fuel + 1, cs => do
    let (c, rest) ← command? fuel (skipBlanks cs)
    match ← furtherStages? fuel rest with
    | ([], rest) => pure (c, rest)
    | (others, rest) => pure (.pipeline (c :: others), rest)

/-- The further stages of a pipeline. -/
def furtherStages? : Nat → List Char → Option (List Command × List Char)
  | 0, _ => none
  | fuel + 1, cs =>
    match skipBlanks cs with
    | '|' :: '|' :: rest => some ([], '|' :: '|' :: rest)
    | '|' :: rest => do
      let (c, rest) ← command? fuel (skipLines rest)
      let (others, rest) ← furtherStages? fuel rest
      pure (c :: others, rest)
    | rest => some ([], rest)

/-- A command with what is joined to it by `&&` and `||`. -/
def joined? : Nat → Command → List Char → Option (Command × List Char)
  | 0, _, _ => none
  | fuel + 1, first, cs =>
    match skipBlanks cs with
    | '&' :: '&' :: rest => do
      let (second, rest) ← pipeline? fuel (skipLines rest)
      joined? fuel (.both first second) rest
    | '|' :: '|' :: rest => do
      let (second, rest) ← pipeline? fuel (skipLines rest)
      joined? fuel (.either first second) rest
    | rest => some (first, rest)

/-- The commands of a list, or with `isLine` those of a single line, whose end is taken away. -/
def items? : Nat → Bool → List Char → Option (List Command × List Char)
  | 0, _, _ => none
  | fuel + 1, isLine, cs =>
    let cs := if isLine then skipBlanks cs else skipLines cs
    if endsList cs then
      if isLine && !cs.isEmpty then none else some ([], cs)
    else match isLine, cs with
      | true, '\n' :: rest => some ([], rest)
      | _, _ => do
        let (c, rest) ← pipeline? fuel cs
        let (c, rest) ← joined? fuel c rest
        match rest with
        | ';' :: ';' :: rest => if isLine then none else some ([c], ';' :: ';' :: rest)
        | ';' :: rest => do
          let (others, rest) ← items? fuel isLine rest
          pure (c :: others, rest)
        | '&' :: rest => do
          let (others, rest) ← items? fuel isLine rest
          pure (.background c :: others, rest)
        | '\n' :: rest =>
          if isLine then some ([c], rest)
          else do
            let (others, rest) ← items? fuel isLine rest
            pure (c :: others, rest)
        | rest => if isLine && !rest.isEmpty then none else some ([c], rest)

/-- The commands of a list that has at least one. -/
def block? : Nat → List Char → Option (Command × List Char)
  | 0, _ => none
  | fuel + 1, cs => do
    match ← items? fuel false cs with
    | ([], _) => none
    | ([c], rest) => pure (c, rest)
    | (commands, rest) => pure (.sequence commands, rest)

end

/-- The commands on the first line of a text that is not empty, with the lines that they extend
over, and what follows.  At the end of the text there are none. -/
def line? (cs : List Char) : Option (List Command × List Char) :=
  let cs := skipLines cs
  items? (20 * cs.length + 20) true cs

end Registrar.Script
