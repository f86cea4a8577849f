/-
# Aliases in a Doxyfile

What the documentation tool makes of the lines that declare aliases: it reads a name, how many
arguments there are and a text in quotes, and puts the text with the arguments in it in the place of
the alias.  The aliases of the markers are declared by the last lines of the configuration, so no
other line comes in between, whatever stands in the paths and patterns above them.
-/
import Mathlib.Data.List.Basic
import Registrar.Documentation.Doxyfile
import Registrar.Proofs.Text.Lines
import Registrar.Proofs.Text.Search

namespace Registrar.Doxyfile

/-! ## Reading and using an alias -/

/-- What stands between a quote at the front and a quote at the end. -/
def unquote? : List Char → Option (List Char)
  | '"' :: rest => if rest.getLast? = some '"' then some rest.dropLast else none
  | _ => none

/-- The name of an alias and how many arguments it takes, written behind the name in braces if there
are any. -/
def head? (cs : List Char) : Option (String × Nat) :=
  match Chars.breakOn? ['{'] cs with
  | none => some (String.ofList cs, 0)
  | some (name, count) =>
    if count.getLast? = some '}' ∧ count.dropLast.all Char.isDigit = true then
      some (String.ofList name, Nat.ofDigitChars 10 count.dropLast 0)
    else none

/-- The alias that a line declares. -/
def Alias.ofLine? (line : String) : Option Alias := do
  let declaration ← "ALIASES += ".toList.isPrefixOf? line.toList
  let (head, value) ← Chars.breakOn? ['='] declaration
  let text ← unquote? value
  let (name, arity) ← head? head
  some { name := name, arity := arity, text := String.ofList text }

/-- The aliases that a configuration declares, in the order of its lines. -/
def declared (contents : String) : List Alias :=
  (Text.lines contents).filterMap Alias.ofLine?

/-- The alias of a name for a number of arguments; a later declaration takes the place of an earlier
one. -/
def alias? (contents name : String) (arity : Nat) : Option Alias :=
  (declared contents).reverse.find? fun a => a.name = name ∧ a.arity = arity

/-- The argument that a digit stands for. -/
def argument? (args : List (List Char)) (digit : Char) : Option (List Char) :=
  if digit.isDigit ∧ digit ≠ '0' then args[digit.toNat - '1'.toNat]? else none

/-- A text with the arguments in the place of `\1`, `\2` and so on, which are not looked into. -/
def fillIn (args : List (List Char)) : List Char → List Char
  | [] => []
  | '\\' :: digit :: cs =>
    match argument? args digit with
    | some argument => argument ++ fillIn args cs
    | none => '\\' :: fillIn args (digit :: cs)
  | c :: cs => c :: fillIn args cs

/-- The text that an alias stands for. -/
def Alias.expand (a : Alias) (args : List String) : String :=
  String.ofList (fillIn (args.map String.toList) a.text.toList)

/-- The text that an alias with some arguments becomes. -/
def expansion? (contents name : String) (args : List String) : Option String :=
  (alias? contents name args.length).map fun a => a.expand args

/-! ## Lines that declare an alias -/

/-- A text is not cut at a character that it does not have. -/
theorem breakOn?_of_notMem {mark : Char} {cs : List Char} (h : mark ∉ cs) :
    Chars.breakOn? [mark] cs = none := by
  rw [← Option.not_isSome_iff_eq_none]
  intro hsome
  have hpart := (Chars.contains_iff_isInfix [mark] cs).1 hsome
  exact h (hpart.subset List.mem_cons_self)

/-- A text in quotation marks is read without them. -/
theorem unquote?_quoted (text : List Char) : unquote? ('"' :: (text ++ ['"'])) = some text := by
  rw [unquote?, if_pos List.getLast?_concat, List.dropLast_concat]

/-- A number is written with its digits. -/
theorem toList_toString (n : Nat) : (toString n).toList = Nat.toDigits 10 n := by
  show n.repr.toList = _
  rw [Nat.repr_eq_ofList_toDigits, String.toList_ofList]

/-- The digits of a number are digits. -/
theorem isDigit_of_mem_toDigits {n : Nat} {c : Char} (h : c ∈ Nat.toDigits 10 n) :
    c.isDigit = true :=
  Nat.isDigit_of_mem_toDigits (by decide) (by decide) h

/-- How many arguments an alias takes, as it is written behind the name. -/
def count (arity : Nat) : String :=
  if arity = 0 then "" else r"{" ++ toString arity ++ r"}"

theorem Alias.line_eq (a : Alias) :
    a.line = "ALIASES += " ++ a.name ++ count a.arity ++ "=\"" ++ a.text ++ "\"" := rfl

/-- The name of an alias and the number of its arguments are read as they are written. -/
theorem head?_count {name : String} (hname : '{' ∉ name.toList) (arity : Nat) :
    head? (name.toList ++ (count arity).toList) = some (name, arity) := by
  unfold count
  by_cases harity : arity = 0
  · rw [if_pos harity, harity]
    simp [head?, breakOn?_of_notMem hname]
  · have hcount : (r"{" ++ toString arity ++ r"}").toList =
        '{' :: (Nat.toDigits 10 arity ++ ['}']) := by
      rw [String.toList_append, String.toList_append, toList_toString]
      rfl
    have hdigits : (Nat.toDigits 10 arity).all Char.isDigit = true :=
      List.all_eq_true.2 fun c hc => isDigit_of_mem_toDigits hc
    rw [if_neg harity, hcount, head?, Chars.breakOn?_append_cons hname]
    simp [hdigits]

/-- In the number of arguments there are digits and braces only. -/
theorem notMem_count {c : Char} (hdigit : c.isDigit = false) (hleft : c ≠ '{')
    (hright : c ≠ '}') (arity : Nat) : c ∉ (count arity).toList := by
  unfold count
  split
  · exact List.not_mem_nil
  · intro hmem
    rw [String.toList_append, String.toList_append, toList_toString] at hmem
    have hnumber : c ∈ Nat.toDigits 10 arity := by simpa [hleft, hright] using hmem
    rw [isDigit_of_mem_toDigits hnumber] at hdigit
    exact absurd hdigit (by simp)

/-- An alias whose line is read as this alias. -/
structure Alias.IsReadable (a : Alias) : Prop where
  equals : '=' ∉ a.name.toList
  brace : '{' ∉ a.name.toList
  name : '\n' ∉ a.name.toList
  text : '\n' ∉ a.text.toList

/-- The line of an alias is read as the alias. -/
theorem Alias.IsReadable.ofLine?_line {a : Alias} (ha : a.IsReadable) :
    Alias.ofLine? a.line = some a := by
  have hline : a.line.toList = "ALIASES += ".toList ++
      ((a.name.toList ++ (count a.arity).toList) ++ '=' :: ('"' :: (a.text.toList ++ ['"']))) := by
    rw [Alias.line_eq]
    simp
  have hhead : '=' ∉ a.name.toList ++ (count a.arity).toList := by
    rw [List.mem_append, not_or]
    exact ⟨ha.equals, notMem_count (by decide) (by decide) (by decide) a.arity⟩
  unfold Alias.ofLine?
  rw [hline, Chars.isPrefixOf?_append]
  simp only [Option.bind_eq_bind, Option.bind_some, Chars.breakOn?_append_cons hhead,
    unquote?_quoted, head?_count ha.brace, String.ofList_toList]

/-- The line of an alias is a single line and ends in a quote. -/
theorem Alias.IsReadable.isLine {a : Alias} (ha : a.IsReadable) :
    '\n' ∉ a.line.toList ∧ Chars.dropReturn a.line.toList = a.line.toList := by
  have hcount := notMem_count (c := '\n') (by decide) (by decide) (by decide) a.arity
  have hquote : a.line.toList =
      ("ALIASES += " ++ a.name ++ count a.arity ++ "=\"" ++ a.text).toList ++ ['"'] := by
    rw [Alias.line_eq, String.toList_append]
    rfl
  constructor
  · rw [Alias.line_eq]
    simp [ha.name, ha.text, hcount]
  · rw [hquote, Chars.dropReturn, List.getLast?_concat]
    exact if_neg (by simp)

/-! ## The aliases of a configuration -/

/-- Lines with line feeds behind them, character by character. -/
theorem toList_join_lineFeed (texts : List String) :
    (String.join (texts.map fun text => text ++ "\n")).toList =
      (texts.map String.toList).flatMap (· ++ ['\n']) := by
  rw [String.toList_join, List.flatMap_map, List.flatMap_map]
  simp only [String.toList_append]
  rfl

/-- The aliases of the markers are declared last. -/
theorem exists_declared_eq (input output : Path) {s : Settings}
    (h : ∀ a ∈ aliases s.tags, a.IsReadable) :
    ∃ others, declared (contents input output s) = others ++ aliases s.tags := by
  have hlines : ∀ l ∈ ((aliases s.tags).map Alias.line).map String.toList,
      '\n' ∉ l ∧ Chars.dropReturn l = l := by
    intro l hl
    rw [List.map_map] at hl
    obtain ⟨a, ha, rfl⟩ := List.mem_map.1 hl
    exact (h a ha).isLine
  have hread : ((aliases s.tags).map Alias.line).filterMap Alias.ofLine? = aliases s.tags := by
    rw [List.filterMap_map]
    refine (List.filterMap_congr fun a ha => ?_).trans List.filterMap_some
    exact (h a ha).ofLine?_line
  have htexts : ((((aliases s.tags).map Alias.line).map String.toList).map String.ofList) =
      (aliases s.tags).map Alias.line := by
    rw [List.map_map]
    exact (List.map_congr_left fun l _ => String.ofList_toList).trans (List.map_id _)
  unfold declared contents lines Text.lines
  rw [toList_join_lineFeed, List.map_append, List.flatMap_append,
    Chars.lines_flatMap_lineFeed_append, Chars.lines_flatMap_lineFeed hlines, List.map_append,
    htexts, List.filterMap_append, hread]
  exact ⟨_, rfl⟩

/-- An alias that is declared for the markers is used if no other one of them has its name and takes
as many arguments. -/
theorem expansion?_contents (input output : Path) {s : Settings}
    (h : ∀ a ∈ aliases s.tags, a.IsReadable) {a : Alias} (ha : a ∈ aliases s.tags)
    (hunique : ∀ b ∈ aliases s.tags, b.name = a.name → b.arity = a.arity → b = a)
    {args : List String} (hargs : a.arity = args.length) :
    expansion? (contents input output s) a.name args = some (a.expand args) := by
  obtain ⟨others, hdeclared⟩ := exists_declared_eq input output h
  have hfind : (aliases s.tags).reverse.find? (fun b => b.name = a.name ∧ b.arity = args.length) =
      some a := by
    have hsome : ((aliases s.tags).reverse.find?
        fun b => b.name = a.name ∧ b.arity = args.length).isSome = true :=
      List.find?_isSome.2 ⟨a, List.mem_reverse.2 ha, by simp [hargs]⟩
    obtain ⟨b, hb⟩ := Option.isSome_iff_exists.1 hsome
    have hmatches := List.find?_some hb
    obtain ⟨hname, harity⟩ := of_decide_eq_true hmatches
    rw [hb, hunique b (List.mem_reverse.1 (List.mem_of_find?_eq_some hb)) hname
      (harity.trans hargs.symm)]
  rw [expansion?, alias?, hdeclared, List.reverse_append, List.find?_append, hfind]
  rfl

end Registrar.Doxyfile
