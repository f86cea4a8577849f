/-
# JSON tokens

The text of a JSON document as brackets, separators and scalars, with the blanks between them
left out.
-/
import Registrar.Json.Basic

namespace Registrar.Json

/-- What a JSON text is made of. -/
inductive Token where
  | openArray
  | closeArray
  | openObject
  | closeObject
  | comma
  | colon
  /-- A string. -/
  | string (content : Option String)
  /-- A scalar other than a string. -/
  | scalar (value : Json)

/-- The blanks that may stand between two tokens. -/
def isSpace (c : Char) : Bool :=
  c = ' ' || c = '\t' || c = '\n' || c = '\r'

/-! ## Strings -/

/-- A part of a string: a character, or the sixteen bit unit that an escape gives by number. -/
inductive Unit16 where
  | char (c : Char)
  | unit (n : Nat)

/-- The value of a hexadecimal digit. -/
def hexDigit? (c : Char) : Option Nat :=
  if '0' ≤ c ∧ c ≤ '9' then some (c.toNat - '0'.toNat)
  else if 'a' ≤ c ∧ c ≤ 'f' then some (c.toNat - 'a'.toNat + 10)
  else if 'A' ≤ c ∧ c ≤ 'F' then some (c.toNat - 'A'.toNat + 10)
  else none

/-- The value of four hexadecimal digits. -/
def hexUnit? (a b c d : Char) : Option Nat := do
  let a ← hexDigit? a
  let b ← hexDigit? b
  let c ← hexDigit? c
  let d ← hexDigit? d
  pure (((a * 16 + b) * 16 + c) * 16 + d)

/-- The character that a one letter escape stands for. -/
def escaped? (c : Char) : Option Char :=
  match c with
  | '"' => some '"'
  | '\\' => some '\\'
  | '/' => some '/'
  | 'b' => some '\x08'
  | 'f' => some '\x0c'
  | 'n' => some '\n'
  | 'r' => some '\r'
  | 't' => some '\t'
  | _ => none

/-- The parts of a string whose opening quote has been read, and what follows its closing quote.
Control characters must be escaped. -/
def stringParts? : List Char → Option (List Unit16 × List Char)
  | [] => none
  | '"' :: rest => some ([], rest)
  | '\\' :: 'u' :: a :: b :: c :: d :: rest => do
    let n ← hexUnit? a b c d
    let (parts, rest) ← stringParts? rest
    pure (.unit n :: parts, rest)
  | '\\' :: c :: rest => do
    let c ← escaped? c
    let (parts, rest) ← stringParts? rest
    pure (.char c :: parts, rest)
  | c :: rest =>
    if c.toNat < 0x20 then none
    else do
      let (parts, rest) ← stringParts? rest
      pure (.char c :: parts, rest)

/-- One more part in front of those of a string does not change what follows it. -/
theorem exists_of_stringParts?_bind {cs rest : List Char} {part : Unit16} {parts : List Unit16}
    (h : (do let (parts, rest) ← stringParts? cs; pure (part :: parts, rest)) = some (parts, rest)) :
    ∃ parts', stringParts? cs = some (parts', rest) := by
  obtain ⟨⟨parts', rest'⟩, hparts, h⟩ := Option.bind_eq_some_iff.1 h
  obtain ⟨-, rfl⟩ := Prod.mk.inj (Option.some.inj h)
  exact ⟨parts', hparts⟩

theorem length_lt_of_stringParts? {cs : List Char} {parts : List Unit16} {rest : List Char}
    (h : stringParts? cs = some (parts, rest)) : rest.length < cs.length := by
  fun_induction stringParts? cs generalizing parts rest with
  | case1 => simp at h
  | case2 => simp_all
  | case3 a b c d cs ih =>
    obtain ⟨n, -, h⟩ := Option.bind_eq_some_iff.1 h
    obtain ⟨parts', hparts⟩ := exists_of_stringParts?_bind h
    have hlength := ih hparts
    simp only [List.length_cons]
    omega
  | case4 c cs _ ih =>
    obtain ⟨n, -, h⟩ := Option.bind_eq_some_iff.1 h
    obtain ⟨parts', hparts⟩ := exists_of_stringParts?_bind h
    have hlength := ih hparts
    simp only [List.length_cons]
    omega
  | case5 => simp at h
  | case6 c cs _ _ _ _ ih =>
    obtain ⟨parts', hparts⟩ := exists_of_stringParts?_bind h
    have hlength := ih hparts
    simp only [List.length_cons]
    omega

/-- Whether a unit is the first half of a surrogate pair. -/
def isHighSurrogate (n : Nat) : Bool :=
  0xD800 ≤ n && n < 0xDC00

/-- Whether a unit is the second half of a surrogate pair. -/
def isLowSurrogate (n : Nat) : Bool :=
  0xDC00 ≤ n && n < 0xE000

/-- The text that the parts of a string spell; two units make one character when they are the
halves of a surrogate pair, and a half without its other half spells nothing. -/
def spelled? : List Unit16 → Option (List Char)
  | [] => some []
  | .char c :: parts => (spelled? parts).map (c :: ·)
  | .unit high :: .unit low :: parts =>
    if isHighSurrogate high && isLowSurrogate low then
      let n := 0x10000 + (high - 0xD800) * 0x400 + (low - 0xDC00)
      (spelled? parts).map (Char.ofNat n :: ·)
    else if isHighSurrogate high || isLowSurrogate high then none
    else (spelled? (.unit low :: parts)).map (Char.ofNat high :: ·)
  | .unit n :: parts =>
    if isHighSurrogate n || isLowSurrogate n then none
    else (spelled? parts).map (Char.ofNat n :: ·)

/-! ## Numbers -/

/-- The digits at the front of a text, of which there must be one. -/
def digits? (cs : List Char) : Option (List Char × List Char) :=
  match cs.takeWhile Char.isDigit with
  | [] => none
  | ds => some (ds, cs.dropWhile Char.isDigit)

/-- The integer part of a numeral: a zero alone, or digits that do not start with a zero. -/
def integerPart? : List Char → Option (List Char × List Char)
  | '0' :: rest => some (['0'], rest)
  | cs => digits? cs

/-- The fraction of a numeral, if it has one. -/
def fractionPart? : List Char → Option (List Char × List Char)
  | '.' :: rest => (digits? rest).map fun (ds, rest) => ('.' :: ds, rest)
  | cs => some ([], cs)

/-- The exponent of a numeral, if it has one. -/
def exponentPart? : List Char → Option (List Char × List Char)
  | e :: sign :: rest =>
    if e = 'e' || e = 'E' then
      if sign = '+' || sign = '-' then
        (digits? rest).map fun (ds, rest) => (e :: sign :: ds, rest)
      else (digits? (sign :: rest)).map fun (ds, rest) => (e :: ds, rest)
    else some ([], e :: sign :: rest)
  | [e] => if e = 'e' || e = 'E' then none else some ([], [e])
  | [] => some ([], [])

/-- A numeral and what follows it. -/
def numeral? (cs : List Char) : Option (List Char × List Char) := do
  let (sign, rest) := match cs with
    | '-' :: rest => (['-'], rest)
    | rest => ([], rest)
  let (whole, rest) ← integerPart? rest
  let (fraction, rest) ← fractionPart? rest
  let (exponent, rest) ← exponentPart? rest
  pure (sign ++ whole ++ fraction ++ exponent, rest)

theorem length_lt_of_digits? {cs ds rest : List Char} (h : digits? cs = some (ds, rest)) :
    rest.length < cs.length := by
  unfold digits? at h
  split at h
  · simp at h
  · next hne =>
    simp only [Option.some.injEq, Prod.mk.injEq] at h
    obtain ⟨-, rfl⟩ := h
    have h1 : cs.length
        = (cs.takeWhile Char.isDigit).length + (cs.dropWhile Char.isDigit).length := by
      rw [← List.length_append, List.takeWhile_append_dropWhile]
    have h2 := List.length_pos_iff.2 hne
    omega

theorem length_lt_of_digits?_map {cs ds rest : List Char} {f : List Char → List Char}
    (h : (digits? cs).map (fun (ds, rest) => (f ds, rest)) = some (ds, rest)) :
    rest.length < cs.length := by
  obtain ⟨⟨ds', rest'⟩, hdigits, h⟩ := Option.map_eq_some_iff.1 h
  obtain ⟨-, rfl⟩ := Prod.mk.inj h
  exact length_lt_of_digits? hdigits

theorem length_lt_of_integerPart? {cs ds rest : List Char}
    (h : integerPart? cs = some (ds, rest)) : rest.length < cs.length := by
  unfold integerPart? at h
  split at h
  · simp_all
  · exact length_lt_of_digits? h

theorem length_le_of_fractionPart? {cs ds rest : List Char}
    (h : fractionPart? cs = some (ds, rest)) : rest.length ≤ cs.length := by
  unfold fractionPart? at h
  split at h
  · have hlength := length_lt_of_digits?_map h
    simp only [List.length_cons]
    omega
  · simp_all

theorem length_le_of_exponentPart? {cs ds rest : List Char}
    (h : exponentPart? cs = some (ds, rest)) : rest.length ≤ cs.length := by
  unfold exponentPart? at h
  split at h
  · next e sign cs' =>
    split at h
    · split at h
      · have hlength := length_lt_of_digits?_map (f := fun ds => e :: sign :: ds) h
        simp only [List.length_cons]
        omega
      · have hlength := length_lt_of_digits?_map h
        simp only [List.length_cons] at hlength ⊢
        omega
    · simp_all
  · split at h <;> simp_all
  · simp_all

theorem length_lt_of_numeral? {cs ds rest : List Char} (h : numeral? cs = some (ds, rest)) :
    rest.length < cs.length := by
  unfold numeral? at h
  have key : ∀ (sign body : List Char), body.length ≤ cs.length →
      (do let (whole, rest) ← integerPart? body
          let (fraction, rest) ← fractionPart? rest
          let (exponent, rest) ← exponentPart? rest
          pure (sign ++ whole ++ fraction ++ exponent, rest)) = some (ds, rest) →
      rest.length < cs.length := by
    intro sign body hbody hrun
    simp only [Option.bind_eq_bind, Option.bind_eq_some_iff, Option.pure_def, Option.some.injEq,
      Prod.mk.injEq] at hrun
    obtain ⟨⟨d1, r1⟩, h1, ⟨d2, r2⟩, h2, ⟨d3, r3⟩, h3, -, rfl⟩ := hrun
    have h4 := length_lt_of_integerPart? h1
    have h5 := length_le_of_fractionPart? h2
    have h6 := length_le_of_exponentPart? h3
    simp only at h5 h6 ⊢
    omega
  split at h
  · next body heq =>
    refine key _ body ?_ h
    split at heq <;> simp_all

/-! ## Tokens -/

/-- The token at the front of a text without blanks at its front, and what follows it. -/
def token? : List Char → Option (Token × List Char)
  | '[' :: rest => some (.openArray, rest)
  | ']' :: rest => some (.closeArray, rest)
  | '{' :: rest => some (.openObject, rest)
  | '}' :: rest => some (.closeObject, rest)
  | ',' :: rest => some (.comma, rest)
  | ':' :: rest => some (.colon, rest)
  | '"' :: rest =>
    (stringParts? rest).map fun (parts, rest) =>
      (.string ((spelled? parts).map String.ofList), rest)
  | 'n' :: 'u' :: 'l' :: 'l' :: rest => some (.scalar .null, rest)
  | 't' :: 'r' :: 'u' :: 'e' :: rest => some (.scalar (.boolean true), rest)
  | 'f' :: 'a' :: 'l' :: 's' :: 'e' :: rest => some (.scalar (.boolean false), rest)
  | cs =>
    (numeral? cs).map fun (numeral, rest) => (.scalar (.number (String.ofList numeral)), rest)

theorem length_lt_of_token? {cs rest : List Char} {t : Token} (h : token? cs = some (t, rest)) :
    rest.length < cs.length := by
  unfold token? at h
  split at h
  case h_7 =>
    simp only [Option.map_eq_some_iff, Prod.mk.injEq] at h
    obtain ⟨⟨parts, rest'⟩, h1, -, rfl⟩ := h
    have := length_lt_of_stringParts? h1
    simp only [List.length_cons]
    omega
  case h_11 =>
    simp only [Option.map_eq_some_iff, Prod.mk.injEq] at h
    obtain ⟨⟨numeral, rest'⟩, h1, -, rfl⟩ := h
    exact length_lt_of_numeral? h1
  all_goals
    simp only [Option.some.injEq, Prod.mk.injEq] at h
    obtain ⟨-, rfl⟩ := h
    simp only [List.length_cons]
    omega

theorem length_dropWhile_le (p : Char → Bool) (cs : List Char) :
    (cs.dropWhile p).length ≤ cs.length :=
  (List.dropWhile_sublist p).length_le

/-- The tokens of a text, or nothing if some part of it is no token. -/
def tokens? (cs : List Char) : Option (List Token) :=
  match hcs : cs.dropWhile isSpace with
  | [] => some []
  | c :: body =>
    match h : token? (c :: body) with
    | none => none
    | some (t, rest) =>
      have : rest.length < cs.length := by
        have h1 := length_lt_of_token? h
        have h2 := length_dropWhile_le isSpace cs
        rw [hcs] at h2
        omega
      (tokens? rest).map (t :: ·)
termination_by cs.length

end Registrar.Json
