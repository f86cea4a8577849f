/-
# Searching a text

Where a separator stands first or last in a text, what stands on its two sides, and whether a
text holds another one.
-/

namespace Registrar

namespace Chars

/-- What stands before and after the first occurrence of `separator`. -/
def breakOn? (separator : List Char) : List Char → Option (List Char × List Char)
  | [] => if separator = [] then some ([], []) else none
  | c :: cs =>
    match separator.isPrefixOf? (c :: cs) with
    | some rest => some ([], rest)
    | none => (breakOn? separator cs).map fun (before, after) => (c :: before, after)

theorem eq_append_of_isPrefixOf? {l cs rest : List Char} (h : l.isPrefixOf? cs = some rest) :
    cs = l ++ rest := by
  induction l generalizing cs with
  | nil => exact Option.some.inj h
  | cons a l ih =>
    cases cs with
    | nil => exact absurd h (by change none ≠ some rest; simp)
    | cons c cs =>
      change (if a == c then l.isPrefixOf? cs else none) = some rest at h
      split at h
      · next hac =>
        rw [ih h, eq_of_beq hac]
        rfl
      · simp at h

/-- The two sides with the separator between them are the text. -/
theorem eq_append_of_breakOn? {separator cs before after : List Char}
    (h : breakOn? separator cs = some (before, after)) : cs = before ++ separator ++ after := by
  induction cs generalizing before with
  | nil =>
    simp only [breakOn?] at h
    split at h <;> simp_all
  | cons c cs ih =>
    simp only [breakOn?] at h
    split at h
    · next rest hrest =>
      simp only [Option.some.injEq, Prod.mk.injEq] at h
      obtain ⟨rfl, rfl⟩ := h
      simpa using eq_append_of_isPrefixOf? hrest
    · simp only [Option.map_eq_some_iff, Prod.mk.injEq] at h
      obtain ⟨⟨before', after'⟩, h1, rfl, rfl⟩ := h
      rw [ih h1]
      simp

theorem length_le_of_breakOn? {separator cs before after : List Char}
    (h : breakOn? separator cs = some (before, after)) : after.length ≤ cs.length := by
  rw [eq_append_of_breakOn? h]
  simp only [List.length_append]
  omega

/-- What stands before and after the last occurrence of `separator`. -/
def breakOnLast? (separator : List Char) : List Char → Option (List Char × List Char)
  | [] => if separator = [] then some ([], []) else none
  | c :: cs =>
    match breakOnLast? separator cs with
    | some (before, after) => some (c :: before, after)
    | none => (separator.isPrefixOf? (c :: cs)).map fun rest => ([], rest)

/-- Whether `part` stands somewhere in a text. -/
def contains (part cs : List Char) : Bool :=
  (breakOn? part cs).isSome

/-- The pieces between the occurrences of one character; there is always at least one piece. -/
def splitOn (mark : Char) : List Char → List (List Char)
  | [] => [[]]
  | c :: cs =>
    if c = mark then [] :: splitOn mark cs
    else match splitOn mark cs with
      | [] => [[c]]
      | piece :: pieces => (c :: piece) :: pieces

theorem splitOn_ne_nil (mark : Char) (cs : List Char) : splitOn mark cs ≠ [] := by
  cases cs with
  | nil => simp [splitOn]
  | cons c cs =>
    unfold splitOn
    split
    · simp
    · split <;> simp

/-- Splitting at a character loses nothing: the pieces joined by it give the text again. -/
theorem intercalate_splitOn (mark : Char) (cs : List Char) :
    [mark].intercalate (splitOn mark cs) = cs := by
  induction cs with
  | nil => rfl
  | cons c cs ih =>
    obtain ⟨piece, pieces, h⟩ := List.exists_cons_of_ne_nil (splitOn_ne_nil mark cs)
    by_cases hc : c = mark
    · cases pieces <;> simp_all [splitOn, List.intercalate, List.intersperse]
    · cases pieces <;> simp_all [splitOn, List.intercalate]

end Chars

namespace Text

/-- What stands before and after the first occurrence of `separator`. -/
def breakOn? (separator s : String) : Option (String × String) :=
  (Chars.breakOn? separator.toList s.toList).map fun (before, after) =>
    (String.ofList before, String.ofList after)

/-- What stands before and after the last occurrence of `separator`. -/
def breakOnLast? (separator s : String) : Option (String × String) :=
  (Chars.breakOnLast? separator.toList s.toList).map fun (before, after) =>
    (String.ofList before, String.ofList after)

/-- Whether `part` stands somewhere in `s`. -/
def contains (s part : String) : Bool :=
  Chars.contains part.toList s.toList

/-- What follows `start` in a text that begins with it. -/
def dropStart? (start s : String) : Option String :=
  (start.toList.isPrefixOf? s.toList).map String.ofList

/-- Whether `s` begins with `start`. -/
def startsWith (s start : String) : Bool :=
  start.toList.isPrefixOf s.toList

/-- Whether `s` ends in `tail`. -/
def endsWith (s tail : String) : Bool :=
  tail.toList.isSuffixOf s.toList

end Text

end Registrar
