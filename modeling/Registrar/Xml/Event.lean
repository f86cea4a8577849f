/-
# Events

The written text of a document as tags and what stands between them.  A start tag is several
events: its name, its attributes one by one, and its end.
-/
import Registrar.Text.Search
import Registrar.Xml.Character

namespace Registrar.Xml

/-- A name as it is written, with what stands in front of its colon. -/
structure WrittenName where
  qualifier : List Char := []
  localName : List Char
  deriving DecidableEq, Repr

/-- A part of the text of a document. -/
inductive Event where
  /-- The name of a start tag. -/
  | start (name : WrittenName)
  /-- An attribute of the tag that has been started, its value as it is written. -/
  | attribute (name : WrittenName) (value : List Char)
  /-- The end of a start tag, which may be the end of the element as well. -/
  | startDone (isEmpty : Bool)
  /-- An end tag. -/
  | close (name : WrittenName)
  /-- Text as it is written. -/
  | text (written : List Char)
  /-- A section of literal text. -/
  | literal (written : List Char)
  | comment (content : List Char)
  | instruction (target content : List Char)

/-! ## Names and attributes -/

/-- Whether a text is a name without a colon. -/
def isName : List Char → Bool
  | [] => false
  | c :: cs => isNameStart c && cs.all isNamePart

/-- A character of a name that may have colons in it. -/
def isColonNamePart (c : Char) : Bool :=
  isNamePart c || c = ':'

/-- The name at the front of a text, with at most one colon in it, and what follows it. -/
def writtenName? (cs : List Char) : Option (WrittenName × List Char) :=
  let rest := cs.dropWhile isColonNamePart
  match Chars.splitOn ':' (cs.takeWhile isColonNamePart) with
  | [name] => if isName name then some (⟨[], name⟩, rest) else none
  | [qualifier, name] =>
    if (qualifier.isEmpty || isName qualifier) && isName name then
      some (⟨qualifier, name⟩, rest)
    else none
  | _ => none

/-- The rest of a text without the blanks at its front. -/
def skipSpaces (cs : List Char) : List Char :=
  cs.dropWhile isSpace

/-- The quoted value at the front of a text and what follows it.  There is no `<` in a value. -/
def quoted? : List Char → Option (List Char × List Char)
  | quote :: rest =>
    if quote = '"' || quote = '\x27' then
      let value := rest.takeWhile fun c => c ≠ quote && c ≠ '<'
      match rest.dropWhile fun c => c ≠ quote && c ≠ '<' with
      | c :: rest => if c = quote && value.all isAllowed then some (value, rest) else none
      | [] => none
    else none
  | [] => none

/-- The attribute at the front of a text and what follows it. -/
def writtenAttribute? (cs : List Char) : Option (WrittenName × List Char × List Char) := do
  let (name, rest) ← writtenName? cs
  match skipSpaces rest with
  | '=' :: rest =>
    let (value, rest) ← quoted? (skipSpaces rest)
    pure (name, value, rest)
  | _ => none

/-! ## The parts of a document -/

/-- The comment whose opening has been read: no two dashes in a row, and no dash at its end. -/
def comment? (cs : List Char) : Option (Event × List Char) := do
  let (content, rest) ← Chars.breakOn? ['-', '-', '>'] cs
  if content.all isAllowed && !Chars.contains ['-', '-'] content
      && content.getLast? ≠ some '-' then
    pure (.comment content, rest)
  else none

/-- The section of literal text whose opening has been read. -/
def literal? (cs : List Char) : Option (Event × List Char) := do
  let (content, rest) ← Chars.breakOn? [']', ']', '>'] cs
  if content.all isAllowed then pure (.literal content, rest) else none

/-- The processing instruction whose opening has been read.  A declaration of the version may
only stand at the very front of a document. -/
def instruction? (cs : List Char) : Option (Event × List Char) :=
  if ['x', 'm', 'l', ' '].isPrefixOf cs then none
  else match cs.takeWhile isColonNamePart with
    | [] => none
    | c :: name =>
      if isNameStart c || c = ':' then do
        let (content, rest) ← Chars.breakOn? ['?', '>'] (skipSpaces (cs.dropWhile isColonNamePart))
        if content.all isAllowed then pure (.instruction (c :: name) content, rest) else none
      else none

/-- The end tag whose opening has been read. -/
def close? (cs : List Char) : Option (Event × List Char) := do
  let (name, rest) ← writtenName? cs
  match skipSpaces rest with
  | '>' :: rest => pure (.close name, rest)
  | _ => none

/-- The text at the front of a document part, up to the next tag. -/
def text? (cs : List Char) : Option (Event × List Char) :=
  let content := cs.takeWhile (· ≠ '<')
  if content.all isAllowed && !Chars.contains [']', ']', '>'] content then
    some (.text content, cs.dropWhile (· ≠ '<'))
  else none

/-- The event at the front of a text outside of tags. -/
def contentEvent? : List Char → Option (Event × List Char)
  | '<' :: '!' :: '-' :: '-' :: rest => comment? rest
  | '<' :: '!' :: '[' :: 'C' :: 'D' :: 'A' :: 'T' :: 'A' :: '[' :: rest => literal? rest
  | '<' :: '?' :: rest => instruction? rest
  | '<' :: '/' :: rest => close? rest
  | '<' :: rest => (writtenName? rest).map fun (name, rest) => (.start name, rest)
  | cs => text? cs

/-- The event at the front of the inside of a start tag.  A blank stands before an attribute. -/
def tagEvent? (cs : List Char) : Option (Event × List Char) :=
  match skipSpaces cs with
  | '>' :: rest => some (.startDone false, rest)
  | '/' :: '>' :: rest => some (.startDone true, rest)
  | '/' :: _ => none
  | body =>
    if cs.head?.any isSpace then
      (writtenAttribute? body).map fun (name, value, rest) => (.attribute name value, rest)
    else none

/-! ## An event is not empty -/

theorem length_skipSpaces_le (cs : List Char) : (skipSpaces cs).length ≤ cs.length :=
  (List.dropWhile_sublist isSpace).length_le

theorem length_dropWhile_of_takeWhile {p : Char → Bool} {cs : List Char}
    (h : cs.takeWhile p ≠ []) : (cs.dropWhile p).length < cs.length := by
  have h1 : cs.length = (cs.takeWhile p).length + (cs.dropWhile p).length := by
    rw [← List.length_append, List.takeWhile_append_dropWhile]
  have h2 := List.length_pos_iff.2 h
  omega

theorem length_lt_of_writtenName? {cs rest : List Char} {name : WrittenName}
    (h : writtenName? cs = some (name, rest)) : rest.length < cs.length := by
  have hne : cs.takeWhile isColonNamePart ≠ [] := by
    intro hnil
    simp [writtenName?, hnil, Chars.splitOn, isName] at h
  have hrest : rest = cs.dropWhile isColonNamePart := by
    unfold writtenName? at h
    simp only at h
    split at h
    · split at h <;> simp_all
    · split at h <;> simp_all
    · simp at h
  rw [hrest]
  exact length_dropWhile_of_takeWhile hne

theorem length_le_of_quoted? {cs value rest : List Char} (h : quoted? cs = some (value, rest)) :
    rest.length ≤ cs.length := by
  unfold quoted? at h
  split at h
  · next quote body =>
    split at h
    · simp only at h
      split at h
      · next c tail htail =>
        split at h
        · simp only [Option.some.injEq, Prod.mk.injEq] at h
          obtain ⟨-, rfl⟩ := h
          have h1 := (List.dropWhile_sublist (fun c => c ≠ quote && c ≠ '<') (l := body)).length_le
          rw [htail] at h1
          simp only [List.length_cons] at h1 ⊢
          omega
        · simp at h
      · simp at h
    · simp at h
  · simp at h

theorem length_lt_of_writtenAttribute? {cs value rest : List Char} {name : WrittenName}
    (h : writtenAttribute? cs = some (name, value, rest)) : rest.length < cs.length := by
  unfold writtenAttribute? at h
  simp only [Option.bind_eq_bind, Option.bind_eq_some_iff] at h
  obtain ⟨⟨name', rest'⟩, h1, h2⟩ := h
  have h3 := length_lt_of_writtenName? h1
  simp only at h2
  split at h2
  · next body hbody =>
    simp only [Option.bind_eq_some_iff, Option.pure_def, Option.some.injEq, Prod.mk.injEq] at h2
    obtain ⟨⟨value', rest''⟩, h4, -, -, rfl⟩ := h2
    have h5 := length_le_of_quoted? h4
    have h6 := length_skipSpaces_le body
    have h7 := length_skipSpaces_le rest'
    rw [hbody] at h7
    simp only [List.length_cons] at h7
    simp only at h5 ⊢
    omega
  · simp at h2

theorem length_le_of_comment? {cs rest : List Char} {e : Event}
    (h : comment? cs = some (e, rest)) : rest.length ≤ cs.length := by
  unfold comment? at h
  simp only [Option.bind_eq_bind, Option.bind_eq_some_iff] at h
  obtain ⟨⟨content, rest'⟩, h1, h2⟩ := h
  split at h2
  · simp only [Option.pure_def, Option.some.injEq, Prod.mk.injEq] at h2
    rw [← h2.2]
    exact Chars.length_le_of_breakOn? h1
  · simp at h2

theorem length_le_of_literal? {cs rest : List Char} {e : Event}
    (h : literal? cs = some (e, rest)) : rest.length ≤ cs.length := by
  unfold literal? at h
  simp only [Option.bind_eq_bind, Option.bind_eq_some_iff] at h
  obtain ⟨⟨content, rest'⟩, h1, h2⟩ := h
  split at h2
  · simp only [Option.pure_def, Option.some.injEq, Prod.mk.injEq] at h2
    rw [← h2.2]
    exact Chars.length_le_of_breakOn? h1
  · simp at h2

theorem length_le_of_instruction? {cs rest : List Char} {e : Event}
    (h : instruction? cs = some (e, rest)) : rest.length ≤ cs.length := by
  unfold instruction? at h
  split at h
  · simp at h
  · split at h
    · simp at h
    · split at h
      · simp only [Option.bind_eq_bind, Option.bind_eq_some_iff] at h
        obtain ⟨⟨content, rest'⟩, h1, h2⟩ := h
        split at h2
        · simp only [Option.pure_def, Option.some.injEq, Prod.mk.injEq] at h2
          rw [← h2.2]
          have h3 := Chars.length_le_of_breakOn? h1
          have h4 := length_skipSpaces_le (cs.dropWhile isColonNamePart)
          have h5 := (List.dropWhile_sublist isColonNamePart (l := cs)).length_le
          omega
        · simp at h2
      · simp at h

theorem length_le_of_close? {cs rest : List Char} {e : Event}
    (h : close? cs = some (e, rest)) : rest.length ≤ cs.length := by
  unfold close? at h
  simp only [Option.bind_eq_bind, Option.bind_eq_some_iff] at h
  obtain ⟨⟨name, rest'⟩, h1, h2⟩ := h
  have h3 := length_lt_of_writtenName? h1
  simp only at h2
  split at h2
  · next body hbody =>
    simp only [Option.pure_def, Option.some.injEq, Prod.mk.injEq] at h2
    obtain ⟨-, rfl⟩ := h2
    have h4 := length_skipSpaces_le rest'
    rw [hbody] at h4
    simp only [List.length_cons] at h4
    omega
  · simp at h2

theorem length_lt_of_text? {c : Char} {cs rest : List Char} {e : Event} (hc : c ≠ '<')
    (h : text? (c :: cs) = some (e, rest)) : rest.length < (c :: cs).length := by
  unfold text? at h
  simp only at h
  split at h
  · simp only [Option.some.injEq, Prod.mk.injEq] at h
    obtain ⟨-, rfl⟩ := h
    exact length_dropWhile_of_takeWhile (by simp [hc])
  · simp at h

theorem length_lt_of_contentEvent? {c : Char} {cs rest : List Char} {e : Event}
    (h : contentEvent? (c :: cs) = some (e, rest)) : rest.length < (c :: cs).length := by
  unfold contentEvent? at h
  split at h
  · next heq =>
    rw [heq]
    have := length_le_of_comment? h
    simp only [List.length_cons]
    omega
  · next heq =>
    rw [heq]
    have := length_le_of_literal? h
    simp only [List.length_cons]
    omega
  · next heq =>
    rw [heq]
    have := length_le_of_instruction? h
    simp only [List.length_cons]
    omega
  · next heq =>
    rw [heq]
    have := length_le_of_close? h
    simp only [List.length_cons]
    omega
  · next heq =>
    rw [heq]
    simp only [Option.map_eq_some_iff, Prod.mk.injEq] at h
    obtain ⟨⟨name, rest'⟩, h1, -, rfl⟩ := h
    have := length_lt_of_writtenName? h1
    simp only [List.length_cons]
    omega
  · next hne =>
    exact length_lt_of_text? (fun hc => hne cs (by rw [hc])) h

theorem length_lt_of_tagEvent? {cs rest : List Char} {e : Event}
    (h : tagEvent? cs = some (e, rest)) : rest.length < cs.length := by
  have hspaces := length_skipSpaces_le cs
  unfold tagEvent? at h
  split at h
  · next body hbody =>
    simp only [Option.some.injEq, Prod.mk.injEq] at h
    obtain ⟨-, rfl⟩ := h
    rw [hbody] at hspaces
    simp only [List.length_cons] at hspaces
    omega
  · next body hbody =>
    simp only [Option.some.injEq, Prod.mk.injEq] at h
    obtain ⟨-, rfl⟩ := h
    rw [hbody] at hspaces
    simp only [List.length_cons] at hspaces
    omega
  · simp at h
  · split at h
    · simp only [Option.map_eq_some_iff, Prod.mk.injEq] at h
      obtain ⟨⟨name, value, rest'⟩, h1, -, rfl⟩ := h
      have := length_lt_of_writtenAttribute? h1
      simp only at this ⊢
      omega
    · simp at h

/-! ## All events -/

/-- Whether what follows an event is the inside of a start tag. -/
def Event.opensTag : Event → Bool
  | .start _ => true
  | .attribute _ _ => true
  | _ => false

/-- The events of a text that starts inside a start tag or outside of one.  Nothing if some part
of the text is no event, or the text ends inside a tag. -/
def events? (inTag : Bool) (cs : List Char) : Option (List Event) :=
  match cs with
  | [] => if inTag then none else some []
  | c :: body =>
    if inTag then
      match h : tagEvent? (c :: body) with
      | none => none
      | some (e, rest) =>
        have : rest.length < body.length + 1 := length_lt_of_tagEvent? h
        (events? e.opensTag rest).map (e :: ·)
    else
      match h : contentEvent? (c :: body) with
      | none => none
      | some (e, rest) =>
        have : rest.length < body.length + 1 := length_lt_of_contentEvent? h
        (events? e.opensTag rest).map (e :: ·)
termination_by cs.length

end Registrar.Xml
