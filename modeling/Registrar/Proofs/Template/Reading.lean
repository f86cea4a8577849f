/-
# How a template is read

The text of a template is read from left to right.  Wherever `$(` is followed by a key and `)`, that
stretch is a placeholder, and every other character is literal.  Rendering, which goes from one `$(` to
the next and looks for a `)` behind it, does what this reading says: it puts a value in the place of
each placeholder, keeps all else, and fails at the first placeholder without a value.
-/
import Mathlib.Data.List.Basic
import Mathlib.Data.List.Find
import Registrar.Proofs.Text.Search
import Registrar.Template.Basic

namespace Registrar.Template

/-! ## The reading -/

/-- A part of the text of a template. -/
inductive Piece where
  | literal (c : Char)
  | placeholder (key : List Char)
  deriving DecidableEq, Repr

/-- A character of a key: an ASCII letter, an ASCII digit or an underscore. -/
def IsKeyCharacter (c : Char) : Prop :=
  'A' ≤ c ∧ c ≤ 'Z' ∨ 'a' ≤ c ∧ c ≤ 'z' ∨ '0' ≤ c ∧ c ≤ '9' ∨ c = '_'

/-- A key has at least one character, and letters, digits and underscores only. -/
structure IsKey (key : List Char) : Prop where
  nonempty : key ≠ []
  characters : ∀ c ∈ key, IsKeyCharacter c

/-- A text that begins with `$(`, a key and a `)`. -/
def StartsPlaceholder (cs : List Char) : Prop :=
  ∃ key rest, IsKey key ∧ cs = '$' :: '(' :: (key ++ ')' :: rest)

/-- A reading of a text.  A `$(`, a key and a `)` are a placeholder wherever they stand together, and a
character is literal only if no placeholder begins with it. -/
inductive IsReading : List Char → List Piece → Prop where
  | nil : IsReading [] []
  | placeholder {key : List Char} (hkey : IsKey key) {rest : List Char} {ps : List Piece}
      (h : IsReading rest ps) :
      IsReading ('$' :: '(' :: (key ++ ')' :: rest)) (.placeholder key :: ps)
  | literal {c : Char} {rest : List Char} (hno : ¬ StartsPlaceholder (c :: rest))
      {ps : List Piece} (h : IsReading rest ps) : IsReading (c :: rest) (.literal c :: ps)

/-- The characters that the search takes for a part of a key are those of a key. -/
theorem isKeyPart_iff (c : Char) : isKeyPart c = true ↔ IsKeyCharacter c := by
  have htests : isKeyPart c = (decide ('A' ≤ c ∧ c ≤ 'Z') || (decide ('a' ≤ c) && decide (c ≤ 'z')) ||
      (decide ('0' ≤ c) && decide (c ≤ '9')) || decide (c = '_')) := rfl
  rw [htests, IsKeyCharacter]
  simp only [Bool.or_eq_true, Bool.and_eq_true, decide_eq_true_eq, or_assoc]

/-- What the search takes for a key is one. -/
theorem isKey_iff (key : List Char) : isKey key = true ↔ IsKey key := by
  rw [isKey, Bool.and_eq_true, List.all_eq_true]
  constructor
  · rintro ⟨hne, hall⟩
    exact ⟨by simpa using hne, fun c hc => (isKeyPart_iff c).1 (hall c hc)⟩
  · rintro ⟨hne, hall⟩
    exact ⟨by simpa using hne, fun c hc => (isKeyPart_iff c).2 (hall c hc)⟩

/-- A key has no `)` in it. -/
theorem IsKey.closing_notMem {key : List Char} (h : IsKey key) : ')' ∉ key := by
  intro hmem
  have hpart : isKeyPart ')' = true := (isKeyPart_iff _).2 (h.characters _ hmem)
  exact absurd hpart (by decide)

/-- The key at the front of what follows a `$(`, if it is a key and a `)` stands behind it, and
what follows. -/
def key? (cs : List Char) : Option (List Char × List Char) :=
  match cs.takeWhile isKeyPart, cs.dropWhile isKeyPart with
  | c :: key, ')' :: rest => some (c :: key, rest)
  | _, _ => none

/-- What is read as a key is one, with a `)` behind it. -/
theorem eq_append_of_key? {cs key rest : List Char} (h : key? cs = some (key, rest)) :
    cs = key ++ ')' :: rest ∧ IsKey key := by
  unfold key? at h
  split at h
  · next c key' rest' hkey hrest =>
    obtain ⟨rfl, rfl⟩ := Prod.mk.inj (Option.some.inj h)
    constructor
    · rw [← hkey, ← hrest, List.takeWhile_append_dropWhile]
    · rw [← isKey_iff, ← hkey, isKey, List.all_takeWhile, hkey]
      rfl
  · simp at h

/-- Behind a key less is left. -/
theorem length_lt_of_key? {cs key rest : List Char} (h : key? cs = some (key, rest)) :
    rest.length < cs.length := by
  rw [(eq_append_of_key? h).1]
  simp only [List.length_append, List.length_cons]
  omega

/-- The pieces of the text of a template. -/
def pieces (cs : List Char) : List Piece :=
  match cs with
  | [] => []
  | '$' :: '(' :: body =>
    match h : key? body with
    | some (key, rest) =>
      have : rest.length < body.length := length_lt_of_key? h
      .placeholder key :: pieces rest
    | none => .literal '$' :: pieces ('(' :: body)
  | c :: rest => .literal c :: pieces rest
termination_by cs.length

/-- The text of a key at the front of a text is the key and a `)`. -/
theorem key?_append {key : List Char} (hkey : IsKey key) (rest : List Char) :
    key? (key ++ ')' :: rest) = some (key, rest) := by
  have hall : ∀ c ∈ key, isKeyPart c = true := fun c hc =>
    (isKeyPart_iff c).2 (hkey.characters c hc)
  obtain ⟨c, key, rfl⟩ := List.exists_cons_of_ne_nil hkey.nonempty
  have hclose : isKeyPart ')' = false := by decide
  have htake : (c :: key ++ ')' :: rest).takeWhile isKeyPart = c :: key := by
    rw [List.takeWhile_append_of_pos hall, List.takeWhile_cons_of_neg (by simp [hclose]),
      List.append_nil]
  have hdrop : (c :: key ++ ')' :: rest).dropWhile isKeyPart = ')' :: rest := by
    rw [List.dropWhile_append_of_pos hall, List.dropWhile_cons_of_neg (by simp [hclose])]
  rw [key?, htake, hdrop]
  rfl

theorem pieces_nil : pieces [] = [] := by
  rw [pieces]

/-- A text behind what starts a placeholder, character by character. -/
theorem opening_append (cs : List Char) : opening ++ cs = '$' :: '(' :: cs :=
  rfl

/-- A `$(` with a key and a `)` behind it is read as a placeholder. -/
theorem pieces_opening_of_some {body key rest : List Char} (h : key? body = some (key, rest)) :
    pieces (opening ++ body) = .placeholder key :: pieces rest := by
  rw [opening_append, pieces]
  split
  · next key' rest' h' =>
    obtain ⟨rfl, rfl⟩ := Prod.mk.inj (Option.some.inj (h.symm.trans h'))
    rfl
  · next h' => exact absurd (h.symm.trans h') (by simp)

/-- A `$(` without a key behind it starts no placeholder. -/
theorem not_startsPlaceholder_of_key? {body : List Char} (h : key? body = none) :
    ¬ StartsPlaceholder ('$' :: '(' :: body) := by
  rintro ⟨key, rest, hkey, heq⟩
  obtain rfl : body = key ++ ')' :: rest := (List.cons_eq_cons.1 (List.cons_eq_cons.1 heq).2).2
  rw [key?_append hkey] at h
  simp at h

/-- A character with which no placeholder begins is read as a literal. -/
theorem pieces_cons {c : Char} {rest : List Char} (hno : ¬ StartsPlaceholder (c :: rest)) :
    pieces (c :: rest) = .literal c :: pieces rest := by
  rw [pieces.eq_def]
  split
  · next heq => simp at heq
  · next body heq =>
    obtain ⟨rfl, rfl⟩ := List.cons_eq_cons.1 heq
    split
    · next key behind hkey =>
      obtain ⟨rfl, hisKey⟩ := eq_append_of_key? hkey
      exact absurd ⟨key, behind, hisKey, rfl⟩ hno
    · rfl
  · next heq =>
    obtain ⟨rfl, rfl⟩ := List.cons_eq_cons.1 heq
    rfl

/-- A character other than `$` is read as a literal. -/
theorem pieces_cons_of_ne {c : Char} (hc : c ≠ '$') (rest : List Char) :
    pieces (c :: rest) = .literal c :: pieces rest := by
  apply pieces_cons
  rintro ⟨key, behind, -, heq⟩
  exact hc (List.cons_eq_cons.1 heq).1

/-- A `$(` without a key behind it is read as two literals. -/
theorem pieces_opening_of_none {body : List Char} (h : key? body = none) :
    pieces (opening ++ body) = opening.map .literal ++ pieces body := by
  rw [opening_append, pieces_cons (not_startsPlaceholder_of_key? h), pieces_cons_of_ne (by decide)]
  rfl

/-- A text has exactly one reading. -/
theorem isReading_iff (cs : List Char) (ps : List Piece) : IsReading cs ps ↔ ps = pieces cs := by
  constructor
  · intro h
    induction h with
    | nil => exact pieces_nil.symm
    | placeholder hkey _ ih => rw [ih, ← pieces_opening_of_some (key?_append hkey _), opening_append]
    | literal hno _ ih => rw [pieces_cons hno, ih]
  · rintro rfl
    induction cs using pieces.induct with
    | case1 =>
      rw [pieces_nil]
      exact .nil
    | case2 body key rest h _ ih =>
      rw [← opening_append, pieces_opening_of_some h, opening_append, (eq_append_of_key? h).1]
      exact .placeholder (eq_append_of_key? h).2 ih
    | case3 body h ih =>
      rw [pieces_cons (not_startsPlaceholder_of_key? h)]
      exact .literal (not_startsPlaceholder_of_key? h) ih
    | case4 c rest hne ih =>
      have hno : ¬ StartsPlaceholder (c :: rest) := by
        rintro ⟨key, behind, -, heq⟩
        obtain ⟨rfl, rfl⟩ := List.cons_eq_cons.1 heq
        exact hne _ rfl rfl
      rw [pieces_cons hno]
      exact .literal hno ih

/-! ## The search along the reading -/

/-- A text that does not begin with `$(` starts no placeholder. -/
theorem not_startsPlaceholder_of_isPrefixOf? {cs : List Char}
    (h : opening.isPrefixOf? cs = none) : ¬ StartsPlaceholder cs := by
  rintro ⟨key, behind, -, rfl⟩
  rw [← opening_append, Chars.isPrefixOf?_append] at h
  simp at h

/-- A text without a `$(` is read as literals. -/
theorem pieces_of_breakOn?_eq_none {cs : List Char} (h : Chars.breakOn? opening cs = none) :
    pieces cs = cs.map .literal := by
  induction cs with
  | nil => exact pieces_nil
  | cons c cs ih =>
    rw [Chars.breakOn?] at h
    split at h
    · simp at h
    · next hprefix =>
      rw [pieces_cons (not_startsPlaceholder_of_isPrefixOf? hprefix),
        ih (Option.map_eq_none_iff.1 h), List.map_cons]

/-- What stands before the first `$(` is read as literals. -/
theorem pieces_of_breakOn?_eq_some {cs before body : List Char}
    (h : Chars.breakOn? opening cs = some (before, body)) :
    pieces cs = before.map .literal ++ pieces (opening ++ body) := by
  induction cs generalizing before with
  | nil => simp [Chars.breakOn?, opening] at h
  | cons c cs ih =>
    rw [Chars.breakOn?] at h
    split at h
    · next rest hprefix =>
      obtain ⟨rfl, rfl⟩ := Prod.mk.inj (Option.some.inj h)
      rw [(Chars.isPrefixOf?_eq_some_iff _ _ _).1 hprefix]
      rfl
    · next hprefix =>
      rw [Option.map_eq_some_iff] at h
      obtain ⟨⟨before', body'⟩, hrest, heq⟩ := h
      obtain ⟨rfl, rfl⟩ := Prod.mk.inj heq
      rw [pieces_cons (not_startsPlaceholder_of_isPrefixOf? hprefix), ih hrest]
      rfl

/-- The next `)` ends a key exactly if the longest run of key characters ends at a `)`. -/
theorem keyAhead?_eq_key? (cs : List Char) : keyAhead? cs = key? cs := by
  cases hkey : key? cs with
  | none =>
    rw [keyAhead?, Option.filter_eq_none_iff]
    rintro ⟨key, rest⟩ hbreak hisKey
    rw [Chars.eq_append_of_breakOn? hbreak, List.append_assoc] at hkey
    exact absurd ((key?_append ((isKey_iff key).1 hisKey) rest).symm.trans hkey) (by simp)
  | some found =>
    obtain ⟨key, rest⟩ := found
    obtain ⟨rfl, hisKey⟩ := eq_append_of_key? hkey
    -- a key has no `)` in it, so the first one stands right behind the key
    rw [keyAhead?, Chars.breakOn?_append_cons hisKey.closing_notMem, Option.filter_some,
      if_pos ((isKey_iff key).2 hisKey)]

/-! ## What is rendered -/

namespace Piece

/-- The key of a placeholder. -/
def key? : Piece → Option String
  | literal _ => none
  | placeholder key => some (String.ofList key)

/-- How a piece is written. -/
def source : Piece → List Char
  | literal c => [c]
  | placeholder key => '$' :: '(' :: (key ++ [')'])

/-- What stands in the place of a piece. -/
def fill (values : Values) : Piece → List Char
  | literal c => [c]
  | placeholder key => ((values.lookup (String.ofList key)).getD "").toList

end Piece

/-- The keys of the placeholders from left to right. -/
def keys (ps : List Piece) : List String :=
  ps.filterMap Piece.key?

/-- The text of some pieces with a value in the place of each placeholder, unless one has none; then
the first one from the left is reported. -/
def fillPieces (name : String) (values : Values) (ps : List Piece) :
    Except TemplateError (List Char) :=
  match (keys ps).find? fun key => (values.lookup key).isNone with
  | none => .ok (ps.flatMap (Piece.fill values))
  | some key => .error (.missingValue name key)

/-- The pieces of a text, written one after the other, are the text. -/
theorem flatMap_source_pieces (cs : List Char) : (pieces cs).flatMap Piece.source = cs := by
  have h : IsReading cs (pieces cs) := (isReading_iff _ _).2 rfl
  generalize pieces cs = ps at h
  induction h with
  | nil => rfl
  | placeholder _ _ ih =>
    rw [List.flatMap_cons, ih]
    simp [Piece.source]
  | literal _ _ ih =>
    rw [List.flatMap_cons, ih]
    rfl

variable (name : String) (values : Values)

/-- Literals are put in front of what the rest is filled to. -/
theorem fillPieces_literals_append (cs : List Char) (ps : List Piece) :
    fillPieces name values (cs.map .literal ++ ps) =
      (fillPieces name values ps).map fun rest => cs ++ rest := by
  have hkeys : keys (cs.map .literal ++ ps) = keys ps := by
    rw [keys, List.filterMap_append, List.filterMap_map]
    simp [keys, Function.comp_def, Piece.key?]
  have hfill : (cs.map Piece.literal).flatMap (Piece.fill values) = cs := by
    rw [List.flatMap_map]
    exact List.flatMap_singleton' cs
  rw [fillPieces, fillPieces, hkeys, List.flatMap_append, hfill]
  split <;> rfl

/-- The value of a placeholder is put in front of what the rest is filled to. -/
theorem fillPieces_placeholder_of_some {key : List Char} {value : String}
    (h : values.lookup (String.ofList key) = some value) (ps : List Piece) :
    fillPieces name values (.placeholder key :: ps) =
      (fillPieces name values ps).map fun rest => value.toList ++ rest := by
  have hkeys : keys (.placeholder key :: ps) = String.ofList key :: keys ps := rfl
  have hfill : Piece.fill values (.placeholder key) = value.toList := by
    rw [Piece.fill, h, Option.getD_some]
  rw [fillPieces, fillPieces, hkeys, List.find?_cons_of_neg (by simp [h]), List.flatMap_cons, hfill]
  split <;> rfl

/-- A placeholder without a value is reported before anything behind it. -/
theorem fillPieces_placeholder_of_none {key : List Char}
    (h : values.lookup (String.ofList key) = none) (ps : List Piece) :
    fillPieces name values (.placeholder key :: ps) =
      .error (.missingValue name (String.ofList key)) := by
  have hkeys : keys (.placeholder key :: ps) = String.ofList key :: keys ps := rfl
  rw [fillPieces, hkeys, List.find?_cons_of_pos (by simp [h])]

/-- The search from `$(` to `$(` renders the pieces of the text. -/
theorem renderText_eq_fillPieces (cs : List Char) :
    renderText name values cs = fillPieces name values (pieces cs) := by
  -- one case for each way of the search: what stands before the `$(` is literal in all of them
  fun_induction renderText name values cs with
  | case1 cs hopen =>
    have hnil : fillPieces name values [] = .ok [] := rfl
    have hliterals := fillPieces_literals_append name values cs []
    rw [List.append_nil, hnil] at hliterals
    rw [pieces_of_breakOn?_eq_none hopen, hliterals]
    simp [Except.map]
  | case2 cs before body hopen _ hkey ih =>
    rw [keyAhead?_eq_key?] at hkey
    rw [pieces_of_breakOn?_eq_some hopen, pieces_opening_of_none hkey, ← List.append_assoc,
      ← List.map_append, fillPieces_literals_append, ih]
  | case3 cs before body hopen _ key behind hkey _ hvalue =>
    rw [keyAhead?_eq_key?] at hkey
    rw [pieces_of_breakOn?_eq_some hopen, pieces_opening_of_some hkey, fillPieces_literals_append,
      fillPieces_placeholder_of_none name values hvalue]
    rfl
  | case4 cs before body hopen _ key behind hkey _ value hvalue ih =>
    rw [keyAhead?_eq_key?] at hkey
    rw [pieces_of_breakOn?_eq_some hopen, pieces_opening_of_some hkey, fillPieces_literals_append,
      fillPieces_placeholder_of_some name values hvalue, ih]
    cases fillPieces name values (pieces behind) with
    | error e => rfl
    | ok rest => exact congrArg Except.ok (List.append_assoc _ _ _)

/-! ## Whole templates -/

/-- The key of a placeholder is one of the keys. -/
theorem ofList_mem_keys {ps : List Piece} {key : List Char} (h : .placeholder key ∈ ps) :
    String.ofList key ∈ keys ps :=
  List.mem_filterMap.2 ⟨_, h, rfl⟩

/-- What values are there for other keys does not matter. -/
theorem fillPieces_congr {values values' : Values} {ps : List Piece}
    (h : ∀ key ∈ keys ps, values'.lookup key = values.lookup key) :
    fillPieces name values' ps = fillPieces name values ps := by
  have hmissing : ((keys ps).find? fun key => (values'.lookup key).isNone) =
      (keys ps).find? fun key => (values.lookup key).isNone :=
    List.find?_congr fun key hkey => by rw [h key hkey]
  have hfill : ps.flatMap (Piece.fill values') = ps.flatMap (Piece.fill values) := by
    apply List.flatMap_congr
    intro p hp
    cases p with
    | literal c => rfl
    | placeholder key => rw [Piece.fill, Piece.fill, h _ (ofList_mem_keys hp)]
  rw [fillPieces, fillPieces, hmissing, hfill]

/-- If every placeholder has itself as its value, then filling the pieces is writing them. -/
theorem fillPieces_self {values : Values} {ps : List Piece}
    (h : ∀ key ∈ keys ps, values.lookup key = some ("$(" ++ key ++ ")")) :
    fillPieces name values ps = .ok (ps.flatMap Piece.source) := by
  have hmissing : ((keys ps).find? fun key => (values.lookup key).isNone) = none := by
    rw [List.find?_eq_none]
    intro key hkey
    simp [h key hkey]
  have hfill : ps.flatMap (Piece.fill values) = ps.flatMap Piece.source := by
    apply List.flatMap_congr
    intro p hp
    cases p with
    | literal c => rfl
    | placeholder key =>
      simp [Piece.fill, Piece.source, h _ (ofList_mem_keys hp)]
  rw [fillPieces, hmissing, hfill]

/-- Rendering follows the one reading of the text.  It always ends.  If every placeholder has a value,
then the text comes out with each placeholder replaced by its value and all else as it was; otherwise
the first placeholder from the left without a value is reported.  The reading loses nothing of the text,
so a template whose placeholders stand for themselves renders to its own text.  Values of other keys do
not matter. -/
theorem render_follows_reading (t : Template) :
    ∃ ps, (∀ qs, IsReading t.text.toList qs ↔ qs = ps) ∧ ps.flatMap Piece.source = t.text.toList ∧
      ∀ values,
        (t.render values =
          match (keys ps).find? fun key => (values.lookup key).isNone with
          | none => .ok (String.ofList (ps.flatMap (Piece.fill values)))
          | some key => .error (.missingValue t.name key)) ∧
        ((∀ key ∈ keys ps, values.lookup key = some ("$(" ++ key ++ ")")) →
          t.render values = .ok t.text) ∧
        ∀ values', (∀ key ∈ keys ps, values'.lookup key = values.lookup key) →
          t.render values' = t.render values := by
  refine ⟨pieces t.text.toList, isReading_iff _, flatMap_source_pieces _, fun values => ?_⟩
  have hrender : ∀ values,
      t.render values = (fillPieces t.name values (pieces t.text.toList)).map String.ofList := by
    intro values
    rw [render, renderText_eq_fillPieces]
  refine ⟨?_, fun hself => ?_, fun values' hsame => ?_⟩
  · rw [hrender, fillPieces]
    split <;> rfl
  · rw [hrender, fillPieces_self t.name hself, flatMap_source_pieces]
    exact congrArg Except.ok String.ofList_toList
  · rw [hrender, hrender, fillPieces_congr t.name hsame]

/-- A `$(` that no key follows is kept, and so is one without its `)`.  The value is not read again. -/
example : render ⟨"T", "$($(a))$(b"⟩ [("a", "$(b)")] = .ok "$($(b))$(b" := by cbv

end Registrar.Template
