/-
# Texts as lists of lines

A text that is joined of lines without line feeds has these lines and no others, up to a carriage
return at the end of each.  Joining joined texts joins all their lines, where a text of no lines
counts as one empty line.
-/
import Registrar.Text.Lines
import Registrar.Text.Search

namespace Registrar

namespace Chars

/-! ## Lines that are joined -/

theorem joinLines_singleton (l : List Char) : joinLines [l] = l :=
  List.intercalate_singleton

/-- A line feed stands behind the first of several lines. -/
theorem joinLines_cons {l : List Char} {ls : List (List Char)} (hls : ls ≠ []) :
    joinLines (l :: ls) = l ++ '\n' :: joinLines ls := by
  rw [joinLines, List.intercalate_cons_of_ne_nil hls, List.append_assoc]
  rfl

/-- A line feed stands between the lines of two texts. -/
theorem joinLines_append {xs ys : List (List Char)} (hxs : xs ≠ []) (hys : ys ≠ []) :
    joinLines (xs ++ ys) = joinLines xs ++ '\n' :: joinLines ys := by
  induction xs with
  | nil => exact absurd rfl hxs
  | cons x xs ih =>
    cases xs with
    | nil =>
      rw [joinLines_singleton]
      exact joinLines_cons hys
    | cons x' xs =>
      rw [List.cons_append, joinLines_cons (by simp), joinLines_cons (by simp), ih (by simp),
        List.append_assoc, List.cons_append]

/-- The lines that some lines take up when they are put in a place of their own: an empty line if
there are none. -/
def slot (ls : List (List Char)) : List (List Char) :=
  if ls = [] then [[]] else ls

theorem slot_ne_nil (ls : List (List Char)) : slot ls ≠ [] := by
  unfold slot
  split
  · simp
  · assumption

/-- The empty line in the place of no lines adds nothing to the text. -/
theorem joinLines_slot (ls : List (List Char)) : joinLines (slot ls) = joinLines ls := by
  unfold slot
  split
  · next h =>
    rw [h]
    rfl
  · rfl

/-- Joined texts that are joined are the lines of all of them, joined. -/
theorem joinLines_map_joinLines (lss : List (List (List Char))) :
    joinLines (lss.map joinLines) = joinLines (lss.flatMap slot) := by
  induction lss with
  | nil => rfl
  | cons ls lss ih =>
    rw [List.map_cons, List.flatMap_cons]
    cases lss with
    | nil => rw [List.map_nil, List.flatMap_nil, List.append_nil, joinLines_singleton,
        joinLines_slot]
    | cons ls' lss =>
      have hne : (ls' :: lss).flatMap slot ≠ [] := by
        rw [List.flatMap_cons]
        intro h
        exact slot_ne_nil ls' (List.append_eq_nil_iff.1 h).1
      rw [joinLines_append (slot_ne_nil ls) hne, joinLines_slot, ← ih, joinLines_cons (by simp)]

/-! ## Lines that are read -/

theorem lines_eq_go (cs : List Char) : lines cs = lines.go [] cs := by
  cases cs <;> rfl

/-- Up to a line feed the characters of a line are collected in front of the line. -/
theorem go_append {l : List Char} (hl : '\n' ∉ l) (line cs : List Char) :
    lines.go line (l ++ cs) = lines.go (l.reverse ++ line) cs := by
  induction l generalizing line with
  | nil => rfl
  | cons c l ih =>
    have hc : c ≠ '\n' := fun h => hl (h ▸ List.mem_cons_self)
    rw [List.cons_append, lines.go, ih fun h => hl (List.mem_cons_of_mem c h)]
    · simp
    · exact hc

/-- A text without a line feed is one line, or none if it is empty. -/
theorem lines_of_notMem {l : List Char} (hl : '\n' ∉ l) :
    lines l = if l = [] then [] else [l] := by
  have hend := go_append hl [] []
  rw [List.append_nil] at hend
  rw [lines_eq_go, hend]
  simp [lines.go]

/-- What stands before the first line feed is the first line, without its carriage return. -/
theorem lines_append_cons {l : List Char} (hl : '\n' ∉ l) (rest : List Char) :
    lines (l ++ '\n' :: rest) = dropReturn l :: lines rest := by
  rw [lines_eq_go, lines_eq_go, go_append hl]
  simp [lines.go]

/-- The lines of a joined text are those it is joined of, without the carriage returns at their
ends.  The last one keeps it, and does not count if it is empty. -/
theorem lines_joinLines {ls : List (List Char)} (hls : ∀ l ∈ ls, '\n' ∉ l) {last : List Char}
    (hlast : '\n' ∉ last) :
    lines (joinLines (ls ++ [last])) =
      ls.map dropReturn ++ if last = [] then [] else [last] := by
  induction ls with
  | nil =>
    rw [List.nil_append, joinLines_singleton, lines_of_notMem hlast]
    by_cases h : last = [] <;> simp [h]
  | cons l ls ih =>
    rw [List.cons_append, joinLines_cons (by simp), lines_append_cons (hls l List.mem_cons_self),
      ih fun l' h => hls l' (List.mem_cons_of_mem l h)]
    rfl

/-- Without its empty lines, a joined text is joined of the others. -/
theorem removeBlankLines_joinLines {ls : List (List Char)}
    (hls : ∀ l ∈ ls, '\n' ∉ l ∧ dropReturn l = l) :
    removeBlankLines (joinLines ls) = joinLines (ls.filter fun l => !l.isEmpty) := by
  rcases List.eq_nil_or_concat ls with rfl | ⟨init, last, hconcat⟩
  · rfl
  · rw [List.concat_eq_append] at hconcat
    subst hconcat
    have hinit : ∀ l ∈ init, '\n' ∉ l ∧ dropReturn l = l := fun l h =>
      hls l (List.mem_append_left _ h)
    have hmap : init.map dropReturn = init :=
      (List.map_congr_left fun l h => (hinit l h).2).trans (List.map_id init)
    rw [removeBlankLines, lines_joinLines (fun l h => (hinit l h).1) (hls last (by simp)).1, hmap,
      List.filter_append, List.filter_append]
    by_cases hlast : last = []
    · simp [hlast]
    · simp [hlast]

/-! ## Lines one after the other -/

/-- A text is a single line without a line feed, or has a line and a line feed in front of another
text. -/
theorem line_induction {motive : List Char → Prop} (single : ∀ l, '\n' ∉ l → motive l)
    (cons : ∀ l rest, '\n' ∉ l → motive rest → motive (l ++ '\n' :: rest)) (cs : List Char) :
    motive cs := by
  by_cases h : '\n' ∈ cs
  · obtain ⟨l, rest, hcs, hl⟩ := List.eq_append_cons_of_mem h
    have hshorter : rest.length < cs.length := by
      rw [hcs, List.length_append, List.length_cons]
      omega
    rw [hcs]
    exact cons l rest hl (line_induction single cons rest)
  · exact single cs h
termination_by cs.length

/-- A line without its carriage return has no line feed either. -/
theorem notMem_dropReturn {l : List Char} (hl : '\n' ∉ l) : '\n' ∉ dropReturn l := by
  unfold dropReturn
  split
  · exact fun h => hl (List.dropLast_subset l h)
  · exact hl

/-- There is no line feed in a line. -/
theorem notMem_of_mem_lines {cs l : List Char} (h : l ∈ lines cs) : '\n' ∉ l := by
  induction cs using line_induction with
  | single cs hcs =>
    rw [lines_of_notMem hcs] at h
    split at h
    · exact absurd h List.not_mem_nil
    · rwa [List.mem_singleton.1 h]
  | cons first rest hfirst ih =>
    rw [lines_append_cons hfirst] at h
    rcases List.mem_cons.1 h with rfl | h
    · exact notMem_dropReturn hfirst
    · exact ih h

/-- The lines of a text are those up to a line end and those behind it. -/
theorem lines_append_lineFeed_append (cs rest : List Char) :
    lines (cs ++ '\n' :: rest) = lines (cs ++ ['\n']) ++ lines rest := by
  induction cs using line_induction with
  | single cs hcs =>
    rw [lines_append_cons hcs, lines_append_cons hcs]
    rfl
  | cons first cs hfirst ih =>
    rw [List.append_assoc, List.cons_append, lines_append_cons hfirst, ih, List.append_assoc,
      List.cons_append, lines_append_cons hfirst, List.cons_append]

/-- Texts that are each ended by a line feed have their own lines and then those that follow. -/
theorem lines_flatMap_lineFeed_append (texts : List (List Char)) (rest : List Char) :
    lines (texts.flatMap (· ++ ['\n']) ++ rest) =
      lines (texts.flatMap (· ++ ['\n'])) ++ lines rest := by
  induction texts with
  | nil => rfl
  | cons text texts ih =>
    rw [List.flatMap_cons, List.append_assoc, List.append_assoc, List.append_assoc,
      List.singleton_append, List.singleton_append, lines_append_lineFeed_append, ih,
      lines_append_lineFeed_append text (texts.flatMap _), List.append_assoc]

/-- Lines that end in no carriage return are read back one by one. -/
theorem lines_flatMap_lineFeed {ls : List (List Char)}
    (hls : ∀ l ∈ ls, '\n' ∉ l ∧ dropReturn l = l) : lines (ls.flatMap (· ++ ['\n'])) = ls := by
  induction ls with
  | nil => rfl
  | cons l ls ih =>
    obtain ⟨hl, hreturn⟩ := hls l List.mem_cons_self
    rw [List.flatMap_cons, List.append_assoc, List.singleton_append, lines_append_cons hl, hreturn,
      ih fun l' h => hls l' (List.mem_cons_of_mem l h)]

end Chars

namespace Text

/-! ## The same of strings -/

/-- A text without line feeds. -/
def IsLine (s : String) : Prop :=
  '\n' ∉ s.toList

instance (s : String) : Decidable (IsLine s) :=
  inferInstanceAs (Decidable ('\n' ∉ s.toList))

/-- A line without the carriage return at its end. -/
def dropReturn (s : String) : String :=
  String.ofList (Chars.dropReturn s.toList)

/-- The lines that some lines take up when they are put in a place of their own: an empty line if
there are none. -/
def slot (ls : List String) : List String :=
  if ls = [] then [""] else ls

/-- Two lines written one behind the other are a line. -/
theorem IsLine.append {s t : String} (hs : IsLine s) (ht : IsLine t) : IsLine (s ++ t) := by
  rw [IsLine, String.toList_append, List.mem_append]
  rintro (h | h)
  · exact hs h
  · exact ht h

/-- The last character of a text is no carriage return, and there is one. -/
def EndsVisibly (s : String) : Prop :=
  s.toList.getLast?.any (· ≠ '\r') = true

instance (s : String) : Decidable (EndsVisibly s) :=
  inferInstanceAs (Decidable (s.toList.getLast?.any (· ≠ '\r') = true))

/-- A text ends visibly whatever stands before what does. -/
theorem EndsVisibly.append_left {t : String} (ht : EndsVisibly t) (s : String) :
    EndsVisibly (s ++ t) := by
  rw [EndsVisibly, Option.any_eq_true] at ht ⊢
  obtain ⟨c, hc, hcr⟩ := ht
  refine ⟨c, ?_, hcr⟩
  rw [String.toList_append, List.getLast?_append, hc]
  rfl

/-- What ends visibly is not empty. -/
theorem EndsVisibly.ne_empty {s : String} (hs : EndsVisibly s) : s ≠ "" := by
  rintro rfl
  exact absurd hs (by decide)

/-- What ends visibly has no carriage return at its end to drop. -/
theorem EndsVisibly.dropReturn_eq {s : String} (hs : EndsVisibly s) : dropReturn s = s := by
  rw [EndsVisibly, Option.any_eq_true] at hs
  obtain ⟨c, hc, hcr⟩ := hs
  have hne : s.toList.getLast? ≠ some '\r' := by
    rw [hc]
    rintro ⟨⟩
    exact absurd hcr (by decide)
  rw [dropReturn, Chars.dropReturn, if_neg hne, String.ofList_toList]

theorem map_toList_slot (ls : List String) :
    (slot ls).map String.toList = Chars.slot (ls.map String.toList) := by
  cases ls <;> rfl

theorem toList_joinLines (ls : List String) :
    (joinLines ls).toList = Chars.joinLines (ls.map String.toList) := by
  rw [joinLines, String.toList_ofList]

theorem slot_singleton (s : String) : slot [s] = [s] := rfl

/-- One line is its own text. -/
theorem joinLines_singleton (s : String) : joinLines [s] = s := by
  rw [joinLines, List.map_singleton, Chars.joinLines_singleton, String.ofList_toList]

/-- Texts of lines written one below the other are the text of all the lines, an empty one in the
place of a text without any. -/
theorem joinLines_map_joinLines (lss : List (List String)) :
    joinLines (lss.map joinLines) = joinLines (lss.flatMap slot) := by
  have hl : (lss.map joinLines).map String.toList =
      (lss.map fun ls => ls.map String.toList).map Chars.joinLines := by
    rw [List.map_map, List.map_map]
    exact List.map_congr_left fun ls _ => toList_joinLines ls
  have hr : (lss.flatMap slot).map String.toList =
      (lss.map fun ls => ls.map String.toList).flatMap Chars.slot := by
    rw [List.map_flatMap, List.flatMap_map]
    exact congrArg (lss.flatMap ·) (funext map_toList_slot)
  rw [joinLines, joinLines, hl, hr, Chars.joinLines_map_joinLines]

/-- A joined text among lines is its lines among them. -/
theorem joinLines_append_singleton_append (xs ls ys : List String) :
    joinLines (xs ++ [joinLines ls] ++ ys) = joinLines (xs ++ slot ls ++ ys) := by
  -- each of the other lines is a joined text of its own
  have hmap : ∀ zs : List String, (zs.map fun z => [z]).map joinLines = zs := by
    intro zs
    rw [List.map_map]
    exact (List.map_congr_left fun z _ => joinLines_singleton z).trans (List.map_id zs)
  have hslot : ∀ zs : List String, (zs.map fun z => [z]).flatMap slot = zs := by
    intro zs
    rw [List.flatMap_map]
    exact List.flatMap_singleton' zs
  have hjoin := joinLines_map_joinLines
    ((xs.map fun x => [x]) ++ [ls] ++ ys.map fun y => [y])
  rwa [List.map_append, List.map_append, hmap, hmap, List.map_singleton, List.flatMap_append,
    List.flatMap_append, hslot, hslot, List.flatMap_singleton] at hjoin

/-- The lines of a text that ends in a line feed. -/
theorem lines_joinLines {ls : List String} (hls : ∀ l ∈ ls, IsLine l) :
    lines (joinLines (ls ++ [""])) = ls.map dropReturn := by
  rw [lines, toList_joinLines, List.map_append]
  have hls' : ∀ l ∈ ls.map String.toList, '\n' ∉ l := by
    intro l hl
    obtain ⟨s, hs, rfl⟩ := List.mem_map.1 hl
    exact hls s hs
  rw [List.map_singleton, Chars.lines_joinLines hls' (by simp)]
  simp [dropReturn, Function.comp_def]

/-- From a text of lines that are read as they are written, the empty ones are removed and no
others. -/
theorem removeBlankLines_joinLines {ls : List String}
    (hls : ∀ l ∈ ls, IsLine l ∧ dropReturn l = l) :
    removeBlankLines (joinLines ls) = joinLines (ls.filter (· ≠ "")) := by
  have hls' : ∀ l ∈ ls.map String.toList, '\n' ∉ l ∧ Chars.dropReturn l = l := by
    intro l hl
    obtain ⟨s, hs, rfl⟩ := List.mem_map.1 hl
    refine ⟨(hls s hs).1, ?_⟩
    have := congrArg String.toList (hls s hs).2
    rwa [dropReturn, String.toList_ofList] at this
  rw [removeBlankLines, toList_joinLines, Chars.removeBlankLines_joinLines hls', joinLines,
    List.filter_map]
  congr 4
  funext s
  rw [Bool.eq_iff_iff]
  simp

end Text

end Registrar
