/-
# Texts without their empty lines

Of two carriage returns in front of a line feed the first one belongs to the line.  When the lines
that are not empty are joined again, it stands right before a line feed and is read as part of the
line end.  So the lines of a text without its empty lines are the lines that are not empty, except
where a line that ends in a carriage return has a line that is not empty behind it: there the
carriage return is lost, and a line of nothing else has become an empty one.
-/
import Mathlib.Data.List.Basic
import Mathlib.Data.List.Infix
import Registrar.Proofs.Text.Lines
import Registrar.Proofs.Text.Search
import Registrar.Proofs.Text.Split

namespace Registrar

namespace Chars

/-! ## The last line end -/

/-- What stands behind the last line end of a text. -/
theorem exists_lastLine (cs : List Char) :
    ∃ a l, cs = a ++ l ∧ (a = [] ∨ a.getLast? = some '\n') ∧ '\n' ∉ l := by
  induction cs using line_induction with
  | single cs hcs => exact ⟨[], cs, rfl, .inl rfl, hcs⟩
  | cons first rest hfirst ih =>
    obtain ⟨a, l, rfl, ha, hl⟩ := ih
    refine ⟨first ++ '\n' :: a, l, by simp, .inr ?_, hl⟩
    rw [List.getLast?_append, List.getLast?_cons]
    rcases ha with rfl | ha
    · rfl
    · rw [ha]
      rfl

/-! ## Carriage returns at the end of a line -/

/-- A line keeps a carriage return if there are two of them in front of its line feed. -/
theorem getLast?_dropReturn_eq_iff (l : List Char) :
    (dropReturn l).getLast? = some '\r' ↔ ∃ front, l = front ++ ['\r', '\r'] := by
  unfold dropReturn
  constructor
  · intro h
    split at h
    · next hl =>
      obtain ⟨front, hfront⟩ := List.getLast?_eq_some_iff.1 h
      refine ⟨front, ?_⟩
      rw [← List.dropLast_append_getLast? '\r' hl, hfront, List.append_assoc]
      rfl
    · next hl => exact absurd h hl
  · rintro ⟨front, rfl⟩
    have hfront : front ++ ['\r', '\r'] = (front ++ ['\r']) ++ ['\r'] := by simp
    rw [hfront, if_pos List.getLast?_concat, List.dropLast_concat, List.getLast?_concat]

/-- A line stays as it is exactly if it does not end in a carriage return. -/
theorem dropReturn_eq_self_iff (l : List Char) :
    dropReturn l = l ↔ l.getLast? ≠ some '\r' := by
  unfold dropReturn
  constructor
  · intro h hl
    rw [if_pos hl] at h
    have hlength := congrArg List.length h
    have hne : l ≠ [] := by
      rintro rfl
      exact absurd hl (by simp)
    have hpos := List.length_pos_iff.2 hne
    rw [List.length_dropLast] at hlength
    omega
  · exact fun h => if_neg h

/-- One carriage return is left of a line exactly if it is two of them. -/
theorem dropReturn_eq_singleton_iff (l : List Char) :
    dropReturn l = ['\r'] ↔ l = ['\r', '\r'] := by
  constructor
  · intro h
    obtain ⟨front, rfl⟩ := (getLast?_dropReturn_eq_iff l).1 (by rw [h]; rfl)
    have hfront : front ++ ['\r', '\r'] = (front ++ ['\r']) ++ ['\r'] := by simp
    rw [hfront, dropReturn, if_pos List.getLast?_concat, List.dropLast_concat] at h
    have hempty : front = [] := List.append_left_eq_self.1 h
    rw [hempty, List.nil_append]
  · rintro rfl
    rfl

/-- A line that is not empty becomes empty only if it is a carriage return. -/
theorem dropReturn_eq_nil_iff {l : List Char} (hl : l ≠ []) : dropReturn l = [] ↔ l = ['\r'] := by
  constructor
  · intro h
    have hlast : l.getLast? = some '\r' := by
      by_contra hne
      exact hl (((dropReturn_eq_self_iff l).2 hne).symm.trans h)
    rw [dropReturn, if_pos hlast] at h
    rw [← List.dropLast_append_getLast? '\r' hlast, h, List.nil_append]
  · rintro rfl
    rfl

/-! ## The lines that are not empty -/

/-- The lines that are not empty. -/
def keptLines (cs : List Char) : List (List Char) :=
  (lines cs).filter fun l => !l.isEmpty

theorem removeBlankLines_eq (cs : List Char) : removeBlankLines cs = joinLines (keptLines cs) :=
  rfl

/-- The lines that are kept are not empty. -/
theorem ne_nil_of_mem_keptLines {cs l : List Char} (h : l ∈ keptLines cs) : l ≠ [] := by
  rintro rfl
  exact absurd (List.mem_filter.1 h).2 (by decide)

/-- The lines that are kept have no line feed. -/
theorem notMem_of_mem_keptLines {cs l : List Char} (h : l ∈ keptLines cs) : '\n' ∉ l :=
  notMem_of_mem_lines (List.mem_filter.1 h).1

/-- What stands before the first line feed is kept unless it is empty without its carriage
return. -/
theorem keptLines_append_cons {l : List Char} (hl : '\n' ∉ l) (rest : List Char) :
    keptLines (l ++ '\n' :: rest) =
      (if dropReturn l = [] then [] else [dropReturn l]) ++ keptLines rest := by
  unfold keptLines
  rw [lines_append_cons hl, List.filter_cons]
  by_cases h : dropReturn l = [] <;> simp [h]

/-- The lines of the joined lines: all but the last one have lost a carriage return at their ends.
-/
theorem lines_removeBlankLines (cs : List Char) :
    lines (removeBlankLines cs) =
      (keptLines cs).dropLast.map dropReturn ++ (keptLines cs).getLast?.toList := by
  have hline : ∀ l ∈ keptLines cs, '\n' ∉ l := fun l => notMem_of_mem_keptLines
  have hne : ∀ l ∈ keptLines cs, l ≠ [] := fun l => ne_nil_of_mem_keptLines
  rw [removeBlankLines_eq]
  rcases List.eq_nil_or_concat (keptLines cs) with hkept | ⟨init, last, hkept⟩
  · rw [hkept]
    rfl
  · rw [List.concat_eq_append] at hkept
    rw [hkept] at hline hne ⊢
    rw [lines_joinLines (fun l h => hline l (List.mem_append_left _ h)) (hline last (by simp)),
      if_neg (hne last (by simp)), List.dropLast_concat, List.getLast?_concat]
    rfl

/-- The lines stay what they are if none but the last one ends in a carriage return. -/
theorem lines_removeBlankLines_eq_iff (cs : List Char) :
    lines (removeBlankLines cs) = keptLines cs ↔
      ¬ ∃ l ∈ (keptLines cs).dropLast, l.getLast? = some '\r' := by
  have hself : ∀ ls : List (List Char),
      ls.map dropReturn = ls ↔ ¬ ∃ l ∈ ls, l.getLast? = some '\r' := by
    intro ls
    have hmap := List.map_inj_left (l := ls) (f := dropReturn) (g := id)
    rw [List.map_id] at hmap
    rw [hmap]
    simp only [id, dropReturn_eq_self_iff, not_exists, not_and, ne_eq]
  rw [lines_removeBlankLines]
  rcases List.eq_nil_or_concat (keptLines cs) with hkept | ⟨init, last, hkept⟩
  · rw [hkept]
    simp
  · rw [hkept, List.concat_eq_append, List.dropLast_concat, List.getLast?_concat, ← hself]
    exact List.append_left_inj [last]

/-- A line becomes empty if it is a carriage return and not the last one. -/
theorem nil_mem_lines_removeBlankLines_iff (cs : List Char) :
    [] ∈ lines (removeBlankLines cs) ↔ ∃ l ∈ (keptLines cs).dropLast, l = ['\r'] := by
  have hne : ∀ l ∈ keptLines cs, l ≠ [] := fun l => ne_nil_of_mem_keptLines
  have hlast : [] ∉ (keptLines cs).getLast?.toList := by
    intro h
    rw [Option.mem_toList] at h
    exact hne [] (List.mem_of_getLast? h) rfl
  rw [lines_removeBlankLines, List.mem_append, or_iff_left hlast, List.mem_map]
  constructor
  · rintro ⟨l, hl, hempty⟩
    exact ⟨l, hl, (dropReturn_eq_nil_iff (hne l (List.mem_of_mem_dropLast hl))).1 hempty⟩
  · rintro ⟨l, hl, rfl⟩
    exact ⟨['\r'], hl, rfl⟩

/-- Lines that are joined are told apart by the joined text. -/
theorem joinLines_inj {xs ys : List (List Char)} (hxs : ∀ l ∈ xs, '\n' ∉ l)
    (hys : ∀ l ∈ ys, '\n' ∉ l) (hxs' : xs ≠ []) (hys' : ys ≠ [])
    (h : joinLines xs = joinLines ys) : xs = ys := by
  rw [← splitOn_intercalate hxs' hxs, ← splitOn_intercalate hys' hys]
  exact congrArg (splitOn '\n') h

/-- Removing the empty lines again changes nothing as long as the lines are still the same. -/
theorem removeBlankLines_idem_iff (cs : List Char) :
    removeBlankLines (removeBlankLines cs) = removeBlankLines cs ↔
      lines (removeBlankLines cs) = keptLines cs := by
  constructor
  · intro h
    have hlength : (lines (removeBlankLines cs)).length = (keptLines cs).length := by
      rw [lines_removeBlankLines]
      rcases List.eq_nil_or_concat (keptLines cs) with hkept | ⟨init, last, hkept⟩ <;> simp [hkept]
    by_cases hempty : keptLines cs = []
    · rw [hempty, List.length_nil] at hlength
      rw [hempty, List.eq_nil_of_length_eq_zero hlength]
    · -- the text tells its lines, and as many are left as there were
      have hagain : keptLines (removeBlankLines cs) ≠ [] := by
        obtain ⟨last, hlast⟩ := Option.ne_none_iff_exists'.1 (mt List.getLast?_eq_none_iff.1 hempty)
        have hmem : last ∈ lines (removeBlankLines cs) := by
          rw [lines_removeBlankLines, hlast]
          exact List.mem_append_right _ List.mem_cons_self
        have hne : last ≠ [] := ne_nil_of_mem_keptLines (List.mem_of_getLast? hlast)
        exact List.ne_nil_of_mem (List.mem_filter.2 ⟨hmem, by simpa using hne⟩)
      have hkept : keptLines (removeBlankLines cs) = keptLines cs :=
        joinLines_inj (fun l => notMem_of_mem_keptLines) (fun l => notMem_of_mem_keptLines) hagain
          hempty h
      have hall : keptLines (removeBlankLines cs) = lines (removeBlankLines cs) := by
        refine List.Sublist.eq_of_length List.filter_sublist ?_
        show (keptLines (removeBlankLines cs)).length = _
        rw [hkept, hlength]
      rw [← hall, hkept]
  · intro h
    rw [removeBlankLines_eq (removeBlankLines cs), keptLines, h, removeBlankLines_eq cs, keptLines,
      List.filter_filter]
    simp only [Bool.and_self]

/-! ## Doubled carriage returns -/

/-- Between two line ends of a text, or in front of the first one, stands `l`, and a line that is
not empty comes behind it. -/
def IsFollowed (cs l : List Char) : Prop :=
  ∃ a b, cs = a ++ l ++ '\n' :: b ∧ (a = [] ∨ a.getLast? = some '\n') ∧ '\n' ∉ l ∧ keptLines b ≠ []

/-- Without a line feed there is no line that another one follows. -/
theorem not_isFollowed_of_notMem {cs : List Char} (h : '\n' ∉ cs) (l : List Char) :
    ¬ IsFollowed cs l := by
  rintro ⟨a, b, rfl, -⟩
  simp at h

/-- The lines that are followed are the first one, if a line that is not empty comes behind it, and
those of the rest. -/
theorem isFollowed_append_cons {first : List Char} (hfirst : '\n' ∉ first) (rest l : List Char) :
    IsFollowed (first ++ '\n' :: rest) l ↔ l = first ∧ keptLines rest ≠ [] ∨ IsFollowed rest l := by
  constructor
  · rintro ⟨a, b, hcs, ha, hl, hb⟩
    rcases ha with rfl | ha
    · rw [List.nil_append] at hcs
      obtain ⟨rfl, rfl⟩ := append_cons_inj hfirst hl hcs
      exact .inl ⟨rfl, hb⟩
    · obtain ⟨a, rfl⟩ := List.getLast?_eq_some_iff.1 ha
      have hcs' : first ++ '\n' :: rest = a ++ '\n' :: (l ++ '\n' :: b) := by simpa using hcs
      -- the line end in front of `l` is the first one of the text or a later one
      by_cases hmem : '\n' ∈ a
      · obtain ⟨p, q, rfl, hp⟩ := List.eq_append_cons_of_mem hmem
        rw [List.append_assoc, List.cons_append] at hcs'
        obtain ⟨-, rfl⟩ := append_cons_inj hfirst hp hcs'
        exact .inr ⟨q ++ ['\n'], b, by simp, .inr List.getLast?_concat, hl, hb⟩
      · obtain ⟨-, rfl⟩ := append_cons_inj hfirst hmem hcs'
        exact .inr ⟨[], b, rfl, .inl rfl, hl, hb⟩
  · rintro (⟨rfl, hrest⟩ | ⟨a, b, rfl, ha, hl, hb⟩)
    · exact ⟨[], rest, rfl, .inl rfl, hfirst, hrest⟩
    · refine ⟨first ++ '\n' :: a, b, by simp, .inr ?_, hl, hb⟩
      rw [List.getLast?_append, List.getLast?_cons]
      rcases ha with rfl | ha
      · rfl
      · rw [ha]
        rfl

/-- Of the lines that are not empty, all but the last one are the lines with one of them behind
them. -/
theorem exists_mem_dropLast_keptLines_iff {P : List Char → Prop} (hP : ¬ P []) (cs : List Char) :
    (∃ l ∈ (keptLines cs).dropLast, P l) ↔ ∃ l, IsFollowed cs l ∧ P (dropReturn l) := by
  induction cs using line_induction with
  | single cs hcs =>
    have hshort : (keptLines cs).dropLast = [] := by
      rw [keptLines, lines_of_notMem hcs]
      by_cases h : cs = [] <;> simp [h]
    simp [hshort, not_isFollowed_of_notMem hcs]
  | cons first rest hfirst ih =>
    -- the first line is dropped as the last one only if no line is kept behind it
    have hhead : (∃ l ∈ (keptLines (first ++ '\n' :: rest)).dropLast, P l) ↔
        keptLines rest ≠ [] ∧ P (dropReturn first) ∨ ∃ l ∈ (keptLines rest).dropLast, P l := by
      rw [keptLines_append_cons hfirst]
      by_cases hkept : keptLines rest = []
      · rw [hkept]
        split <;> simp
      · split
        · next hempty => simp [hempty, hP]
        · simp [List.dropLast_cons_of_ne_nil hkept, hkept]
    rw [hhead, ih]
    simp only [isFollowed_append_cons hfirst, or_and_right, exists_or, and_assoc, exists_eq_left]

/-- Two carriage returns stand before a line feed with a line behind exactly if some kept line
before the last one ends in a carriage return. -/
theorem exists_doubled_iff (cs : List Char) :
    (∃ a b, cs = a ++ ['\r', '\r', '\n'] ++ b ∧ keptLines b ≠ []) ↔
      ∃ l ∈ (keptLines cs).dropLast, l.getLast? = some '\r' := by
  rw [exists_mem_dropLast_keptLines_iff (by simp)]
  simp only [getLast?_dropReturn_eq_iff]
  constructor
  · rintro ⟨a, b, rfl, hb⟩
    obtain ⟨a, front, rfl, ha, hfront⟩ := exists_lastLine a
    exact ⟨front ++ ['\r', '\r'], ⟨a, b, by simp, ha, by simp [hfront], hb⟩, front, rfl⟩
  · rintro ⟨-, ⟨a, b, rfl, -, -, hb⟩, front, rfl⟩
    exact ⟨a ++ front, b, by simp, hb⟩

/-- Two carriage returns alone stand before a line feed with a line behind exactly if some kept line
before the last one is a carriage return. -/
theorem exists_lone_iff (cs : List Char) :
    (∃ a b, cs = a ++ ['\r', '\r', '\n'] ++ b ∧ (a = [] ∨ a.getLast? = some '\n') ∧
      keptLines b ≠ []) ↔ ∃ l ∈ (keptLines cs).dropLast, l = ['\r'] := by
  rw [exists_mem_dropLast_keptLines_iff (by simp)]
  simp only [dropReturn_eq_singleton_iff]
  constructor
  · rintro ⟨a, b, rfl, ha, hb⟩
    exact ⟨['\r', '\r'], ⟨a, b, by simp, ha, by decide, hb⟩, rfl⟩
  · rintro ⟨-, ⟨a, b, rfl, ha, -, hb⟩, rfl⟩
    exact ⟨a, b, by simp, ha, hb⟩

end Chars

namespace Text

/-- Two carriage returns stand in front of a line feed, and a line that is not empty comes behind.
-/
def HasDoubledReturn (s : String) : Prop :=
  ∃ a b, s = a ++ "\r\r\n" ++ b ∧ ∃ l ∈ lines b, l ≠ ""

/-- Two carriage returns are all that stands in front of a line feed, and a line that is not empty
comes behind. -/
def HasLoneReturn (s : String) : Prop :=
  ∃ a b, s = a ++ "\r\r\n" ++ b ∧ (a = "" ∨ endsWith a "\n" = true) ∧ ∃ l ∈ lines b, l ≠ ""

/-- The lines of a text that are not empty are those that are kept. -/
theorem filter_lines_ne_empty (s : String) :
    (lines s).filter (· ≠ "") = (Chars.keptLines s.toList).map String.ofList := by
  rw [lines, List.filter_map, Chars.keptLines]
  congr 2
  funext l
  rw [Bool.eq_iff_iff]
  simp

/-- A text has a line that is not empty exactly if a line is kept. -/
theorem exists_ne_empty_iff (s : String) :
    (∃ l ∈ lines s, l ≠ "") ↔ Chars.keptLines s.toList ≠ [] := by
  rw [Ne, ← List.map_eq_nil_iff (f := String.ofList), ← filter_lines_ne_empty,
    List.filter_eq_nil_iff]
  simp

/-- A doubled carriage return leaves one at the end of a kept line. -/
theorem hasDoubledReturn_iff (s : String) : HasDoubledReturn s ↔
    ∃ l ∈ (Chars.keptLines s.toList).dropLast, l.getLast? = some '\r' := by
  rw [← Chars.exists_doubled_iff]
  constructor
  · rintro ⟨a, b, rfl, hb⟩
    exact ⟨a.toList, b.toList, by simp, (exists_ne_empty_iff b).1 hb⟩
  · rintro ⟨a, b, hs, hb⟩
    refine ⟨String.ofList a, String.ofList b, ?_, (exists_ne_empty_iff _).2 (by simpa using hb)⟩
    rw [← String.toList_inj]
    simpa using hs

/-- A lone pair of carriage returns leaves a kept line of one. -/
theorem hasLoneReturn_iff (s : String) : HasLoneReturn s ↔
    ∃ l ∈ (Chars.keptLines s.toList).dropLast, l = ['\r'] := by
  have hends : ∀ a : String, endsWith a "\n" = true ↔ a.toList.getLast? = some '\n' := by
    intro a
    rw [endsWith, List.isSuffixOf_iff_suffix, List.getLast?_eq_some_iff]
    exact ⟨fun ⟨front, h⟩ => ⟨front, h.symm⟩, fun ⟨front, h⟩ => ⟨front, h.symm⟩⟩
  rw [← Chars.exists_lone_iff]
  constructor
  · rintro ⟨a, b, rfl, ha, hb⟩
    exact ⟨a.toList, b.toList, by simp, ha.imp (by simp) (hends a).1, (exists_ne_empty_iff b).1 hb⟩
  · rintro ⟨a, b, hs, ha, hb⟩
    refine ⟨String.ofList a, String.ofList b, ?_, ?_, (exists_ne_empty_iff _).2 (by simpa using hb)⟩
    · rw [← String.toList_inj]
      simpa using hs
    · rw [hends, String.toList_ofList]
      exact ha.imp (by simp) id

/-- Removing the empty lines of a text leaves its other lines as they are, and nothing to remove,
exactly if no line that ends in a carriage return has a line behind it that is not empty.  It leaves
no empty line exactly if no such line consists of the carriage return alone. -/
theorem lines_removeBlankLines_iff (s : String) :
    (lines (removeBlankLines s) = (lines s).filter (· ≠ "") ↔ ¬ HasDoubledReturn s) ∧
      ("" ∉ lines (removeBlankLines s) ↔ ¬ HasLoneReturn s) ∧
      (removeBlankLines (removeBlankLines s) = removeBlankLines s ↔ ¬ HasDoubledReturn s) := by
  have hsame : lines (removeBlankLines s) = (lines s).filter (· ≠ "") ↔ ¬ HasDoubledReturn s := by
    rw [filter_lines_ne_empty, hasDoubledReturn_iff, ← Chars.lines_removeBlankLines_eq_iff, lines,
      removeBlankLines, String.toList_ofList]
    exact List.map_inj_right fun a b => String.ofList_inj.1
  refine ⟨hsame, ?_, ?_⟩
  · rw [hasLoneReturn_iff, ← Chars.nil_mem_lines_removeBlankLines_iff, lines, removeBlankLines,
      String.toList_ofList, List.mem_map]
    simp
  · rw [hasDoubledReturn_iff, ← Chars.lines_removeBlankLines_eq_iff,
      ← Chars.removeBlankLines_idem_iff]
    simp only [removeBlankLines, String.toList_ofList]
    exact String.ofList_inj

/-- A line that is a carriage return becomes an empty one when the next line is joined to it. -/
theorem lines_removeBlankLines_lone_return :
    lines (removeBlankLines "\r\r\nx") ≠ (lines "\r\r\nx").filter (· ≠ "") ∧
      lines (removeBlankLines "\r\r\nx") = ["", "x"] ∧
      removeBlankLines (removeBlankLines "\r\r\nx") ≠ removeBlankLines "\r\r\nx" := by
  decide

end Text

end Registrar
