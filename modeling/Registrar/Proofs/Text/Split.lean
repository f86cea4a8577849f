/-
# The pieces of a text

Splitting at a character parts a text at every place where the character stands, so no piece holds
it, and pieces that are joined by the character are found again.
-/
import Registrar.Text.Search

namespace Registrar.Chars

/-- The mark parts a text at every place where it stands. -/
theorem splitOn_append_cons (mark : Char) (cs ds : List Char) :
    splitOn mark (cs ++ mark :: ds) = splitOn mark cs ++ splitOn mark ds := by
  induction cs with
  | nil => simp [splitOn]
  | cons c cs ih =>
    by_cases hc : c = mark
    · simp [splitOn, hc, ih]
    · obtain ⟨piece, pieces, h⟩ := List.exists_cons_of_ne_nil (splitOn_ne_nil mark cs)
      simp [splitOn, hc, ih, h]

/-- A text without the mark is one piece. -/
theorem splitOn_of_notMem {mark : Char} {cs : List Char} (h : mark ∉ cs) :
    splitOn mark cs = [cs] := by
  induction cs with
  | nil => rfl
  | cons c cs ih =>
    rw [List.mem_cons, not_or] at h
    obtain ⟨hc, hcs⟩ := h
    simp [splitOn, Ne.symm hc, ih hcs]

theorem intercalate_concat (mark : Char) {pieces : List (List Char)} (hne : pieces ≠ [])
    (last : List Char) :
    [mark].intercalate (pieces ++ [last]) = [mark].intercalate pieces ++ mark :: last := by
  induction pieces with
  | nil => exact absurd rfl hne
  | cons piece pieces ih =>
    by_cases hpieces : pieces = []
    · simp [hpieces]
    · rw [List.cons_append, List.intercalate_cons_of_ne_nil (by simp), ih hpieces,
        List.intercalate_cons_of_ne_nil hpieces, List.append_assoc, List.append_assoc,
        List.append_assoc]

/-- The last piece of a text with several pieces is empty only if the mark stands at its end. -/
theorem getLast?_of_splitOn {mark : Char} {cs : List Char} {pieces : List (List Char)}
    (hne : pieces ≠ []) (h : splitOn mark cs = pieces ++ [[]]) : cs.getLast? = some mark := by
  have hcs := intercalate_splitOn mark cs
  rw [h, intercalate_concat mark hne] at hcs
  rw [← hcs, List.getLast?_concat]

/-- Pieces that are joined are found again. -/
theorem splitOn_intercalate {mark : Char} {pieces : List (List Char)} (hne : pieces ≠ [])
    (h : ∀ piece ∈ pieces, mark ∉ piece) : splitOn mark ([mark].intercalate pieces) = pieces := by
  induction pieces with
  | nil => exact absurd rfl hne
  | cons piece pieces ih =>
    have hpiece := splitOn_of_notMem (h piece List.mem_cons_self)
    by_cases hpieces : pieces = []
    · rw [hpieces, List.intercalate_singleton, hpiece]
    · have hrest := ih hpieces fun other hother => h other (List.mem_cons_of_mem piece hother)
      rw [List.intercalate_cons_of_ne_nil hpieces, List.append_assoc, List.singleton_append,
        splitOn_append_cons, hpiece, hrest]
      rfl

theorem notMem_of_mem_splitOn {mark : Char} {cs piece : List Char}
    (h : piece ∈ splitOn mark cs) : mark ∉ piece := by
  induction cs generalizing piece with
  | nil =>
    rw [List.mem_singleton.1 h]
    exact List.not_mem_nil
  | cons c cs ih =>
    obtain ⟨next, pieces, hnext⟩ := List.exists_cons_of_ne_nil (splitOn_ne_nil mark cs)
    rw [hnext] at ih
    -- the mark begins a piece, and any other character belongs to the next one
    by_cases hc : c = mark
    · rw [splitOn, if_pos hc, hnext] at h
      rcases List.mem_cons.1 h with rfl | h
      · exact List.not_mem_nil
      · exact ih h
    · simp only [splitOn, if_neg hc, hnext] at h
      rcases List.mem_cons.1 h with rfl | h
      · have hrest : mark ∉ next := ih (List.mem_cons_self)
        rw [List.mem_cons, not_or]
        exact ⟨Ne.symm hc, hrest⟩
      · exact ih (List.mem_cons_of_mem next h)

/-- A text consists of its pieces and the mark. -/
theorem mem_iff_of_ne {mark c : Char} (hc : c ≠ mark) (cs : List Char) :
    c ∈ cs ↔ ∃ piece ∈ splitOn mark cs, c ∈ piece := by
  induction cs with
  | nil => simp [splitOn]
  | cons d cs ih =>
    obtain ⟨next, pieces, hnext⟩ := List.exists_cons_of_ne_nil (splitOn_ne_nil mark cs)
    rw [hnext] at ih
    by_cases hd : d = mark
    · simp [splitOn, hd, hc, hnext, ih]
    · simp [splitOn, hd, hnext, ih, or_assoc]

end Registrar.Chars
