/-
# The pieces of a path

What stands between the slashes of a path, of a path that is written behind another one, and of the
part of a path that leads to the directory of its entry.
-/
import Mathlib.Data.List.TakeWhile
import Registrar.Path.Basic
import Registrar.Proofs.Text.Split

namespace Registrar

namespace Path

theorem pieces_ne_nil (p : Path) : p.pieces ≠ [] :=
  Chars.splitOn_ne_nil '/' p.text.toList

theorem endsInSlash_of_pieces {p : Path} {pieces : List (List Char)} (hne : pieces ≠ [])
    (h : p.pieces = pieces ++ [[]]) : p.endsInSlash = true :=
  decide_eq_true (Chars.getLast?_of_splitOn hne h)

/-! ## The front of a path -/

/-- The pieces of a path in front of the last one that is not empty. -/
def front (p : Path) : List (List Char) :=
  match p.pieces.reverse.dropWhile List.isEmpty with
  | [] => []
  | _ :: above => above.reverse

/-- Behind the last piece that is not empty there are empty ones only. -/
theorem pieces_eq_of_dropWhile {p : Path} {last : List Char} {above : List (List Char)}
    (h : p.pieces.reverse.dropWhile List.isEmpty = last :: above) :
    p.front = above.reverse ∧ ∃ back : List (List Char), (∀ piece ∈ back, piece = []) ∧
      p.pieces = p.front ++ last :: back := by
  have hfront : p.front = above.reverse := by
    unfold front
    rw [h]
  refine ⟨hfront, (p.pieces.reverse.takeWhile List.isEmpty).reverse, fun piece hpiece => ?_, ?_⟩
  · have hempty := List.mem_takeWhile_imp (List.mem_reverse.1 hpiece)
    exact List.isEmpty_iff.1 hempty
  · have hsplit := List.takeWhile_append_dropWhile (p := List.isEmpty) (l := p.pieces.reverse)
    rw [h] at hsplit
    have hpieces := congrArg List.reverse hsplit
    rw [List.reverse_reverse, List.reverse_append, List.reverse_cons] at hpieces
    rw [List.append_assoc] at hpieces
    rw [hfront]
    exact hpieces.symm

/-- Something stands behind the front of a path. -/
theorem exists_pieces_eq_front_append (p : Path) :
    ∃ back : List (List Char), back ≠ [] ∧ p.pieces = p.front ++ back := by
  cases h : p.pieces.reverse.dropWhile List.isEmpty with
  | nil =>
    refine ⟨p.pieces, p.pieces_ne_nil, ?_⟩
    unfold front
    rw [h]
    rfl
  | cons last above =>
    obtain ⟨-, back, -, hback⟩ := pieces_eq_of_dropWhile h
    exact ⟨last :: back, by simp, hback⟩

theorem front_eq_of_pieces {p : Path} {pieces : List (List Char)} {last : List Char}
    (hlast : last ≠ []) (h : p.pieces = pieces ++ [last]) : p.front = pieces := by
  unfold front
  rw [h, List.reverse_append, List.reverse_singleton, List.singleton_append,
    List.dropWhile_cons_of_neg (by simpa using hlast)]
  exact List.reverse_reverse pieces

/-! ## A path behind another one -/

/-- A name behind an absolute path is an absolute path, whatever the name. -/
theorem isAbsolute_div {p : Path} (hp : p.isAbsolute = true) (name : String) :
    (p / name).isAbsolute = true := by
  show (p.join ⟨name⟩).isAbsolute = true
  unfold join
  split
  · assumption
  · have hhead : p.text.toList.head? = some '/' := of_decide_eq_true hp
    obtain ⟨cs, hcs⟩ : ∃ cs, p.text.toList = '/' :: cs := by
      cases hlist : p.text.toList with
      | nil => exact absurd hhead (by simp [hlist])
      | cons c cs => exact ⟨cs, by simpa [hlist] using hhead⟩
    split
    · exact decide_eq_true (by simp [hcs])
    · exact decide_eq_true (by simp [hcs])

theorem isAbsolute_of_notMem {name : String} (hname : '/' ∉ name.toList) :
    (⟨name⟩ : Path).isAbsolute = false := by
  apply decide_eq_false
  intro hhead
  exact hname (List.mem_of_mem_head? hhead)

/-- A path begins as before if a relative one is written behind it. -/
theorem isAbsolute_join_of_ne {p q : Path} (hp : p.text ≠ "") (hq : q.isAbsolute = false) :
    (p.join q).isAbsolute = p.isAbsolute := by
  have hchars : p.text.toList ≠ [] := by simpa using hp
  unfold join
  rw [if_neg (by rw [hq]; simp)]
  unfold isAbsolute
  obtain ⟨c, cs, hcs⟩ := List.exists_cons_of_ne_nil hchars
  split <;> simp [hcs]

theorem isAbsolute_div_of_ne {p : Path} (hp : p.text ≠ "") {name : String}
    (hname : '/' ∉ name.toList) : (p / name).isAbsolute = p.isAbsolute :=
  isAbsolute_join_of_ne hp (isAbsolute_of_notMem hname)

/-- The pieces of a relative path behind a path that is not empty: they come last, in place of an
empty piece if there is one. -/
theorem pieces_join {p q : Path} (hp : p.text ≠ "") (hq : q.isAbsolute = false) :
    ∃ pieces, (p.pieces = pieces ∨ p.pieces = pieces ++ [[]]) ∧
      (p.join q).pieces = pieces ++ q.pieces := by
  unfold join
  rw [if_neg (by rw [hq]; simp)]
  have hempty : p.text.isEmpty = false := by simpa using hp
  rw [hempty, Bool.false_or]
  -- a slash at the end is the one that the name stands behind, otherwise one is put in between
  by_cases hslash : p.endsInSlash = true
  · have hlast : p.text.toList.getLast? = some '/' := of_decide_eq_true hslash
    obtain ⟨cs, hcs⟩ := List.getLast?_eq_some_iff.1 hlast
    refine ⟨Chars.splitOn '/' cs, Or.inr ?_, ?_⟩
    · show Chars.splitOn '/' p.text.toList = _
      rw [hcs, Chars.splitOn_append_cons]
      rfl
    · rw [if_pos hslash]
      show Chars.splitOn '/' (p.text ++ q.text).toList = Chars.splitOn '/' cs ++ q.pieces
      rw [String.toList_append, hcs, List.append_assoc, List.singleton_append,
        Chars.splitOn_append_cons]
      rfl
  · refine ⟨p.pieces, Or.inl rfl, ?_⟩
    rw [if_neg hslash]
    show Chars.splitOn '/' (p.text ++ "/" ++ q.text).toList = p.pieces ++ q.pieces
    have hmark : "/".toList = ['/'] := rfl
    rw [String.toList_append, String.toList_append, hmark, List.append_assoc,
      List.singleton_append, Chars.splitOn_append_cons]
    rfl

/-- The pieces of a name behind a path that is not empty: the name comes last, in place of an empty
piece if there is one. -/
theorem pieces_div {p : Path} (hp : p.text ≠ "") {name : String} (hname : '/' ∉ name.toList) :
    ∃ pieces, (p.pieces = pieces ∨ p.pieces = pieces ++ [[]]) ∧
      (p / name).pieces = pieces ++ [name.toList] := by
  obtain ⟨pieces, hpieces, hjoin⟩ := pieces_join hp (isAbsolute_of_notMem hname)
  have hone : (⟨name⟩ : Path).pieces = [name.toList] := Chars.splitOn_of_notMem hname
  rw [hone] at hjoin
  exact ⟨pieces, hpieces, hjoin⟩

end Path

end Registrar
