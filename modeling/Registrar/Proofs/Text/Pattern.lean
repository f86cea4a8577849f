/-
# What a pattern stands for

A pattern stands for every text that it becomes when each `*` in it is replaced by a run of characters
of its own.  The matching looks for the pieces of the pattern from left to right, takes the earliest
place of each and never goes back.  It misses nothing: what stands behind a later place of a piece is
the end of what stands behind the earliest one, and the run before the next piece can take up the rest.
-/
import Registrar.Proofs.Text.Search
import Registrar.Text.Pattern

namespace Registrar.Pattern

/-- A text that a pattern becomes when each `*` is replaced by some run of characters, which may be
empty, and every other character stays. -/
inductive StandsFor : List Char → List Char → Prop where
  | nil : StandsFor [] []
  | star (run : List Char) {pattern name : List Char} (h : StandsFor pattern name) :
      StandsFor ('*' :: pattern) (run ++ name)
  | literal {c : Char} (hc : c ≠ '*') {pattern name : List Char} (h : StandsFor pattern name) :
      StandsFor (c :: pattern) (c :: name)

/-! ## Pieces that are laid into a text -/

/-- A text that consists of some pieces in their order, each behind a run of characters. -/
inductive Laid : List (List Char) → List Char → Prop where
  | nil : Laid [] []
  | cons (run piece : List Char) {pieces : List (List Char)} {rest : List Char}
      (h : Laid pieces rest) : Laid (piece :: pieces) (run ++ piece ++ rest)

/-- The run before the first piece can be longer. -/
theorem Laid.append_left {piece : List Char} {pieces : List (List Char)} {cs : List Char}
    (h : Laid (piece :: pieces) cs) (front : List Char) : Laid (piece :: pieces) (front ++ cs) := by
  cases h with
  | cons run _ hrest =>
    have h1 := Laid.cons (front ++ run) piece hrest
    rw [List.append_assoc, List.append_assoc] at h1
    rw [List.append_assoc]
    exact h1

theorem laid_nil_iff (cs : List Char) : Laid [] cs ↔ cs = [] := by
  constructor
  · rintro ⟨⟩
    rfl
  · rintro rfl
    exact .nil

/-- A last piece is laid into a text exactly if the text ends in it. -/
theorem laid_singleton_iff (piece cs : List Char) : Laid [piece] cs ↔ piece <:+ cs := by
  constructor
  · intro h
    cases h with
    | cons run _ hrest =>
      obtain rfl := (laid_nil_iff _).1 hrest
      rw [List.append_nil]
      exact List.suffix_append run piece
  · rintro ⟨run, rfl⟩
    have h := Laid.cons run piece .nil
    rw [List.append_nil] at h
    exact h

/-- The earliest place of a piece is as good as any other one: if the pieces can be laid into a text at
all, then the ones that follow can be laid into what stands behind the earliest place. -/
theorem Laid.of_breakOn? {piece next : List Char} {pieces : List (List Char)}
    {cs before after : List Char} (h : Laid (piece :: next :: pieces) cs)
    (hbreak : Chars.breakOn? piece cs = some (before, after)) : Laid (next :: pieces) after := by
  cases h with
  | cons run _ hrest =>
    obtain ⟨front, rfl⟩ := Chars.isSuffix_of_breakOn?_append hbreak
    exact hrest.append_left front

/-- The search for the earliest places finds out whether the pieces can be laid into a text. -/
theorem fits_iff_laid (pieces : List (List Char)) (cs : List Char) :
    fits pieces cs = true ↔ Laid pieces cs := by
  induction pieces generalizing cs with
  | nil => rw [fits, List.isEmpty_iff, laid_nil_iff]
  | cons piece pieces ih =>
    cases pieces with
    | nil => rw [fits, List.isSuffixOf_iff_suffix, laid_singleton_iff]
    | cons next pieces =>
      cases hbreak : Chars.breakOn? piece cs with
      | none =>
        have hnot : ¬ Laid (piece :: next :: pieces) cs := by
          rintro ⟨run, _, -⟩
          exact Chars.breakOn?_append_ne_none _ _ _ hbreak
        simp [fits, hbreak, hnot]
      | some sides =>
        obtain ⟨before, after⟩ := sides
        have hfits : fits (piece :: next :: pieces) cs = fits (next :: pieces) after := by
          rw [fits, hbreak]
          simp
        -- the earliest place is one place for the piece, and no other one leaves more behind it
        rw [hfits, ih]
        constructor
        · intro h
          rw [Chars.eq_append_of_breakOn? hbreak]
          exact .cons before piece h
        · intro h
          exact h.of_breakOn? hbreak

/-! ## The whole pattern -/

/-- A pattern that is split at its stars stands for what its first piece begins and the others are
laid into. -/
theorem standsFor_iff_laid {pattern first : List Char} {pieces : List (List Char)}
    (hsplit : Chars.splitOn '*' pattern = first :: pieces) (name : List Char) :
    StandsFor pattern name ↔ ∃ rest, name = first ++ rest ∧ Laid pieces rest := by
  -- a star opens a new piece, and any other character belongs to the first one
  induction pattern generalizing first pieces name with
  | nil =>
    obtain ⟨rfl, rfl⟩ : [] = first ∧ [] = pieces := by simpa [Chars.splitOn] using hsplit
    constructor
    · rintro ⟨⟩
      exact ⟨[], rfl, .nil⟩
    · rintro ⟨rest, rfl, hlaid⟩
      rw [(laid_nil_iff _).1 hlaid]
      exact .nil
  | cons c pattern ih =>
    obtain ⟨first', pieces', hrest⟩ :=
      List.exists_cons_of_ne_nil (Chars.splitOn_ne_nil '*' pattern)
    by_cases hc : c = '*'
    · subst hc
      obtain ⟨rfl, rfl⟩ : [] = first ∧ first' :: pieces' = pieces := by
        simpa [Chars.splitOn, hrest] using hsplit
      constructor
      · intro h
        cases h with
        | star run h =>
          obtain ⟨rest, rfl, hlaid⟩ := (ih hrest _).1 h
          exact ⟨_, rfl, by simpa using Laid.cons run first' hlaid⟩
        | literal hne _ => exact absurd rfl hne
      · rintro ⟨rest, rfl, hlaid⟩
        cases hlaid with
        | cons run _ hlaid =>
          have h := StandsFor.star run ((ih hrest _).2 ⟨_, rfl, hlaid⟩)
          simpa using h
    · obtain ⟨rfl, rfl⟩ : c :: first' = first ∧ pieces' = pieces := by
        simpa [Chars.splitOn, hrest, hc] using hsplit
      constructor
      · intro h
        cases h with
        | star run h => exact absurd rfl hc
        | literal _ h =>
          obtain ⟨rest, rfl, hlaid⟩ := (ih hrest _).1 h
          exact ⟨rest, rfl, hlaid⟩
      · rintro ⟨rest, rfl, hlaid⟩
        exact .literal hc ((ih hrest _).2 ⟨rest, rfl, hlaid⟩)

/-- The matching lays the pieces behind the first one into what remains of the name. -/
theorem accepts_iff_laid {pattern first : List Char} {pieces : List (List Char)}
    (hsplit : Chars.splitOn '*' pattern = first :: pieces) (name : List Char) :
    accepts pattern name = true ↔ ∃ rest, name = first ++ rest ∧ Laid pieces rest := by
  have haccepts : accepts pattern name = (first.isPrefixOf? name).any (fits pieces) := by
    simp only [accepts, hsplit]
    cases first.isPrefixOf? name <;> rfl
  rw [haccepts]
  simp only [Option.any_eq_true, Chars.isPrefixOf?_eq_some_iff, fits_iff_laid]

/-- The matching accepts a name exactly if the pattern stands for it. -/
theorem matchesName_iff_standsFor (pattern name : String) :
    matchesName pattern name = true ↔ StandsFor pattern.toList name.toList := by
  obtain ⟨first, pieces, hsplit⟩ :=
    List.exists_cons_of_ne_nil (Chars.splitOn_ne_nil '*' pattern.toList)
  rw [matchesName, accepts_iff_laid hsplit, standsFor_iff_laid hsplit]

/-- The first `ab` is not the one that the pattern ends in. -/
example : matchesName "*a*ab" "abaab" = true := by decide

end Registrar.Pattern
