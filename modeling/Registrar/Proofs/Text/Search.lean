/-
# First occurrences

A search for a separator succeeds as soon as the text holds it, and finds its first occurrence: no
other one has less in front of it, and whatever stands behind another one ends what stands behind
the first.
-/
import Registrar.Text.Search

namespace Registrar.Chars

theorem isPrefixOf?_append (l cs : List Char) : l.isPrefixOf? (l ++ cs) = some cs := by
  induction l with
  | nil => rfl
  | cons a l ih =>
    show (if a == a then l.isPrefixOf? (l ++ cs) else none) = some cs
    rw [beq_self_eq_true, if_pos rfl, ih]

/-- A text begins with another one exactly if it is that one and what remains. -/
theorem isPrefixOf?_eq_some_iff (l cs rest : List Char) :
    l.isPrefixOf? cs = some rest ↔ cs = l ++ rest := by
  constructor
  · exact eq_append_of_isPrefixOf?
  · rintro rfl
    exact isPrefixOf?_append l rest

/-- What stands before the first separator is no longer than what stands before any other one. -/
theorem length_le_of_breakOn?_append {separator before after b a : List Char}
    (h : breakOn? separator (b ++ separator ++ a) = some (before, after)) :
    before.length ≤ b.length := by
  induction b generalizing before after with
  | nil =>
    cases hcs : [] ++ separator ++ a with
    | nil =>
      rw [hcs, breakOn?] at h
      split at h <;> simp_all
    | cons c cs =>
      have hprefix : separator.isPrefixOf? (c :: cs) = some a := by
        rw [← hcs]
        exact isPrefixOf?_append separator a
      rw [hcs, breakOn?, hprefix] at h
      obtain ⟨rfl, -⟩ := Prod.mk.inj (Option.some.inj h)
      exact Nat.le_refl 0
  | cons c b ih =>
    rw [List.cons_append, List.cons_append, breakOn?] at h
    split at h
    · obtain ⟨rfl, -⟩ := Prod.mk.inj (Option.some.inj h)
      exact Nat.zero_le _
    · rw [Option.map_eq_some_iff] at h
      obtain ⟨⟨before', after'⟩, hrest, heq⟩ := h
      obtain ⟨rfl, -⟩ := Prod.mk.inj heq
      exact Nat.succ_le_succ (ih hrest)

/-- A text is broken in two as soon as there is a separator in it. -/
theorem breakOn?_append_ne_none (separator b a : List Char) :
    breakOn? separator (b ++ separator ++ a) ≠ none := by
  induction b with
  | nil =>
    cases hcs : [] ++ separator ++ a with
    | nil =>
      have hseparator : separator = [] := by simp_all
      rw [breakOn?, if_pos hseparator]
      simp
    | cons c cs =>
      have hprefix : separator.isPrefixOf? (c :: cs) = some a := by
        rw [← hcs]
        exact isPrefixOf?_append separator a
      rw [breakOn?, hprefix]
      simp
  | cons c b ih =>
    rw [List.cons_append, List.cons_append, breakOn?]
    split
    · simp
    · rw [Ne, Option.map_eq_none_iff]
      exact ih

/-- No text is broken in two that holds no separator. -/
theorem breakOn?_eq_none_iff (separator cs : List Char) :
    breakOn? separator cs = none ↔ ∀ before after, cs ≠ before ++ separator ++ after := by
  constructor
  · rintro h before after rfl
    exact breakOn?_append_ne_none _ _ _ h
  · intro h
    rw [Option.eq_none_iff_forall_ne_some]
    exact fun (before, after) hbreak => h before after (eq_append_of_breakOn? hbreak)

/-- A text is broken in two at a separator with the least in front of it. -/
theorem breakOn?_eq_some_iff (separator cs before after : List Char) :
    breakOn? separator cs = some (before, after) ↔
      cs = before ++ separator ++ after ∧
        ∀ b a, cs = b ++ separator ++ a → before.length ≤ b.length := by
  constructor
  · intro h
    refine ⟨eq_append_of_breakOn? h, ?_⟩
    rintro b a rfl
    exact length_le_of_breakOn?_append h
  · rintro ⟨rfl, hfirst⟩
    obtain ⟨⟨b, a⟩, hbreak⟩ :=
      Option.ne_none_iff_exists'.1 (breakOn?_append_ne_none separator before after)
    -- neither of the two separators has less in front of it, so they are the same
    have hsides := eq_append_of_breakOn? hbreak
    have hlength : before.length = b.length :=
      Nat.le_antisymm (hfirst b a hsides) (length_le_of_breakOn?_append hbreak)
    rw [List.append_assoc, List.append_assoc] at hsides
    obtain ⟨rfl, hrest⟩ := List.append_inj hsides hlength
    rw [hbreak, List.append_cancel_left hrest]

/-- What stands behind any separator is the end of what stands behind the first one. -/
theorem isSuffix_of_breakOn?_append {separator before after b a : List Char}
    (h : breakOn? separator (b ++ separator ++ a) = some (before, after)) : a <:+ after := by
  have hsides := eq_append_of_breakOn? h
  have hle := length_le_of_breakOn?_append h
  have hlength := congrArg List.length hsides
  simp only [List.length_append] at hlength
  have ha : a <:+ b ++ separator ++ a := List.suffix_append _ a
  have hafter : after <:+ b ++ separator ++ a := by
    rw [hsides]
    exact List.suffix_append _ after
  exact List.suffix_of_suffix_length_le ha hafter (by omega)

/-- A character that does not stand in a text is first found right behind it. -/
theorem breakOn?_append_cons {mark : Char} {before : List Char} (hbefore : mark ∉ before)
    (after : List Char) : breakOn? [mark] (before ++ mark :: after) = some (before, after) := by
  induction before with
  | nil =>
    have hprefix : [mark].isPrefixOf? (mark :: after) = some after :=
      isPrefixOf?_append [mark] after
    rw [List.nil_append, breakOn?, hprefix]
  | cons c before ih =>
    have hc : mark ≠ c := fun h => hbefore (h ▸ List.mem_cons_self)
    have hprefix : [mark].isPrefixOf? (c :: (before ++ mark :: after)) = none := by
      show (if mark == c then _ else none) = none
      rw [beq_false_of_ne hc]
      rfl
    rw [List.cons_append, breakOn?, hprefix, ih fun h => hbefore (List.mem_cons_of_mem c h)]
    rfl

/-- What stands before the first mark of a text, and behind it, is told by the text. -/
theorem append_cons_inj {mark : Char} {before before' after after' : List Char}
    (hbefore : mark ∉ before) (hbefore' : mark ∉ before')
    (h : before ++ mark :: after = before' ++ mark :: after') :
    before = before' ∧ after = after' := by
  have hbreak := breakOn?_append_cons hbefore after
  rw [h, breakOn?_append_cons hbefore' after'] at hbreak
  obtain ⟨hb, ha⟩ := Prod.mk.inj (Option.some.inj hbreak)
  exact ⟨hb.symm, ha.symm⟩

/-- A text holds another one exactly if that one is a stretch of it. -/
theorem contains_iff_isInfix (part cs : List Char) : contains part cs = true ↔ part <:+: cs := by
  rw [contains, Option.isSome_iff_exists]
  constructor
  · rintro ⟨⟨before, after⟩, h⟩
    exact ⟨before, after, (eq_append_of_breakOn? h).symm⟩
  · rintro ⟨before, after, rfl⟩
    exact Option.ne_none_iff_exists'.1 (breakOn?_append_ne_none part before after)

end Registrar.Chars

namespace Registrar.Text

theorem eq_append_iff (s before separator after : String) :
    s = before ++ separator ++ after ↔
      s.toList = before.toList ++ separator.toList ++ after.toList := by
  rw [← String.toList_inj, String.toList_append, String.toList_append]

theorem breakOn?_eq_none_iff (separator s : String) :
    breakOn? separator s = none ↔ ∀ before after, s ≠ before ++ separator ++ after := by
  rw [breakOn?, Option.map_eq_none_iff, Chars.breakOn?_eq_none_iff]
  simp only [Ne, eq_append_iff]
  constructor
  · exact fun h before after => h before.toList after.toList
  · intro h before after
    simpa using h (String.ofList before) (String.ofList after)

theorem breakOn?_eq_some_iff (separator s before after : String) :
    breakOn? separator s = some (before, after) ↔
      s = before ++ separator ++ after ∧
        ∀ b a, s = b ++ separator ++ a → before.length ≤ b.length := by
  have hchars : breakOn? separator s = some (before, after) ↔
      Chars.breakOn? separator.toList s.toList = some (before.toList, after.toList) := by
    rw [breakOn?, Option.map_eq_some_iff]
    constructor
    · rintro ⟨⟨b, a⟩, hbreak, heq⟩
      obtain ⟨rfl, rfl⟩ := Prod.mk.inj heq
      rw [hbreak, String.toList_ofList, String.toList_ofList]
    · intro hbreak
      refine ⟨_, hbreak, ?_⟩
      simp only [String.ofList_toList]
  rw [hchars, Chars.breakOn?_eq_some_iff]
  simp only [eq_append_iff, ← String.length_toList]
  refine and_congr_right fun _ => ⟨fun h b a => h b.toList a.toList, fun h b a => ?_⟩
  simpa using h (String.ofList b) (String.ofList a)

theorem contains_iff_isInfix (s part : String) :
    contains s part = true ↔ part.toList <:+: s.toList :=
  Chars.contains_iff_isInfix part.toList s.toList

end Registrar.Text
