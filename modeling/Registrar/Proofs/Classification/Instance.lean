/-
# Bases that are instances

A base may be an instance of a template, with arguments in angle brackets behind its name.  A target
without arguments matches a base exactly if it is what stands in front of the first bracket of the
base, up to blanks.  So a longer name with the same beginning is not matched, and brackets among the
arguments do not matter.  A target that has arguments matches nothing but itself.
-/
import Mathlib.Data.List.DropRight
import Mathlib.Data.List.Infix
import Registrar.Classification
import Registrar.Proofs.Text.Search

namespace Registrar

namespace Chars

/-! ## The front of a text -/

theorem takeWhile_ne_of_notMem {mark : Char} {cs : List Char} (h : mark ∉ cs) :
    cs.takeWhile (· ≠ mark) = cs := by
  rw [List.takeWhile_eq_self_iff]
  intro c hc
  exact decide_eq_true fun heq => h (heq ▸ hc)

/-- What stands before the first mark. -/
theorem takeWhile_ne_append_cons {mark : Char} {before : List Char} (h : mark ∉ before)
    (after : List Char) : (before ++ mark :: after).takeWhile (· ≠ mark) = before := by
  have hbefore : ∀ c ∈ before, decide (c ≠ mark) = true :=
    fun c hc => decide_eq_true fun heq => h (heq ▸ hc)
  rw [List.takeWhile_append_of_pos hbefore, List.takeWhile_cons_of_neg (by simp), List.append_nil]

/-! ## Blanks at an end -/

theorem trimEnd_append_of_blank {blanks : List Char} (h : ∀ c ∈ blanks, isBlank c = true)
    (cs : List Char) : trimEnd (cs ++ blanks) = trimEnd cs := by
  unfold trimEnd
  rw [List.reverse_append,
    List.dropWhile_append_of_pos fun c hc => h c (List.mem_reverse.1 hc)]

/-- Nothing but blanks is lost at the end. -/
theorem exists_blanks_of_trimEnd (cs : List Char) :
    ∃ blanks, cs = trimEnd cs ++ blanks ∧ ∀ c ∈ blanks, isBlank c = true :=
  ⟨cs.rtakeWhile isBlank, List.rdropWhile_append_rtakeWhile.symm,
    fun _ hc => List.mem_rtakeWhile_imp hc⟩

theorem trimEnd_trim (cs : List Char) : trimEnd (trim cs) = trim cs :=
  List.rdropWhile_idempotent isBlank (trimStart cs)

/-- The first character that is no blank has only blanks in front of it. -/
theorem head?_trimStart_eq_some_iff {mark : Char} (hmark : isBlank mark = false)
    (cs : List Char) : (trimStart cs).head? = some mark ↔
      ∃ blanks rest, cs = blanks ++ mark :: rest ∧ ∀ c ∈ blanks, isBlank c = true := by
  unfold trimStart
  constructor
  · intro h
    obtain ⟨rest, hrest⟩ := List.head?_eq_some_iff.1 h
    refine ⟨cs.takeWhile isBlank, rest, ?_, fun c hc => List.mem_takeWhile_imp hc⟩
    rw [← hrest, List.takeWhile_append_dropWhile]
  · rintro ⟨blanks, rest, rfl, hblanks⟩
    rw [List.dropWhile_append_of_pos hblanks, List.dropWhile_cons_of_neg (by simp [hmark])]
    rfl

/-! ## Instances -/

/-- A name that goes on with the arguments of an instance behind a target: at most blanks stand
between the two. -/
def IsInstanceOf (target name : List Char) : Prop :=
  ∃ blanks arguments, name = target ++ blanks ++ '<' :: arguments ∧
    ∀ c ∈ blanks, isBlank c = true

theorem IsInstanceOf.mem {target name : List Char} (h : IsInstanceOf target name) : '<' ∈ name := by
  obtain ⟨blanks, arguments, rfl, -⟩ := h
  exact List.mem_append_right _ List.mem_cons_self

/-- The first bracket of an instance is the one that its arguments begin with. -/
theorem IsInstanceOf.before_eq {target before after : List Char} (htarget : '<' ∉ target)
    (hbefore : '<' ∉ before) (h : IsInstanceOf target (before ++ '<' :: after)) :
    ∃ blanks, before = target ++ blanks ∧ ∀ c ∈ blanks, isBlank c = true := by
  obtain ⟨blanks, arguments, heq, hblanks⟩ := h
  refine ⟨blanks, ?_, hblanks⟩
  have hfront : '<' ∉ target ++ blanks := by
    rw [List.mem_append, not_or]
    refine ⟨htarget, fun hmem => ?_⟩
    exact absurd (hblanks '<' hmem) (by decide)
  exact (append_cons_inj hbefore hfront heq).1

/-- An instance begins with the target, and the first character behind it that is no blank is a
bracket. -/
theorem isInstanceOf_iff (target name : List Char) : IsInstanceOf target name ↔
    ∃ rest, target.isPrefixOf? name = some rest ∧ (trimStart rest).head? = some '<' := by
  constructor
  · rintro ⟨blanks, arguments, rfl, hblanks⟩
    refine ⟨blanks ++ '<' :: arguments, ?_, ?_⟩
    · rw [List.append_assoc, isPrefixOf?_append]
    · rw [head?_trimStart_eq_some_iff (by decide)]
      exact ⟨blanks, arguments, rfl, hblanks⟩
  · rintro ⟨rest, hprefix, hhead⟩
    obtain ⟨blanks, arguments, rfl, hblanks⟩ := (head?_trimStart_eq_some_iff (by decide) _).1 hhead
    refine ⟨blanks, arguments, ?_, hblanks⟩
    rw [eq_append_of_isPrefixOf? hprefix, List.append_assoc]

/-- A trimmed name without its arguments is a target exactly if the name is the target or an
instance of it. -/
theorem trimEnd_takeWhile_eq_iff {target name : List Char} (htarget : '<' ∉ target)
    (hend : trimEnd target = target) (hname : trimEnd name = name) :
    trimEnd (name.takeWhile (· ≠ '<')) = target ↔ name = target ∨ IsInstanceOf target name := by
  by_cases hmem : '<' ∈ name
  · obtain ⟨before, after, rfl, hbefore⟩ := List.eq_append_cons_of_mem hmem
    rw [takeWhile_ne_append_cons hbefore]
    constructor
    · intro h
      obtain ⟨blanks, hblanks, hall⟩ := exists_blanks_of_trimEnd before
      rw [h] at hblanks
      exact .inr ⟨blanks, after, by rw [hblanks], hall⟩
    · rintro (heq | hinstance)
      · exact absurd (heq ▸ hmem) htarget
      · obtain ⟨blanks, rfl, hall⟩ := hinstance.before_eq htarget hbefore
        rw [trimEnd_append_of_blank hall, hend]
  · -- there are no arguments, so the name is taken as a whole
    rw [takeWhile_ne_of_notMem hmem, hname]
    exact (or_iff_left fun hinstance => hmem hinstance.mem).symm

end Chars

/-- A target without arguments matches its instances as well. -/
theorem baseNameMatches_iff (baseName target : String) :
    baseNameMatches baseName target = true ↔ Text.trim baseName = target ∨
      '<' ∉ target.toList ∧ Chars.IsInstanceOf target.toList (Text.trim baseName).toList := by
  have hbracket : Text.contains target "<" = true ↔ '<' ∈ target.toList := by
    rw [Text.contains_iff_isInfix]
    exact List.singleton_infix_iff _ _
  rw [baseNameMatches, Text.dropStart?, Chars.isInstanceOf_iff, ← hbracket]
  cases target.toList.isPrefixOf? (Text.trim baseName).toList with
  | none => simp
  | some rest => simp

/-- A name without the arguments of an instance: what stands before its first bracket, or all of it
if there is none, without blanks at the ends. -/
def Name.withoutArguments (name : String) : String :=
  String.ofList (Chars.trimEnd ((Text.trim name).toList.takeWhile (· ≠ '<')))

theorem Name.toList_withoutArguments (name : String) : (Name.withoutArguments name).toList =
    Chars.trimEnd ((Text.trim name).toList.takeWhile (· ≠ '<')) :=
  String.toList_ofList

/-- A target without arguments, and without blanks around it, matches the bases that are left with
it when they lose their arguments.  A target with arguments matches a base that it is itself. -/
theorem baseNameMatches_iff_withoutArguments (baseName target : String) :
    ('<' ∉ target.toList → Text.trim target = target →
      (baseNameMatches baseName target = true ↔ Name.withoutArguments baseName = target)) ∧
    ('<' ∈ target.toList →
      (baseNameMatches baseName target = true ↔ Text.trim baseName = target)) := by
  refine ⟨fun hbracket htrim => ?_, fun hbracket => ?_⟩
  · have hend : Chars.trimEnd target.toList = target.toList := by
      rw [← htrim, Text.toList_trim, Chars.trimEnd_trim]
    have hname : Chars.trimEnd (Text.trim baseName).toList = (Text.trim baseName).toList := by
      rw [Text.toList_trim, Chars.trimEnd_trim]
    calc baseNameMatches baseName target = true
        ↔ (Text.trim baseName).toList = target.toList ∨
            Chars.IsInstanceOf target.toList (Text.trim baseName).toList := by
          rw [baseNameMatches_iff, and_iff_right hbracket, String.toList_inj]
      _ ↔ (Name.withoutArguments baseName).toList = target.toList := by
          rw [Name.toList_withoutArguments,
            Chars.trimEnd_takeWhile_eq_iff hbracket hend hname]
      _ ↔ Name.withoutArguments baseName = target := String.toList_inj
  · rw [baseNameMatches_iff]
    exact or_iff_left fun h => h.1 hbracket

/-- Brackets among the arguments, and blanks in front of them, do not matter to a target without
arguments.  One with arguments is another name than the same template with others. -/
theorem baseNameMatches_nestedArguments :
    ('<' ∉ "System".toList ∧ Text.trim "System" = "System" ∧
      baseNameMatches " System < Physics, Components< RigidBody > > " "System" = true ∧
      baseNameMatches "SystemBase< Physics >" "System" ≠ true) ∧
    '<' ∈ "Component< A >".toList ∧ baseNameMatches " Component< A >" "Component< A >" = true ∧
      baseNameMatches "Component< B >" "Component< A >" ≠ true := by
  have hsystem : '<' ∉ "System".toList := by decide
  have htrim : Text.trim "System" = "System" := by decide
  have hcomponent : '<' ∈ "Component< A >".toList := by decide
  refine ⟨⟨hsystem, htrim, ?_, ?_⟩, hcomponent, ?_, ?_⟩
  · rw [(baseNameMatches_iff_withoutArguments _ _).1 hsystem htrim]
    decide
  · rw [Ne, (baseNameMatches_iff_withoutArguments _ _).1 hsystem htrim]
    decide
  · rw [(baseNameMatches_iff_withoutArguments _ _).2 hcomponent]
    decide
  · rw [Ne, (baseNameMatches_iff_withoutArguments _ _).2 hcomponent]
    decide

end Registrar
