/-
# The members of templates after linking

Linking marks exactly the classes that are reached from a template by one or more steps, each from a
class to a class whose identifier stands among its inner classes.  The marking goes by turns, and a
turn may take any of the handles that are pending.  However they are taken, the marking comes to its
end with the same model, and after no more turns than twice the number of identifiers that are listed:
a class that was marked before adds nothing to what is pending, so it does not matter whether classes
are nested in a circle.
-/
import Mathlib.Algebra.BigOperators.Group.Finset.Basic
import Mathlib.Algebra.Order.BigOperators.Group.Finset
import Mathlib.Logic.Relation
import Registrar.Proofs.Linking.Effect

namespace Registrar

namespace Model

/-- Only what is pending counts for the outcome of the marking, and not in which order. -/
theorem markPending_congr {m : Model} {hs hs' : List Handle} (hmem : ∀ x, x ∈ hs ↔ x ∈ hs') :
    m.markPending hs = m.markPending hs' := by
  obtain ⟨marked, hmarked, hm⟩ := m.exists_markPending_eq_markAll hs
  obtain ⟨marked', hmarked', hm'⟩ := m.exists_markPending_eq_markAll hs'
  have heq : marked = marked' := by
    funext x
    rw [Bool.eq_iff_iff, hmarked, hmarked']
    exact ⟨fun hn => hn.mono fun y => (hmem y).1, fun hn => hn.mono fun y => (hmem y).2⟩
  rw [hm, hm', heq]

/-! ## How much a marking has before it -/

/-- How many handles the class at a place has still to add to the pending ones. -/
def unspent (m : Model) (h : Handle) : Nat :=
  match m.class? h with
  | none => 0
  | some c => if c.isWithinTemplate then 0 else (m.innerHandles c).length

/-- A class that is not marked has all of its inner classes to add. -/
theorem unspent_of_unmarked {m : Model} {h : Handle} {c : ClassType} (hc : m.class? h = some c)
    (hw : c.isWithinTemplate = false) : m.unspent h = (m.innerHandles c).length := by
  rw [unspent, hc]
  simp [hw]

/-- A class that is marked has nothing to add any more. -/
theorem unspent_markWithinTemplate_self (m : Model) (h : Handle) :
    (m.markWithinTemplate h).unspent h = 0 := by
  rw [unspent, markWithinTemplate, class?_modifyClass, if_pos rfl]
  cases m.class? h with
  | none => rfl
  | some c => rfl

/-- What the other classes have to add does not change. -/
theorem unspent_markWithinTemplate_of_ne {m : Model} {h x : Handle} (hne : x ≠ h) :
    (m.markWithinTemplate h).unspent x = m.unspent x := by
  rw [unspent, unspent, class?_markWithinTemplate_of_ne hne]
  simp only [innerHandles_markWithinTemplate]

/-- Marking a class takes away what it had to add. -/
theorem sum_unspent_markWithinTemplate {m : Model} {h : Handle} {c : ClassType}
    (hc : m.class? h = some c) (hw : c.isWithinTemplate = false) :
    ∑ x ∈ Finset.range m.size, (m.markWithinTemplate h).unspent x + (m.innerHandles c).length =
      ∑ x ∈ Finset.range m.size, m.unspent x := by
  have hmem : h ∈ Finset.range m.size := Finset.mem_range.2 (lt_size_of_class? hc)
  have hsplit : ∀ f : Nat → Nat, f h + ∑ x ∈ (Finset.range m.size).erase h, f x =
      ∑ x ∈ Finset.range m.size, f x :=
    fun f => Finset.add_sum_erase _ f hmem
  have hothers : ∑ x ∈ (Finset.range m.size).erase h, (m.markWithinTemplate h).unspent x =
      ∑ x ∈ (Finset.range m.size).erase h, m.unspent x :=
    Finset.sum_congr rfl fun x hx => unspent_markWithinTemplate_of_ne (Finset.ne_of_mem_erase hx)
  rw [← hsplit (m.markWithinTemplate h).unspent, ← hsplit m.unspent, hothers,
    unspent_markWithinTemplate_self, unspent_of_unmarked hc hw]
  omega

end Model

/-! ## Turns -/

/-- A marking under way: the model so far, and the handles that are pending. -/
structure Marking where
  model : Model
  pending : List Handle

namespace Marking

open Model

/-- One turn of a marking.  It takes one of the pending handles, and either there is nothing to mark
at it, or the class there is marked and what is nested in it becomes pending. -/
inductive Turn : Marking → Marking → Prop where
  | pass {m : Model} {h : Handle} {before after : List Handle}
      (hmarked : ∀ c, m.class? h = some c → c.isWithinTemplate = true) :
      Turn ⟨m, before ++ h :: after⟩ ⟨m, before ++ after⟩
  | mark {m : Model} {h : Handle} {c : ClassType} {before after pending : List Handle}
      (hc : m.class? h = some c) (hw : c.isWithinTemplate = false)
      (hperm : pending.Perm (m.innerHandles c ++ (before ++ after))) :
      Turn ⟨m, before ++ h :: after⟩ ⟨m.markWithinTemplate h, pending⟩

/-- So many turns one after the other. -/
inductive Turns : Nat → Marking → Marking → Prop where
  | refl (s : Marking) : Turns 0 s s
  | tail {n : Nat} {s t u : Marking} (hs : Turns n s t) (ht : Turn t u) : Turns (n + 1) s u

/-- The model that a marking comes to. -/
def outcome (s : Marking) : Model :=
  s.model.markPending s.pending

/-- How many turns are left: one for every handle that is pending or has still to be added. -/
def turnsLeft (s : Marking) : Nat :=
  s.pending.length + ∑ h ∈ Finset.range s.model.size, s.model.unspent h

/-- As long as handles are pending there is a turn to take. -/
theorem exists_turn {s : Marking} (hs : s.pending ≠ []) : ∃ t, Turn s t := by
  obtain ⟨m, pending⟩ := s
  obtain ⟨h, after, rfl⟩ := List.exists_cons_of_ne_nil hs
  by_cases hmarked : ∀ c, m.class? h = some c → c.isWithinTemplate = true
  · exact ⟨_, @Turn.pass m h [] after hmarked⟩
  · push Not at hmarked
    obtain ⟨c, hc, hw⟩ := hmarked
    exact ⟨_, @Turn.mark m h c [] after _ hc (Bool.eq_false_iff.2 hw) (List.Perm.refl _)⟩

/-- A turn does not change what the marking comes to. -/
theorem Turn.outcome_eq {s t : Marking} (ht : Turn s t) : t.outcome = s.outcome := by
  have hfront : ∀ (m : Model) (h : Handle) (before after : List Handle),
      m.markPending (before ++ h :: after) = m.markPending (h :: (before ++ after)) :=
    fun m h before after => markPending_congr fun x => List.perm_middle.mem_iff
  cases ht with
  | @pass m h before after hmarked =>
    rw [outcome, outcome, hfront]
    cases hc : m.class? h with
    | none => exact (markPending_cons_of_none hc _).symm
    | some c => exact (markPending_cons_of_marked hc (hmarked c hc) _).symm
  | @mark m h c before after pending hc hw hperm =>
    rw [outcome, outcome, hfront, markPending_cons_of_unmarked hc hw]
    exact markPending_congr fun x => hperm.mem_iff

/-- A turn takes one from the turns that are left. -/
theorem Turn.turnsLeft_eq {s t : Marking} (ht : Turn s t) : t.turnsLeft + 1 = s.turnsLeft := by
  cases ht with
  | pass _ =>
    simp only [turnsLeft, List.length_append, List.length_cons]
    omega
  | @mark m h c before after pending hc hw hperm =>
    have hsize : (m.markWithinTemplate h).size = m.size := size_mapClasses m _
    have hsum := sum_unspent_markWithinTemplate hc hw
    have hlength := hperm.length_eq
    simp only [turnsLeft, hsize, List.length_append, List.length_cons] at hlength ⊢
    omega

/-- Turns do not change what a marking comes to. -/
theorem Turns.outcome_eq {n : Nat} {s t : Marking} (hs : Turns n s t) : t.outcome = s.outcome := by
  induction hs with
  | refl s => rfl
  | tail _ ht ih => exact ht.outcome_eq.trans ih

/-- Each turn takes one from those that are left. -/
theorem Turns.turnsLeft_eq {n : Nat} {s t : Marking} (hs : Turns n s t) :
    t.turnsLeft + n = s.turnsLeft := by
  induction hs with
  | refl s => rfl
  | tail _ ht ih =>
    have hlast := ht.turnsLeft_eq
    omega

/-- A marking with nothing pending has come to its end. -/
theorem outcome_of_pending_eq_nil {s : Marking} (hs : s.pending = []) : s.outcome = s.model := by
  rw [outcome, hs, markPending]

end Marking

namespace Model

/-! ## The marking of a link -/

/-- How many identifiers of inner classes are listed. -/
def innerClassCount (m : Model) : Nat :=
  m.classes.foldr (fun c n => c.innerClasses.length + n) 0

/-- The marking that linking begins with. -/
def firstMarking (m : Model) : Marking :=
  ⟨m.resolveBases.inferEnumProperties, m.resolveBases.inferEnumProperties.templateMembers⟩

theorem outcome_firstMarking (m : Model) : m.firstMarking.outcome = m.link := rfl

/-- A class has no more inner classes than it lists identifiers. -/
theorem length_innerHandles_le (m : Model) (c : ClassType) :
    (m.innerHandles c).length ≤ c.innerClasses.length :=
  List.length_filterMap_le _ _

/-- No more classes are nested in templates right away than identifiers of inner classes are
listed. -/
theorem length_templateMembers_le (m : Model) : m.templateMembers.length ≤ m.innerClassCount := by
  have hall : ∀ cs : List ClassType,
      ((cs.filter ClassType.isTemplate).flatMap m.innerHandles).length ≤
        cs.foldr (fun c n => c.innerClasses.length + n) 0 := by
    intro cs
    induction cs with
    | nil => exact Nat.le_refl 0
    | cons c cs ih =>
      have hle := m.length_innerHandles_le c
      rw [List.filter_cons, List.foldr_cons]
      split
      · rw [List.flatMap_cons, List.length_append]
        omega
      · omega
  exact hall m.classes

/-- The identifiers that are listed may be counted class by class or handle by handle. -/
theorem innerClassCount_eq_sum (m : Model) :
    m.innerClassCount =
      ∑ h ∈ Finset.range m.size, ((m.class? h).elim 0 fun c => c.innerClasses.length) := by
  have hall : ∀ ds : List Declaration,
      (ds.filterMap Declaration.class?).foldr (fun c n => c.innerClasses.length + n) 0 =
        ∑ h ∈ Finset.range ds.length,
          (((ds[h]?).bind Declaration.class?).elim 0 fun c => c.innerClasses.length) := by
    intro ds
    induction ds with
    | nil => rfl
    | cons d ds ih =>
      rw [List.length_cons, Finset.sum_range_succ']
      simp only [List.getElem?_cons_succ, List.getElem?_cons_zero, ← ih, Option.bind_some]
      cases d with
      | enumType e => rfl
      | classType c => exact Nat.add_comm _ _
  exact hall m.declarations

/-- A change that keeps all nesting keeps how many identifiers are listed. -/
theorem innerClassCount_mapClasses {m : Model} {f : Handle → ClassType → ClassType}
    (hf : KeepsNesting f) : (m.mapClasses f).innerClassCount = m.innerClassCount := by
  rw [innerClassCount_eq_sum, innerClassCount_eq_sum, size_mapClasses]
  refine Finset.sum_congr rfl fun h _ => ?_
  rw [class?_mapClasses]
  cases m.class? h with
  | none => rfl
  | some c => exact congrArg List.length (hf.innerClasses h c)

/-- What the classes have to add is no more than what they list. -/
theorem sum_unspent_le (m : Model) :
    ∑ h ∈ Finset.range m.size, m.unspent h ≤ m.innerClassCount := by
  rw [innerClassCount_eq_sum]
  refine Finset.sum_le_sum fun h _ => ?_
  rw [unspent]
  cases m.class? h with
  | none => exact Nat.le_refl 0
  | some c =>
    have hlength := m.length_innerHandles_le c
    by_cases hw : c.isWithinTemplate = true
    · simp [hw]
    · simpa [hw] using hlength

/-- A marking has no more turns before it than twice the number of identifiers that are listed. -/
theorem turnsLeft_firstMarking_le (m : Model) :
    m.firstMarking.turnsLeft ≤ 2 * m.innerClassCount := by
  have hpending := m.resolveBases.inferEnumProperties.length_templateMembers_le
  have hsum := m.resolveBases.inferEnumProperties.sum_unspent_le
  have hcount : m.resolveBases.inferEnumProperties.innerClassCount = m.innerClassCount := by
    rw [inferEnumProperties_resolveBases]
    exact innerClassCount_mapClasses m.keepsNesting_typedClass
  rw [Marking.turnsLeft]
  simp only [firstMarking]
  omega

/-! ## Reachability -/

/-- One class lists the identifier that leads to another class among its inner classes. -/
def Encloses (m : Model) (h h' : Handle) : Prop :=
  ∃ c c', m.class? h = some c ∧ (∃ i ∈ c.innerClasses, m.byIdentifier? i = some h') ∧
    m.class? h' = some c'

/-- A class that is reached from a template by steps to an inner class, at least one of them. -/
def IsTemplateMember (m : Model) (h : Handle) : Prop :=
  ∃ t c, m.class? t = some c ∧ c.isTemplate = true ∧ Relation.TransGen m.Encloses t h

/-- What is nested in a class is what its identifiers lead to. -/
theorem mem_innerHandles (m : Model) (c : ClassType) (h : Handle) :
    h ∈ m.innerHandles c ↔ ∃ i ∈ c.innerClasses, m.byIdentifier? i = some h :=
  List.mem_filterMap

/-- If no class is marked yet, what is nested in templates is what is reached from them. -/
theorem nestedIn_templateMembers_iff {m : Model}
    (hunset : ∀ c ∈ m.classes, c.isWithinTemplate = false) (h : Handle) :
    m.NestedIn m.templateMembers h ↔ m.IsTemplateMember h := by
  constructor
  · intro hn
    induction hn with
    | @start h d hmem hd hw =>
      obtain ⟨t, c, hc, ht, hin⟩ := (m.mem_templateMembers h).1 hmem
      exact ⟨t, c, hc, ht, .single ⟨c, d, hc, (m.mem_innerHandles c h).1 hin, hd⟩⟩
    | @inner x h c d _ hc hmem hd hw ih =>
      obtain ⟨t, ct, hct, ht, hreach⟩ := ih
      exact ⟨t, ct, hct, ht, hreach.tail ⟨c, d, hc, (m.mem_innerHandles c h).1 hmem, hd⟩⟩
  · rintro ⟨t, ct, hct, ht, hreach⟩
    -- the reaching goes from the template inwards, as the nesting does
    induction hreach with
    | @single h hstep =>
      obtain ⟨c, d, hc, hin, hd⟩ := hstep
      obtain rfl := Option.some.inj (hct.symm.trans hc)
      have hmem := (m.mem_templateMembers h).2 ⟨t, ct, hct, ht, (m.mem_innerHandles ct h).2 hin⟩
      exact .start hmem hd (hunset d ((m.mem_classes d).2 ⟨h, hd⟩))
    | @tail x h _ hstep ih =>
      obtain ⟨c, d, hc, hin, hd⟩ := hstep
      exact .inner ih hc ((m.mem_innerHandles c h).2 hin) hd
        (hunset d ((m.mem_classes d).2 ⟨h, hd⟩))

/-- The marking of the members of templates ends, whatever way it goes about it: no sequence of turns
is longer than twice the number of identifiers of inner classes, a turn can be taken as long as
handles are pending, and once none is pending the model is the linked one.  If no class was marked
before, the classes that are marked in it are those that are reached from a template. -/
theorem link_marks_templateMembers (m : Model)
    (hunset : ∀ c ∈ m.classes, c.isWithinTemplate = false) :
    (∀ n s, Marking.Turns n m.firstMarking s →
      n ≤ 2 * m.innerClassCount ∧ (s.pending ≠ [] → ∃ t, Marking.Turn s t) ∧
        (s.pending = [] → s.model = m.link)) ∧
    ∀ h c, m.link.class? h = some c → (c.isWithinTemplate = true ↔ m.IsTemplateMember h) := by
  constructor
  · intro n s hs
    refine ⟨?_, Marking.exists_turn, fun hnil => ?_⟩
    · have hleft := hs.turnsLeft_eq
      have hbound := m.turnsLeft_firstMarking_le
      omega
    · rw [← Marking.outcome_of_pending_eq_nil hnil, hs.outcome_eq, outcome_firstMarking]
  · intro h c hc
    obtain ⟨marked, hmarked, hm⟩ := m.exists_link_eq
    rw [hm, class?_mapClasses, Option.map_eq_some_iff] at hc
    obtain ⟨d, hd, rfl⟩ := hc
    have hw : d.isWithinTemplate = false := hunset d ((m.mem_classes d).2 ⟨h, hd⟩)
    rw [← nestedIn_templateMembers_iff hunset h, ← hmarked h]
    simp [linkedClass, hw]

/-- A template with two classes nested in it that list each other and themselves, beside an identifier
that leads nowhere. -/
def nestedInCircle : Model where
  declarations :=
    [.classType { identifier := some "t", qualifiedName := "T", isTemplate := true,
                  innerClasses := ["a", "a", "nowhere"] },
      .classType { identifier := some "a", qualifiedName := "T::A", innerClasses := ["b", "a"] },
      .classType { identifier := some "b", qualifiedName := "T::B",
                   innerClasses := ["nowhere", "a"] }]

theorem link_marks_nestedInCircle :
    (∀ c ∈ nestedInCircle.classes, c.isWithinTemplate = false) ∧
      (∃ c, nestedInCircle.link.class? 2 = some c ∧ c.isWithinTemplate = true) ∧
        ∃ c, nestedInCircle.link.class? 0 = some c ∧ c.isWithinTemplate = false := by
  have hunset : ∀ c ∈ nestedInCircle.classes, c.isWithinTemplate = false := by decide
  have hmarks := (link_marks_templateMembers nestedInCircle hunset).2
  have hclass : ∀ h ∈ nestedInCircle.classHandles, ∃ c, nestedInCircle.link.class? h = some c := by
    intro h hh
    rw [← classHandles_link] at hh
    exact (mem_classHandles _ h).1 hh
  refine ⟨hunset, ?_, ?_⟩
  · obtain ⟨c, hc⟩ := hclass 2 (by decide)
    have hfirst : nestedInCircle.Encloses 0 1 := ⟨_, _, rfl, ⟨"a", by decide, by decide⟩, rfl⟩
    have hsecond : nestedInCircle.Encloses 1 2 := ⟨_, _, rfl, ⟨"b", by decide, by decide⟩, rfl⟩
    exact ⟨c, hc, (hmarks 2 c hc).2 ⟨0, _, rfl, rfl, .tail (.single hfirst) hsecond⟩⟩
  · obtain ⟨c, hc⟩ := hclass 0 (by decide)
    refine ⟨c, hc, Bool.eq_false_iff.2 fun hw => ?_⟩
    obtain ⟨t, -, -, -, hreach⟩ := (hmarks 0 c hc).1 hw
    -- nothing lists the template itself
    have hlists : ∀ c ∈ nestedInCircle.classes, ∀ i ∈ c.innerClasses,
        nestedInCircle.byIdentifier? i ≠ some 0 := by decide
    obtain ⟨x, -, d, -, hd, ⟨i, hi, hfound⟩, -⟩ := Relation.TransGen.tail'_iff.1 hreach
    exact hlists d ((mem_classes _ d).2 ⟨x, hd⟩) i hi hfound

end Model

end Registrar
