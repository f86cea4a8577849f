/-
# Classes nested in templates

The marking of the classes that are nested in templates goes from class to class by a list of
pending handles.  Whatever the order of that list, it marks exactly the classes that are reached
from it on a way of classes that were not marked before.
-/
import Registrar.Proofs.Model.Lookup

namespace Registrar.Model

/-- A class that is reached from some handles, each class on the way being nested in the one before
it, and none of them marked yet. -/
inductive NestedIn (m : Model) (hs : List Handle) : Handle → Prop where
  | start {h : Handle} {c : ClassType} (hmem : h ∈ hs) (hc : m.class? h = some c)
      (hw : c.isWithinTemplate = false) : NestedIn m hs h
  | inner {h h' : Handle} {c d : ClassType} (hn : NestedIn m hs h) (hc : m.class? h = some c)
      (hmem : h' ∈ m.innerHandles c) (hd : m.class? h' = some d)
      (hw : d.isWithinTemplate = false) : NestedIn m hs h'

/-- A reached class is a class that was not marked before. -/
theorem NestedIn.unmarked {m : Model} {hs : List Handle} {h : Handle} (hn : m.NestedIn hs h) :
    ∃ c, m.class? h = some c ∧ c.isWithinTemplate = false := by
  cases hn with
  | start _ hc hw => exact ⟨_, hc, hw⟩
  | inner _ _ _ hc hw => exact ⟨_, hc, hw⟩

/-- What is reached from some handles is reached from more of them. -/
theorem NestedIn.mono {m : Model} {hs hs' : List Handle} {h : Handle} (hn : m.NestedIn hs h)
    (hsub : ∀ x ∈ hs, x ∈ hs') : m.NestedIn hs' h := by
  induction hn with
  | start hmem hc hw => exact .start (hsub _ hmem) hc hw
  | inner _ hc hmem hc' hw ih => exact .inner ih hc hmem hc' hw

theorem not_nestedIn_nil (m : Model) (h : Handle) : ¬ m.NestedIn [] h := by
  intro hn
  induction hn with
  | start hmem _ _ => simp at hmem
  | inner _ _ _ _ _ ih => exact ih

/-- A handle that cannot be marked any more adds nothing to what is reached. -/
theorem nestedIn_cons_iff_of_not_unmarked (m : Model) (h : Handle) (hs : List Handle)
    (hh : ∀ c, m.class? h = some c → c.isWithinTemplate = true) (x : Handle) :
    m.NestedIn (h :: hs) x ↔ m.NestedIn hs x := by
  constructor
  · intro hn
    induction hn with
    | start hmem hc hw =>
      rcases List.mem_cons.1 hmem with rfl | hmem'
      · rw [hh _ hc] at hw
        simp at hw
      · exact .start hmem' hc hw
    | inner _ hc hmem hc' hw ih => exact .inner ih hc hmem hc' hw
  · intro hn
    exact hn.mono fun y hy => List.mem_cons_of_mem h hy

/-! ## One step -/

/-- Marking a class is a change of all classes of which one is affected. -/
theorem markWithinTemplate_eq (m : Model) (h : Handle) :
    m.markWithinTemplate h =
      m.mapClasses fun h' c => { c with isWithinTemplate := c.isWithinTemplate || h' = h } := by
  rw [markWithinTemplate, modifyClass]
  apply mapClasses_congr
  intro h' c _
  by_cases heq : h' = h
  · simp [heq]
  · simp [heq]

theorem innerHandles_markWithinTemplate (m : Model) (h : Handle) (c : ClassType) :
    (m.markWithinTemplate h).innerHandles c = m.innerHandles c := by
  rw [markWithinTemplate_eq, innerHandles, innerHandles]
  congr 1
  funext i
  apply byIdentifier?_mapClasses
  intro _ _
  exact ⟨rfl, rfl⟩

theorem class?_markWithinTemplate_of_ne {m : Model} {h x : Handle} (hne : x ≠ h) :
    (m.markWithinTemplate h).class? x = m.class? x := by
  rw [markWithinTemplate, class?_modifyClass, if_neg hne]

/-- A class that is still unmarked after another one has been marked was unmarked before, and is
not that one. -/
theorem unmarked_of_markWithinTemplate {m : Model} {h x : Handle} {c : ClassType}
    (hc : (m.markWithinTemplate h).class? x = some c) (hw : c.isWithinTemplate = false) :
    x ≠ h ∧ m.class? x = some c := by
  by_cases hx : x = h
  · rw [markWithinTemplate, class?_modifyClass, if_pos hx, Option.map_eq_some_iff] at hc
    obtain ⟨c', -, rfl⟩ := hc
    simp at hw
  · rw [class?_markWithinTemplate_of_ne hx] at hc
    exact ⟨hx, hc⟩

/-- What is reached after a class has been marked was reached from that class before. -/
theorem NestedIn.of_markWithinTemplate {m : Model} {h x : Handle} {c : ClassType}
    {hs : List Handle} (hc : m.class? h = some c) (hw : c.isWithinTemplate = false)
    (hn : (m.markWithinTemplate h).NestedIn (m.innerHandles c ++ hs) x) :
    m.NestedIn (h :: hs) x := by
  induction hn with
  | start hmem hcx hwx =>
    obtain ⟨-, hcx'⟩ := unmarked_of_markWithinTemplate hcx hwx
    rcases List.mem_append.1 hmem with hin | hin
    · exact .inner (.start List.mem_cons_self hc hw) hc hin hcx' hwx
    · exact .start (List.mem_cons_of_mem h hin) hcx' hwx
  | inner hprev hcy hmem hcx hwx ih =>
    obtain ⟨cy, hcy', hwy⟩ := hprev.unmarked
    rw [hcy] at hcy'
    obtain rfl := Option.some.inj hcy'
    obtain ⟨-, hcy''⟩ := unmarked_of_markWithinTemplate hcy hwy
    obtain ⟨-, hcx'⟩ := unmarked_of_markWithinTemplate hcx hwx
    rw [innerHandles_markWithinTemplate] at hmem
    exact .inner ih hcy'' hmem hcx' hwx

/-- Whatever was reached is the class that is marked, or is reached after that. -/
theorem NestedIn.markWithinTemplate {m : Model} {h x : Handle} {c : ClassType}
    {hs : List Handle} (hc : m.class? h = some c) (hn : m.NestedIn (h :: hs) x) :
    x = h ∨ (m.markWithinTemplate h).NestedIn (m.innerHandles c ++ hs) x := by
  induction hn with
  | @start x cx hmem hcx hwx =>
    by_cases hx : x = h
    · exact .inl hx
    · right
      have hmem' : x ∈ hs := (List.mem_cons.1 hmem).resolve_left hx
      refine .start (List.mem_append_right _ hmem') ?_ hwx
      rw [class?_markWithinTemplate_of_ne hx]
      exact hcx
  | @inner y x cy cx _ hcy hmem hcx hwx ih =>
    by_cases hx : x = h
    · exact .inl hx
    · right
      have hcx' : (m.markWithinTemplate h).class? x = some cx := by
        rw [class?_markWithinTemplate_of_ne hx]
        exact hcx
      -- what was reached through the marked class is pending now
      by_cases hy : y = h
      · subst hy
        rw [hc] at hcy
        obtain rfl := Option.some.inj hcy
        exact .start (List.mem_append_left _ hmem) hcx' hwx
      · refine .inner (ih.resolve_left hy) (c := cy) ?_ ?_ hcx' hwx
        · rw [class?_markWithinTemplate_of_ne hy]
          exact hcy
        · rw [innerHandles_markWithinTemplate]
          exact hmem

/-! ## The whole marking -/

/-- The model with the classes marked that a predicate picks. -/
def markAll (m : Model) (marked : Handle → Bool) : Model :=
  m.mapClasses fun h c => { c with isWithinTemplate := c.isWithinTemplate || marked h }

theorem markPending_cons_of_none {m : Model} {h : Handle} (hc : m.class? h = none)
    (hs : List Handle) : m.markPending (h :: hs) = m.markPending hs := by
  rw [markPending]
  split
  · rfl
  · next c' hc' =>
    rw [hc] at hc'
    simp at hc'

theorem markPending_cons_of_marked {m : Model} {h : Handle} {c : ClassType}
    (hc : m.class? h = some c) (hw : c.isWithinTemplate = true) (hs : List Handle) :
    m.markPending (h :: hs) = m.markPending hs := by
  rw [markPending]
  split
  · rfl
  · next c' hc' =>
    rw [hc] at hc'
    obtain rfl := Option.some.inj hc'
    rw [dif_pos hw]

theorem markPending_cons_of_unmarked {m : Model} {h : Handle} {c : ClassType}
    (hc : m.class? h = some c) (hw : c.isWithinTemplate = false) (hs : List Handle) :
    m.markPending (h :: hs) = (m.markWithinTemplate h).markPending (m.innerHandles c ++ hs) := by
  rw [markPending]
  split
  · next hc' =>
    rw [hc] at hc'
    simp at hc'
  · next c' hc' =>
    rw [hc] at hc'
    obtain rfl := Option.some.inj hc'
    rw [dif_neg (by simp [hw])]

/-- Marking goes through the pending handles, and marks exactly the classes that are reached from
them. -/
theorem exists_markPending_eq_markAll (m : Model) (hs : List Handle) :
    ∃ marked : Handle → Bool,
      (∀ h, marked h = true ↔ m.NestedIn hs h) ∧ m.markPending hs = m.markAll marked := by
  induction m, hs using markPending.induct with
  | case1 m =>
    refine ⟨fun _ => false, fun h => ?_, ?_⟩
    · simp [not_nestedIn_nil]
    · rw [markPending, markAll]
      simp only [Bool.or_false]
      exact (mapClasses_id m).symm
  | case2 m h hs hc ih =>
    obtain ⟨marked, hmarked, hm⟩ := ih
    rw [markPending_cons_of_none hc]
    refine ⟨marked, fun x => ?_, hm⟩
    rw [hmarked, nestedIn_cons_iff_of_not_unmarked]
    intro c hc'
    rw [hc] at hc'
    simp at hc'
  | case3 m h hs c hc hw ih =>
    obtain ⟨marked, hmarked, hm⟩ := ih
    rw [markPending_cons_of_marked hc hw]
    refine ⟨marked, fun x => ?_, hm⟩
    rw [hmarked, nestedIn_cons_iff_of_not_unmarked]
    intro c' hc'
    rw [hc] at hc'
    obtain rfl := Option.some.inj hc'
    exact hw
  | case4 m h hs c hc hw _ ih =>
    obtain ⟨marked, hmarked, hm⟩ := ih
    have hw' : c.isWithinTemplate = false := by simpa using hw
    rw [markPending_cons_of_unmarked hc hw']
    -- the class itself is marked first, and what is reached after that by the rest of the marking
    refine ⟨fun x => x = h || marked x, fun x => ?_, ?_⟩
    · rw [Bool.or_eq_true, decide_eq_true_iff, hmarked]
      constructor
      · rintro (rfl | hn)
        · exact .start List.mem_cons_self hc hw'
        · exact hn.of_markWithinTemplate hc hw'
      · intro hn
        exact hn.markWithinTemplate hc
    · rw [hm, markWithinTemplate_eq, markAll, markAll, mapClasses_mapClasses]
      simp only [Bool.or_assoc]

end Registrar.Model
