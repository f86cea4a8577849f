/-
# A run of classification

One step gives one class its final role or ends the run, and a run gives their final roles to the
classes up to the first one whose chain gives no answer.  The main statement describes the whole run
on a linked model by the types as they were taken in.
-/
import Registrar.Proofs.Classification.Roles

namespace Registrar.Model

/-! ## One step -/

/-- The chain of a class that does not fail gives it a role. -/
theorem structuralRole?_link_of_not_fails {m : Model} {bases : BaseSettings} {h : Handle}
    (hu : m.IsUntagged h) (hf : ¬ m.Fails bases h) :
    ∃ found, m.link.structuralRole? bases h = .ok found ∧
      m.IsChainRole bases h (found.getD .none) := by
  have hu' := hu
  obtain ⟨c, hc, -⟩ := hu'
  obtain ⟨c', hc'⟩ := (mem_classHandles m.link h).1
    (by rw [classHandles_link, mem_classHandles]; exact ⟨c, hc⟩)
  have hok : Chain.IsCyclic m.link.nextClass? h → m.link.HasTarget bases.component h := by
    rw [nextClass?_link, hasTarget_link]
    intro hcycle
    by_contra hn
    exact hf ⟨hu, hcycle, hn⟩
  obtain ⟨found, hfound, hfirst⟩ := structuralRole?_of_not m.isClosed_link hc' hok
  refine ⟨found, hfound, isChainRole_of_isFirstRole ?_⟩
  exact hfirst.congr fun r => hasTarget_link m (bases.targets r) h

/-- The chain of a class that fails is reported as cyclic. -/
theorem structuralRole?_link_of_fails {m : Model} {bases : BaseSettings} {h : Handle}
    (hf : m.Fails bases h) :
    m.link.structuralRole? bases h = .error (.baseCycle (m.nameAt h)) := by
  obtain ⟨⟨c, hc, -⟩, hcycle, hn⟩ := hf
  obtain ⟨c', hc'⟩ := (mem_classHandles m.link h).1
    (by rw [classHandles_link, mem_classHandles]; exact ⟨c, hc⟩)
  rw [← nameAt_link]
  apply structuralRole?_of_isCyclic m.isClosed_link hc'
  · rw [nextClass?_link]
    exact hcycle
  · rw [hasTarget_link]
    exact hn

/-- A class has a documented role in the model at hand exactly if it had one from the start. -/
theorem all_class?_withRoles {m : Model} {role : Handle → Role} {h : Handle} {c : ClassType}
    (hc : m.class? h = some c) (hrole : role h = m.roleAt h) :
    (((m.link.withRoles role).class? h).all fun c => c.role ≠ .none) = decide (c.role ≠ .none) := by
  obtain ⟨c', hc'⟩ := (mem_classHandles m.link h).1
    (by rw [classHandles_link, mem_classHandles]; exact ⟨c, hc⟩)
  have hrole' : role h = c.role := by
    rw [hrole, roleAt, hc]
    rfl
  rw [class?_withRoles, hc', Option.map_some, Option.all_some, hrole']

/-- A step past a class that does not fail gives it its final role. -/
theorem classifyAll_cons_of_not_fails {m : Model} {bases : BaseSettings} {role : Handle → Role}
    {h : Handle} (hs : List Handle) {c : ClassType} (hc : m.class? h = some c)
    (hrole : role h = m.roleAt h) (hf : ¬ m.Fails bases h) :
    ∃ r, m.IsFinalRole bases h r ∧
      (classifyAll bases (m.link.withRoles role) (h :: hs)).result =
        (classifyAll bases (m.link.withRoles fun x => if x = h then r else role x) hs).result := by
  have hall := all_class?_withRoles hc hrole
  have hrole' : role h = c.role := by
    rw [hrole, roleAt, hc]
    rfl
  have hsame : (fun x => if x = h then role h else role x) = role := by
    funext x
    split
    · next hx => rw [hx]
    · rfl
  -- a documented role stays, and any other one comes from the chain
  by_cases ht : c.role = .none
  · obtain ⟨found, hfound, hchain⟩ := structuralRole?_link_of_not_fails ⟨c, hc, ht⟩ hf
    have hfinal : m.IsFinalRole bases h (found.getD .none) := by
      intro c' hc'
      rw [hc] at hc'
      obtain rfl := Option.some.inj hc'
      exact ⟨fun hne => absurd ht hne, fun _ => hchain⟩
    refine ⟨found.getD .none, hfinal, ?_⟩
    rw [classifyAll, hall, structuralRole?_withRoles, hfound]
    simp only [ht, ne_eq, not_true_eq_false, decide_false, Bool.false_eq_true, if_false]
    cases found with
    | none =>
      have hnone : Role.none = role h := by rw [hrole', ht]
      rw [Option.getD_none, hnone, hsame]
    | some r => rw [Logged.result_bind, assignRole_withRoles, Option.getD_some]
  · refine ⟨c.role, ?_, ?_⟩
    · intro c' hc'
      rw [hc] at hc'
      obtain rfl := Option.some.inj hc'
      exact ⟨fun _ => rfl, fun h0 => absurd h0 ht⟩
    · rw [classifyAll, hall, ← hrole', hsame, if_pos]
      rw [hrole']
      exact decide_eq_true ht

/-- A class that fails ends the run. -/
theorem classifyAll_cons_of_fails {m : Model} {bases : BaseSettings} {role : Handle → Role}
    {h : Handle} (hs : List Handle) (hrole : role h = m.roleAt h) (hf : m.Fails bases h) :
    (classifyAll bases (m.link.withRoles role) (h :: hs)).result =
      ⟨m.link.withRoles role, some (.baseCycle (m.nameAt h))⟩ := by
  obtain ⟨c, hc, ht⟩ := hf.1
  rw [classifyAll, all_class?_withRoles hc hrole, structuralRole?_withRoles,
    structuralRole?_link_of_fails hf]
  simp [ht]

/-! ## A run -/

/-- The roles after a run past some handles: the classes there have not failed and have their final
roles, and no other role has changed. -/
structure Progress (m : Model) (bases : BaseSettings) (passed : List Handle)
    (before after : Handle → Role) : Prop where
  not_fails : ∀ h ∈ passed, ¬ m.Fails bases h
  isFinalRole : ∀ h ∈ passed, m.IsFinalRole bases h (after h)
  unchanged : ∀ h ∉ passed, after h = before h

namespace Progress

variable {m : Model} {bases : BaseSettings} {before after : Handle → Role}

theorem nil (m : Model) (bases : BaseSettings) (before : Handle → Role) :
    m.Progress bases [] before before where
  not_fails h hh := absurd hh (by simp)
  isFinalRole h hh := absurd hh (by simp)
  unchanged _ _ := rfl

/-- A step past a class that does not fail, and the run after it. -/
theorem cons {h : Handle} {r : Role} {passed : List Handle} (hh : h ∉ passed)
    (hf : ¬ m.Fails bases h) (hr : m.IsFinalRole bases h r)
    (hprogress : m.Progress bases passed (fun x => if x = h then r else before x) after) :
    m.Progress bases (h :: passed) before after := by
  refine ⟨?_, ?_, ?_⟩
  · intro x hx
    rcases List.mem_cons.1 hx with rfl | hx
    · exact hf
    · exact hprogress.not_fails x hx
  · intro x hx
    rcases List.mem_cons.1 hx with rfl | hx
    · -- the run after the step does not come back to this class
      rw [hprogress.unchanged x hh, if_pos rfl]
      exact hr
    · exact hprogress.isFinalRole x hx
  · intro x hx
    rw [List.mem_cons, not_or] at hx
    rw [hprogress.unchanged x hx.2, if_neg hx.1]

end Progress

/-- A run gets past the handles up to the first one that fails. -/
theorem classifyAll_link (m : Model) (bases : BaseSettings) (hs : List Handle)
    (hnodup : hs.Nodup) (hclass : ∀ h ∈ hs, ∃ c, m.class? h = some c) (role : Handle → Role)
    (hrole : ∀ h ∈ hs, role h = m.roleAt h) :
    ∃ passed rest after, hs = passed ++ rest ∧ m.Progress bases passed role after ∧
      (classifyAll bases (m.link.withRoles role) hs).result.model = m.link.withRoles after ∧
      ((rest = [] ∧ (classifyAll bases (m.link.withRoles role) hs).result.failure = none) ∨
        ∃ h hs', rest = h :: hs' ∧ m.Fails bases h ∧
          (classifyAll bases (m.link.withRoles role) hs).result.failure =
            some (.baseCycle (m.nameAt h))) := by
  -- the roles at hand change with every step, and those of the handles ahead are as at the start
  induction hs generalizing role with
  | nil => exact ⟨[], [], role, rfl, .nil m bases role, rfl, .inl ⟨rfl, rfl⟩⟩
  | cons h hs ih =>
    obtain ⟨hnot, hnodup'⟩ := List.nodup_cons.1 hnodup
    obtain ⟨c, hc⟩ := hclass h List.mem_cons_self
    have hrole' := hrole h List.mem_cons_self
    by_cases hf : m.Fails bases h
    · have hend := classifyAll_cons_of_fails hs hrole' hf
      rw [hend]
      exact ⟨[], h :: hs, role, rfl, .nil m bases role, rfl, .inr ⟨h, hs, rfl, hf, rfl⟩⟩
    · obtain ⟨r, hr, hstep⟩ := classifyAll_cons_of_not_fails hs hc hrole' hf
      have hne : ∀ x ∈ hs, x ≠ h := fun x hx heq => hnot (heq ▸ hx)
      obtain ⟨passed, rest, after, hsplit, hprogress, hmodel, hfailure⟩ :=
        ih hnodup' (fun x hx => hclass x (List.mem_cons_of_mem h hx))
          (fun x => if x = h then r else role x) (fun x hx => by
            rw [if_neg (hne x hx)]
            exact hrole x (List.mem_cons_of_mem h hx))
      have hh : h ∉ passed := fun hin => hnot (by rw [hsplit]; exact List.mem_append_left _ hin)
      rw [hstep]
      refine ⟨h :: passed, rest, after, ?_, hprogress.cons hh hf hr, hmodel, hfailure⟩
      rw [hsplit, List.cons_append]

/-- Of two parts of an ascending list the first holds what is below the head of the second. -/
theorem mem_left_iff_lt {passed hs : List Handle} {h : Handle}
    (hsorted : (passed ++ h :: hs).Pairwise (· < ·)) (x : Handle)
    (hx : x ∈ passed ++ h :: hs) : x ∈ passed ↔ x < h := by
  rw [List.pairwise_append] at hsorted
  obtain ⟨-, htail, hcross⟩ := hsorted
  constructor
  · intro hin
    exact hcross x hin h List.mem_cons_self
  · intro hlt
    rcases List.mem_append.1 hx with hin | hin
    · exact hin
    · rcases List.mem_cons.1 hin with rfl | hin
      · exact absurd hlt (Nat.lt_irrefl x)
      · exact absurd hlt (Nat.lt_asymm ((List.pairwise_cons.1 htail).1 x hin))

/-- A run over all classes gets past those below some handle, which is the first one that fails, or
past all of them. -/
theorem classify_link (m : Model) (bases : BaseSettings) :
    ∃ after, (m.link.classify bases).result.model = m.link.withRoles after ∧
      (((m.link.classify bases).result.failure = none ∧
          m.Progress bases m.classHandles m.roleAt after) ∨
        ∃ h, (m.link.classify bases).result.failure = some (.baseCycle (m.nameAt h)) ∧
          m.Fails bases h ∧ m.Progress bases (m.classHandles.filter (· < h)) m.roleAt after) := by
  have hmodel : m.link.withRoles m.roleAt = m.link := by
    have heq : m.roleAt = m.link.roleAt := funext fun h => (roleAt_link m h).symm
    rw [heq, withRoles_roleAt]
  obtain ⟨passed, rest, after, hsplit, hprogress, hafter, hfailure⟩ :=
    m.classifyAll_link bases m.classHandles m.nodup_classHandles
      (fun h hh => (mem_classHandles m h).1 hh) m.roleAt (fun _ _ => rfl)
  rw [hmodel, ← classHandles_link, ← classify] at hafter hfailure
  refine ⟨after, hafter, ?_⟩
  rcases hfailure with ⟨rfl, hnone⟩ | ⟨h, hs', rfl, hf, hsome⟩
  · rw [List.append_nil] at hsplit
    rw [hsplit]
    exact .inl ⟨hnone, hprogress⟩
  · refine .inr ⟨h, hsome, hf, ?_⟩
    have hsorted := m.pairwise_lt_classHandles
    rw [hsplit] at hsorted
    -- the handles ascend, so the run has got past exactly those below the one that fails
    have hmem : ∀ x, x ∈ m.classHandles.filter (· < h) ↔ x ∈ passed := by
      intro x
      rw [List.mem_filter, decide_eq_true_iff, hsplit]
      constructor
      · rintro ⟨hx, hlt⟩
        exact (mem_left_iff_lt hsorted x hx).2 hlt
      · intro hx
        have hx' : x ∈ passed ++ h :: hs' := List.mem_append_left _ hx
        exact ⟨hx', (mem_left_iff_lt hsorted x hx').1 hx⟩
    refine ⟨fun x hx => hprogress.not_fails x ((hmem x).1 hx),
      fun x hx => hprogress.isFinalRole x ((hmem x).1 hx), fun x hx => ?_⟩
    exact hprogress.unchanged x fun hin => hx ((hmem x).2 hin)

/-- Classification goes by the chains of the types that were taken in.  It succeeds exactly if
every class without a documented role whose chain is cyclic has a component base on that chain.  Then
every class has its final role.  Otherwise the first class that fails is named, the classes before it
have their final roles, and all others the roles they came with. -/
theorem roles_of_pushed_types (ds : List Declaration) (bases : BaseSettings) :
    let m := ds.foldl push {}
    let final := (m.link.classify bases).result
    (final.failure = none ↔
      ∀ h, m.IsUntagged h → Chain.IsCyclic m.base? h → m.ChainNames bases.component h) ∧
    (final.failure = none →
      ∃ role, final.model = m.link.withRoles role ∧ ∀ h, m.IsFinalRole bases h (role h)) ∧
    (∀ e, final.failure = some e →
      ∃ h c, m.class? h = some c ∧ e = .baseCycle c.qualifiedName ∧ m.Fails bases h ∧
        (∀ h' < h, ¬ m.Fails bases h') ∧
        ∃ role, final.model = m.link.withRoles role ∧
          (∀ h' < h, m.IsFinalRole bases h' (role h')) ∧ ∀ h' ≥ h, role h' = m.roleAt h') := by
  intro m final
  obtain ⟨after, hmodel, hrun⟩ := m.classify_link bases
  have hclass : ∀ h, m.IsUntagged h → h ∈ m.classHandles := by
    rintro h ⟨c, hc, -⟩
    exact (mem_classHandles m h).2 ⟨c, hc⟩
  rcases hrun with ⟨hnone, hprogress⟩ | ⟨h, hsome, hf, hprogress⟩
  · -- no class has failed, so the rules went through all of them
    refine ⟨⟨fun _ h hu hcycle => ?_, fun _ => hnone⟩, fun _ => ⟨after, hmodel, ?_⟩, ?_⟩
    · by_contra hn
      exact hprogress.not_fails h (hclass h hu) ⟨hu, hcycle, hn⟩
    · intro h c hc
      exact hprogress.isFinalRole h ((mem_classHandles m h).2 ⟨c, hc⟩) c hc
    · intro e he
      rw [hnone] at he
      simp at he
  · -- the rules went through the classes in front of the one that failed
    have hne : final.failure ≠ none := by
      rw [hsome]
      simp
    have hbelow : ∀ x, x < h → x ∈ m.classHandles → x ∈ m.classHandles.filter (· < h) := by
      intro x hlt hx
      exact List.mem_filter.2 ⟨hx, decide_eq_true hlt⟩
    refine ⟨⟨fun hn => absurd hn hne, fun hall => ?_⟩, fun hn => absurd hn hne, ?_⟩
    · exact absurd (hall h hf.1 hf.2.1) hf.2.2
    · intro e he
      obtain ⟨c, hc, -⟩ := hf.1
      have hname := nameAt_eq_of_get? (get?_eq_some_of_class? hc)
      have he' : e = .baseCycle (m.nameAt h) := Option.some.inj (he.symm.trans hsome)
      refine ⟨h, c, hc, he'.trans (congrArg _ hname), hf, ?_, after, hmodel, ?_, ?_⟩
      · intro x hlt hfx
        exact hprogress.not_fails x (hbelow x hlt (hclass x hfx.1)) hfx
      · intro x hlt c' hc'
        exact hprogress.isFinalRole x (hbelow x hlt ((mem_classHandles m x).2 ⟨c', hc'⟩)) c' hc'
      · intro x hge
        refine hprogress.unchanged x fun hin => ?_
        have hlt : x < h := by simpa using (List.mem_filter.1 hin).2
        exact absurd hlt (Nat.not_lt.2 hge)

end Registrar.Model
