/-
# The answer of the search for a named base

In a linked model the search for a named base gives one of three answers, and each of them says
exactly how the chain of bases goes: some class on it has a base that is named, or none has and the
chain comes to a class whose base leads nowhere, or none has and the chain comes to some class twice.
There are no more places on a chain without repetition than there are types, which is why one of the
last two must be the case.
-/
import Registrar.Proofs.Classification.Roles

namespace Registrar.Model

/-- Some class on the chain that starts at a handle has a base whose name matches one of some
targets. -/
def NamesTarget (m : Model) (targets : List String) (h : Handle) : Prop :=
  ∃ x c name target, Chain.On m.nextClass? h x ∧ m.class? x = some c ∧
    c.effectiveBaseName = some name ∧ target ∈ targets ∧ baseNameMatches name target = true

/-- The chain that starts at a handle comes to a class whose base leads nowhere. -/
def ChainEnds (m : Model) (h : Handle) : Prop :=
  ∃ x c, Chain.On m.nextClass? h x ∧ m.class? x = some c ∧ c.resolvedBase = none

theorem hasTargetBase_iff (targets : List String) (c : ClassType) :
    hasTargetBase targets c = true ↔ ∃ name target, c.effectiveBaseName = some name ∧
      target ∈ targets ∧ baseNameMatches name target = true := by
  rw [hasTargetBase]
  cases c.effectiveBaseName with
  | none => simp
  | some name => simp [List.any_eq_true]

theorem hasTarget_iff_namesTarget (m : Model) (targets : List String) (h : Handle) :
    m.HasTarget targets h ↔ m.NamesTarget targets h := by
  constructor
  · rintro ⟨x, hx, c, hc, ht⟩
    obtain ⟨name, target, hname, hmem, hmatch⟩ := (hasTargetBase_iff targets c).1 ht
    exact ⟨x, c, name, target, hx, hc, hname, hmem, hmatch⟩
  · rintro ⟨x, c, name, target, hx, hc, hname, hmem, hmatch⟩
    exact ⟨x, hx, c, hc, (hasTargetBase_iff targets c).2 ⟨name, target, hname, hmem, hmatch⟩⟩

/-- A chain that has not ended is at a class. -/
theorem exists_class?_nth_of_not_chainEnds {m : Model} (hm : m.IsClosed) {h : Handle}
    {c : ClassType} (hc : m.class? h = some c) (hends : ¬ m.ChainEnds h) (n : Nat) :
    ∃ x d, Chain.nth m.nextClass? n h = some x ∧ m.class? x = some d := by
  induction n with
  | zero => exact ⟨h, c, rfl, hc⟩
  | succ n ih =>
    obtain ⟨x, d, hx, hd⟩ := ih
    cases hb : d.resolvedBase with
    | none => exact absurd ⟨x, d, Chain.on_of_nth hx, hd, hb⟩ hends
    | some b =>
      obtain ⟨d', hd'⟩ := hm x d b hd hb
      refine ⟨b, d', ?_, hd'⟩
      rw [Chain.nth_succ_eq_bind, hx, Option.bind_some, nextClass?_eq hd, hb]

/-- The chain of a class comes to an end, or it repeats itself. -/
theorem chainEnds_iff_not_repeats {m : Model} (hm : m.IsClosed) {h : Handle} {c : ClassType}
    (hc : m.class? h = some c) : m.ChainEnds h ↔ ¬ Chain.Repeats m.nextClass? h := by
  rw [Chain.repeats_iff_isCyclic]
  constructor
  · rintro ⟨x, d, hx, hd, hb⟩ hcycle
    have hnone : m.nextClass? x = none := by rw [nextClass?_eq hd, hb]
    exact Chain.not_isCyclic_of_none hnone ((Chain.isCyclic_iff_of_on hx).1 hcycle)
  · intro hcycle
    by_contra hends
    have hbound : ∀ i ≤ m.size, ∃ x, Chain.nth m.nextClass? i h = some x ∧ x < m.size := by
      intro i _
      obtain ⟨x, d, hx, hd⟩ := exists_class?_nth_of_not_chainEnds hm hc hends i
      exact ⟨x, hx, lt_size_of_class? hd⟩
    obtain ⟨i, j, hij, hj, heq⟩ := Chain.exists_repetition hbound
    obtain ⟨x, hx, -⟩ := hbound i (by omega)
    exact hcycle (Chain.repeats_iff_isCyclic.1 ⟨i, j, x, hij, hx, heq ▸ hx⟩)

/-- What each answer of the search for a named base says about the chain that starts at a class of a
linked model. -/
theorem hasBaseOf_link_iff (m : Model) (targets : List String) {h : Handle} {c : ClassType}
    (hc : m.link.class? h = some c) :
    (m.link.hasBaseOf h targets = .ok true ↔ m.link.NamesTarget targets h) ∧
    (m.link.hasBaseOf h targets = .ok false ↔
      m.link.ChainEnds h ∧ ¬ m.link.NamesTarget targets h) ∧
    ∀ e, m.link.hasBaseOf h targets = .error e ↔
      e = .baseCycle c.qualifiedName ∧ Chain.Repeats m.link.nextClass? h ∧
        ¬ m.link.NamesTarget targets h := by
  have hclosed := m.isClosed_link
  rw [chainEnds_iff_not_repeats hclosed hc, ← hasTarget_iff_namesTarget,
    Chain.repeats_iff_isCyclic]
  -- one of three things is true of the chain, and each of them has an answer of its own
  by_cases ht : m.link.HasTarget targets h
  · have hfound := hasBaseOf_of_hasTarget hclosed hc ht
    simp [hfound, ht]
  · by_cases hcycle : Chain.IsCyclic m.link.nextClass? h
    · have hfails := hasBaseOf_of_isCyclic hclosed hc ht hcycle
      rw [nameAt_eq_of_class? hc] at hfails
      simp [hfails, ht, hcycle, eq_comm]
    · have hends := hasBaseOf_of_not_isCyclic hclosed hc ht hcycle
      simp [hends, ht, hcycle]

/-- Three classes in a circle, and a fourth one whose base is one of them. -/
def basesInCircle : Model where
  declarations :=
    [.classType { qualifiedName := "A", base := .byName "B" },
      .classType { qualifiedName := "B", base := .byName "C" },
      .classType { qualifiedName := "C", base := .byName "A" },
      .classType { qualifiedName := "D", base := .byName "A" }]

theorem hasBaseOf_link_basesInCircle :
    ∃ c, basesInCircle.link.class? 3 = some c ∧
      basesInCircle.link.hasBaseOf 3 ["Entity"] = .error (.baseCycle "D") := by
  have hmem : 3 ∈ basesInCircle.link.classHandles := by
    rw [classHandles_link]
    decide
  obtain ⟨c, hc⟩ := (mem_classHandles _ 3).1 hmem
  have hname : c.qualifiedName = "D" := by
    rw [← nameAt_eq_of_class? hc, nameAt_link]
    rfl
  refine ⟨c, hc, ((hasBaseOf_link_iff basesInCircle ["Entity"] hc).2.2 _).2 ⟨?_, ?_, ?_⟩⟩
  · rw [hname]
  · rw [nextClass?_link]
    -- the chain of `D` is at `A` after one step, and again after four
    exact ⟨1, 4, 0, by decide, by decide, by decide⟩
  · rw [← hasTarget_iff_namesTarget, hasTarget_link]
    rintro ⟨x, -, name, hx, target, htarget, hmatch⟩
    have hlt : x < basesInCircle.size := by
      rw [baseName?_eq, Option.bind_eq_some_iff] at hx
      obtain ⟨d, hd, -⟩ := hx
      exact lt_size_of_class? hd
    have hnone : ∀ x < basesInCircle.size, ∀ name ∈ basesInCircle.baseName? x,
        ∀ target ∈ ["Entity"], baseNameMatches name target = false := by decide
    rw [hnone x hlt name hx target htarget] at hmatch
    simp at hmatch

end Registrar.Model
