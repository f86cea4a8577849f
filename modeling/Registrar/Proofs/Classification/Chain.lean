/-
# Chains of bases

A chain goes from handle to handle as long as there is a next one.  It is cyclic if it comes to a
handle from which it comes back.  The search for a named base looks at no more classes than there
are types, and that is enough: a chain that goes on past that many steps repeats itself, so what it
has not met by then it never meets.
-/
import Mathlib.Data.Finset.Card
import Mathlib.Logic.Relation
import Registrar.Classification
import Registrar.Proofs.Linking.Effect

namespace Registrar

namespace Chain

variable {next : Handle → Option Handle}

/-- One step along a chain. -/
def Step (next : Handle → Option Handle) (h h' : Handle) : Prop :=
  next h = some h'

/-- A handle `x` on the chain that starts at `h`. -/
def On (next : Handle → Option Handle) (h x : Handle) : Prop :=
  Relation.ReflTransGen (Step next) h x

/-- A chain that comes to a handle from which it comes back. -/
def IsCyclic (next : Handle → Option Handle) (h : Handle) : Prop :=
  ∃ x, On next h x ∧ Relation.TransGen (Step next) x x

/-- The chain of the next handle is the rest of the chain. -/
theorem on_iff_of_step {h b : Handle} (hb : next h = some b) (x : Handle) :
    On next h x ↔ x = h ∨ On next b x := by
  constructor
  · intro hx
    rcases Relation.ReflTransGen.cases_head hx with rfl | ⟨b', hb', hx'⟩
    · exact .inl rfl
    · right
      have hbb : b = b' := Option.some.inj (hb.symm.trans hb')
      rw [hbb]
      exact hx'
  · rintro (rfl | hx)
    · exact Relation.ReflTransGen.refl
    · exact Relation.ReflTransGen.head hb hx

/-- Nothing else is on a chain that does not go on. -/
theorem on_iff_of_none {h : Handle} (hb : next h = none) (x : Handle) :
    On next h x ↔ x = h := by
  constructor
  · intro hx
    rcases Relation.ReflTransGen.cases_head hx with rfl | ⟨b, hb', -⟩
    · rfl
    · rw [Step, hb] at hb'
      simp at hb'
  · rintro rfl
    exact Relation.ReflTransGen.refl

/-- A chain is cyclic exactly if the rest of it is. -/
theorem isCyclic_iff_of_step {h b : Handle} (hb : next h = some b) :
    IsCyclic next h ↔ IsCyclic next b := by
  constructor
  · rintro ⟨x, hx, hcycle⟩
    rcases (on_iff_of_step hb x).1 hx with rfl | hx'
    · obtain ⟨b', hb', hback⟩ := Relation.TransGen.head'_iff.1 hcycle
      have hbb : b' = b := Option.some.inj (hb'.symm.trans hb)
      subst hbb
      exact ⟨x, hback, hcycle⟩
    · exact ⟨x, hx', hcycle⟩
  · rintro ⟨x, hx, hcycle⟩
    exact ⟨x, Relation.ReflTransGen.head hb hx, hcycle⟩

/-- All handles on a chain have cyclic chains, or none of them has. -/
theorem isCyclic_iff_of_on {h x : Handle} (hx : On next h x) :
    IsCyclic next h ↔ IsCyclic next x := by
  induction hx with
  | refl => exact Iff.rfl
  | tail _ hb ih => exact ih.trans (isCyclic_iff_of_step hb)

/-- A chain that does not go on comes to no cycle. -/
theorem not_isCyclic_of_none {h : Handle} (hb : next h = none) : ¬ IsCyclic next h := by
  rintro ⟨x, hx, hcycle⟩
  obtain rfl := (on_iff_of_none hb x).1 hx
  obtain ⟨b, hb', -⟩ := Relation.TransGen.head'_iff.1 hcycle
  rw [Step, hb] at hb'
  simp at hb'

/-! ## Places on a chain -/

/-- The handle at a place of a chain. -/
def nth (next : Handle → Option Handle) : Nat → Handle → Option Handle
  | 0, h => some h
  | n + 1, h => (next h).bind (nth next n)

/-- A place of a chain is a place of the rest from an earlier one. -/
theorem nth_add (i k : Nat) (h : Handle) :
    nth next (i + k) h = (nth next i h).bind (nth next k) := by
  induction i generalizing h with
  | zero => simp [nth]
  | succ i ih =>
    rw [show i + 1 + k = (i + k) + 1 by omega, nth, nth, Option.bind_assoc]
    congr 1
    funext x
    exact ih x

/-- The next place of a chain is one step on. -/
theorem nth_succ_eq_bind (i : Nat) (h : Handle) :
    nth next (i + 1) h = (nth next i h).bind next := by
  rw [nth_add]
  congr 1
  funext x
  simp [nth]

/-- What stands at a place of a chain is on it. -/
theorem on_of_nth {i : Nat} {h x : Handle} (hx : nth next i h = some x) : On next h x := by
  induction i generalizing h with
  | zero =>
    obtain rfl := Option.some.inj hx
    exact Relation.ReflTransGen.refl
  | succ i ih =>
    rw [nth, Option.bind_eq_some_iff] at hx
    obtain ⟨b, hb, hx⟩ := hx
    exact Relation.ReflTransGen.head hb (ih hx)

/-- A handle that comes back after some steps lies on a cycle. -/
theorem transGen_of_nth {k : Nat} {x : Handle} (hx : nth next (k + 1) x = some x) :
    Relation.TransGen (Step next) x x := by
  rw [nth, Option.bind_eq_some_iff] at hx
  obtain ⟨b, hb, hx⟩ := hx
  exact Relation.TransGen.head' hb (on_of_nth hx)

/-- Every handle on a chain has a place on it. -/
theorem exists_nth_eq_of_on {h x : Handle} (hx : On next h x) :
    ∃ i, nth next i h = some x := by
  induction hx with
  | refl => exact ⟨0, rfl⟩
  | tail _ hb ih =>
    obtain ⟨i, hi⟩ := ih
    refine ⟨i + 1, ?_⟩
    rw [nth_succ_eq_bind, hi]
    exact hb

/-- A chain that has the same handle at two places. -/
def Repeats (next : Handle → Option Handle) (h : Handle) : Prop :=
  ∃ i j x, i < j ∧ nth next i h = some x ∧ nth next j h = some x

/-- A chain repeats itself exactly if it comes to a cycle. -/
theorem repeats_iff_isCyclic {h : Handle} : Repeats next h ↔ IsCyclic next h := by
  constructor
  · rintro ⟨i, j, x, hij, hi, hj⟩
    refine ⟨x, on_of_nth hi, transGen_of_nth (k := j - i - 1) ?_⟩
    have hadd : nth next (i + (j - i)) h = (nth next i h).bind (nth next (j - i)) :=
      nth_add i (j - i) h
    rw [show i + (j - i) = j by omega, hi, hj, Option.bind_some] at hadd
    rw [show j - i - 1 + 1 = j - i by omega]
    exact hadd.symm
  · rintro ⟨x, hx, hcycle⟩
    obtain ⟨i, hi⟩ := exists_nth_eq_of_on hx
    obtain ⟨b, hb, hback⟩ := Relation.TransGen.head'_iff.1 hcycle
    obtain ⟨k, hk⟩ := exists_nth_eq_of_on hback
    have hturn : nth next (k + 1) x = some x := by
      rw [nth, show next x = some b from hb, Option.bind_some, hk]
    refine ⟨i, i + (k + 1), x, by omega, hi, ?_⟩
    rw [nth_add, hi, Option.bind_some, hturn]

/-- Once a chain has repeated itself, it has shown all of its handles. -/
theorem exists_nth_of_on {i j : Nat} {h x : Handle} (hij : i < j)
    (heq : nth next i h = nth next j h) (hx : On next h x) :
    ∃ k < j, nth next k h = some x := by
  induction hx with
  | refl => exact ⟨0, by omega, rfl⟩
  | @tail y z _ hyz ih =>
    obtain ⟨k, hk, hy⟩ := ih
    have hz : nth next (k + 1) h = some z := by
      rw [nth_succ_eq_bind, hy]
      exact hyz
    rcases Nat.lt_or_ge (k + 1) j with hlt | hge
    · exact ⟨k + 1, hlt, hz⟩
    · have hkj : k + 1 = j := by omega
      rw [hkj, ← heq] at hz
      exact ⟨i, hij, hz⟩

/-- A chain that shows more handles than there are repeats itself. -/
theorem exists_repetition {n : Nat} {h : Handle}
    (hbound : ∀ i ≤ n, ∃ x, nth next i h = some x ∧ x < n) :
    ∃ i j, i < j ∧ j ≤ n ∧ nth next i h = nth next j h := by
  have hmaps : ∀ i ∈ Finset.range (n + 1), (nth next i h).getD 0 ∈ Finset.range n := by
    intro i hi
    obtain ⟨x, hx, hlt⟩ := hbound i (Nat.lt_succ_iff.1 (Finset.mem_range.1 hi))
    rw [hx]
    exact Finset.mem_range.2 hlt
  have hcard : (Finset.range n).card < (Finset.range (n + 1)).card := by
    rw [Finset.card_range, Finset.card_range]
    omega
  obtain ⟨i, hi, j, hj, hne, heq⟩ := Finset.exists_ne_map_eq_of_card_lt_of_maps_to hcard hmaps
  rw [Finset.mem_range] at hi hj
  obtain ⟨x, hx, -⟩ := hbound i (by omega)
  obtain ⟨y, hy, -⟩ := hbound j (by omega)
  rw [hx, hy, Option.getD_some, Option.getD_some] at heq
  rcases Nat.lt_or_gt_of_ne hne with hlt | hlt
  · exact ⟨i, j, hlt, by omega, by rw [hx, hy, heq]⟩
  · exact ⟨j, i, hlt, by omega, by rw [hx, hy, heq]⟩

end Chain

namespace Model

/-! ## The search for a named base -/

/-- The class that stands next on the chain of bases in a linked model. -/
def nextClass? (m : Model) (h : Handle) : Option Handle :=
  (m.class? h).bind ClassType.resolvedBase

/-- The base of the class at a handle is named by one of some targets. -/
def HasTargetAt (m : Model) (targets : List String) (h : Handle) : Prop :=
  ∃ c, m.class? h = some c ∧ hasTargetBase targets c = true

/-- Some class on the chain that starts at a handle has a base that is named by one of some
targets. -/
def HasTarget (m : Model) (targets : List String) (h : Handle) : Prop :=
  ∃ x, Chain.On m.nextClass? h x ∧ m.HasTargetAt targets x

/-- A model in which every base that is filled in is a class. -/
def IsClosed (m : Model) : Prop :=
  ∀ h c b, m.class? h = some c → c.resolvedBase = some b → ∃ c', m.class? b = some c'

/-- The chain goes on from a class with its base. -/
theorem nextClass?_eq {m : Model} {h : Handle} {c : ClassType} (hc : m.class? h = some c) :
    m.nextClass? h = c.resolvedBase := by
  rw [nextClass?, hc]
  rfl

/-- Whether the base of a class is named by a target is seen from the class. -/
theorem hasTargetAt_iff {m : Model} {targets : List String} {h : Handle} {c : ClassType}
    (hc : m.class? h = some c) : m.HasTargetAt targets h ↔ hasTargetBase targets c = true := by
  constructor
  · rintro ⟨c', hc', ht⟩
    rw [hc] at hc'
    obtain rfl := Option.some.inj hc'
    exact ht
  · intro ht
    exact ⟨c, hc, ht⟩

/-- A target is found at the first class or further on. -/
theorem hasTarget_iff_of_next {m : Model} {targets : List String} {h b : Handle}
    (hb : m.nextClass? h = some b) :
    m.HasTarget targets h ↔ m.HasTargetAt targets h ∨ m.HasTarget targets b := by
  simp only [HasTarget, Chain.on_iff_of_step hb, or_and_right, exists_or, exists_eq_left]

/-- At the end of a chain a target is found there or not at all. -/
theorem hasTarget_iff_of_none {m : Model} {targets : List String} {h : Handle}
    (hb : m.nextClass? h = none) : m.HasTarget targets h ↔ m.HasTargetAt targets h := by
  simp only [HasTarget, Chain.on_iff_of_none hb, exists_eq_left]

/-- The chain of a class has gone on for `n` steps without a base that is named by a target. -/
def IsSilent (m : Model) (targets : List String) (n : Nat) (h : Handle) : Prop :=
  ∀ i ≤ n, ∃ x c, Chain.nth m.nextClass? i h = some x ∧ m.class? x = some c ∧
    (i < n → ¬ m.HasTargetAt targets x)

/-- What a bounded walk answers: that there is a named base, that the chain ends without one, or
that there has been none so far. -/
theorem walkBases_cases {m : Model} (hm : m.IsClosed) (targets : List String) (n : Nat)
    {h : Handle} {c : ClassType} (hc : m.class? h = some c) :
    (m.walkBases targets n h = .ok (some true) ∧ m.HasTarget targets h) ∨
    (m.walkBases targets n h = .ok (some false) ∧ ¬ m.HasTarget targets h ∧
      ¬ Chain.IsCyclic m.nextClass? h) ∨
    (m.walkBases targets n h = .ok none ∧ m.IsSilent targets n h) := by
  -- one step of the walk is one step along the chain, so the induction follows both
  induction n generalizing h c with
  | zero =>
    refine .inr (.inr ⟨rfl, fun i hi => ⟨h, c, ?_, hc, fun hlt => ?_⟩⟩)
    · rw [Nat.le_zero.1 hi]
      rfl
    · omega
  | succ n ih =>
    have hnext := nextClass?_eq hc
    by_cases ht : hasTargetBase targets c = true
    · refine .inl ⟨?_, h, Relation.ReflTransGen.refl, (hasTargetAt_iff hc).2 ht⟩
      rw [walkBases, hc]
      simp only [ht, if_true]
    · have hat : ¬ m.HasTargetAt targets h := fun hh => ht ((hasTargetAt_iff hc).1 hh)
      cases hb : c.resolvedBase with
      | none =>
        rw [hb] at hnext
        refine .inr (.inl ⟨?_, ?_, Chain.not_isCyclic_of_none hnext⟩)
        · rw [walkBases, hc]
          simp only [ht, hb]
          rfl
        · rw [hasTarget_iff_of_none hnext]
          exact hat
      | some b =>
        rw [hb] at hnext
        obtain ⟨c', hc'⟩ := hm h c b hc hb
        have hstep : m.walkBases targets (n + 1) h = m.walkBases targets n b := by
          rw [walkBases, hc]
          simp only [ht, hb]
          rfl
        rw [hstep, hasTarget_iff_of_next hnext, Chain.isCyclic_iff_of_step hnext]
        rcases ih hc' with ⟨hw, hyes⟩ | ⟨hw, hno, hcyc⟩ | ⟨hw, hsilent⟩
        · exact .inl ⟨hw, .inr hyes⟩
        · exact .inr (.inl ⟨hw, fun hh => hh.elim hat hno, hcyc⟩)
        · -- this class was silent, and so was the rest of the chain
          refine .inr (.inr ⟨hw, fun i hi => ?_⟩)
          cases i with
          | zero => exact ⟨h, c, rfl, hc, fun _ => hat⟩
          | succ i =>
            obtain ⟨x, cx, hx, hcx, hquiet⟩ := hsilent i (by omega)
            refine ⟨x, cx, ?_, hcx, fun hlt => hquiet (by omega)⟩
            rw [Chain.nth, hnext]
            exact hx

/-- A chain that has been silent for as many steps as there are types stays silent and is
cyclic. -/
theorem isCyclic_of_isSilent {m : Model} {targets : List String} {h : Handle}
    (hs : m.IsSilent targets m.size h) :
    Chain.IsCyclic m.nextClass? h ∧ ¬ m.HasTarget targets h := by
  have hbound : ∀ i ≤ m.size, ∃ x, Chain.nth m.nextClass? i h = some x ∧ x < m.size := by
    intro i hi
    obtain ⟨x, c, hx, hc, -⟩ := hs i hi
    exact ⟨x, hx, lt_size_of_class? hc⟩
  -- more places than types: two of them hold the same class
  obtain ⟨i, j, hij, hj, heq⟩ := Chain.exists_repetition hbound
  constructor
  · obtain ⟨x, hx, -⟩ := hbound i (by omega)
    exact Chain.repeats_iff_isCyclic.1 ⟨i, j, x, hij, hx, heq ▸ hx⟩
  · rintro ⟨x, hx, ht⟩
    obtain ⟨k, hk, hkx⟩ := Chain.exists_nth_of_on hij heq hx
    obtain ⟨y, c, hy, -, hquiet⟩ := hs k (by omega)
    have hxy : x = y := Option.some.inj (hkx.symm.trans hy)
    rw [hxy] at ht
    exact hquiet (by omega) ht

/-- The search finds a named base wherever it stands on the chain. -/
theorem hasBaseOf_of_hasTarget {m : Model} (hm : m.IsClosed) {targets : List String} {h : Handle}
    {c : ClassType} (hc : m.class? h = some c) (ht : m.HasTarget targets h) :
    m.hasBaseOf h targets = .ok true := by
  rw [hasBaseOf]
  rcases walkBases_cases hm targets m.size hc with ⟨hw, -⟩ | ⟨-, hno, -⟩ | ⟨-, hs⟩
  · rw [hw]
  · exact absurd ht hno
  · exact absurd ht (isCyclic_of_isSilent hs).2

/-- Without a named base the search fails on a cyclic chain, and says so of the class that it
started at. -/
theorem hasBaseOf_of_isCyclic {m : Model} (hm : m.IsClosed) {targets : List String} {h : Handle}
    {c : ClassType} (hc : m.class? h = some c) (ht : ¬ m.HasTarget targets h)
    (hcycle : Chain.IsCyclic m.nextClass? h) :
    m.hasBaseOf h targets = .error (.baseCycle (m.nameAt h)) := by
  rw [hasBaseOf]
  rcases walkBases_cases hm targets m.size hc with ⟨-, hyes⟩ | ⟨-, -, hno⟩ | ⟨hw, -⟩
  · exact absurd hyes ht
  · exact absurd hcycle hno
  · rw [hw]

/-- Without a named base the search comes to the end of a chain that has one. -/
theorem hasBaseOf_of_not_isCyclic {m : Model} (hm : m.IsClosed) {targets : List String}
    {h : Handle} {c : ClassType} (hc : m.class? h = some c) (ht : ¬ m.HasTarget targets h)
    (hcycle : ¬ Chain.IsCyclic m.nextClass? h) :
    m.hasBaseOf h targets = .ok false := by
  rw [hasBaseOf]
  rcases walkBases_cases hm targets m.size hc with ⟨-, hyes⟩ | ⟨hw, -, -⟩ | ⟨-, hs⟩
  · exact absurd hyes ht
  · rw [hw]
  · exact absurd (isCyclic_of_isSilent hs).1 hcycle

end Model

end Registrar
