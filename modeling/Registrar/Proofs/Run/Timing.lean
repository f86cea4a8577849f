/-
# The times of phases

A phase that runs again adds its time to the entry that it has, and a new one gets an entry at the
end.  So after any number of runs the report has one entry for each phase, in the order in which the
phases first ran, and the time in it is the sum over the runs of this phase alone.
-/
import Mathlib.Algebra.GroupWithZero.Nat
import Mathlib.Data.List.Basic
import Mathlib.Data.List.Induction
import Registrar.Run.Report

namespace Registrar

/-! ## The order of first occurrences -/

/-- Some names are the ones that occur in a list, in the order in which they first occur there. -/
structure InFirstOrder (occurring names : List String) : Prop where
  mem_iff : ∀ name, name ∈ names ↔ name ∈ occurring
  ordered : names.Pairwise fun a b => occurring.idxOf a < occurring.idxOf b

namespace InFirstOrder

variable {occurring names : List String} {name : String}

theorem nil : InFirstOrder [] [] :=
  ⟨fun _ => Iff.rfl, List.Pairwise.nil⟩

/-- No name comes before itself, so none is there twice. -/
theorem nodup (h : InFirstOrder occurring names) : names.Nodup := by
  refine h.ordered.imp ?_
  rintro a b hlt rfl
  exact Nat.lt_irrefl _ hlt

/-- The places of the names that have occurred stay what they are. -/
theorem ordered_concat (h : InFirstOrder occurring names) (name : String) :
    names.Pairwise fun a b => (occurring ++ [name]).idxOf a < (occurring ++ [name]).idxOf b := by
  refine h.ordered.imp_of_mem ?_
  intro a b ha hb hlt
  rw [List.idxOf_append_of_mem ((h.mem_iff a).1 ha), List.idxOf_append_of_mem ((h.mem_iff b).1 hb)]
  exact hlt

/-- A name that occurs again changes nothing. -/
theorem concat_of_mem (h : InFirstOrder occurring names) (hname : name ∈ occurring) :
    InFirstOrder (occurring ++ [name]) names where
  mem_iff other := by
    rw [h.mem_iff, List.mem_append, List.mem_singleton]
    refine ⟨.inl, ?_⟩
    rintro (hother | rfl)
    · exact hother
    · exact hname
  ordered := h.ordered_concat name

/-- A name that occurs for the first time is the last one. -/
theorem concat_of_notMem (h : InFirstOrder occurring names) (hname : name ∉ occurring) :
    InFirstOrder (occurring ++ [name]) (names ++ [name]) where
  mem_iff other := by rw [List.mem_append, List.mem_append, h.mem_iff]
  ordered := by
    rw [List.pairwise_append]
    refine ⟨h.ordered_concat name, List.pairwise_singleton _ name, ?_⟩
    intro a ha b hb
    have hmem := (h.mem_iff a).1 ha
    obtain rfl := List.mem_singleton.1 hb
    rw [List.idxOf_append_of_mem hmem, List.idxOf_append_of_notMem hname]
    exact Nat.lt_of_lt_of_le (List.idxOf_lt_length_of_mem hmem) (Nat.le_add_right _ _)

end InFirstOrder

namespace Report

/-! ## The time of a phase -/

/-- How long the runs of one phase took in all. -/
def totalTime (runs : List (String × Nat)) (name : String) : Nat :=
  ((runs.filter fun run => run.1 = name).map Prod.snd).sum

/-- A further run adds to the time of its own phase and to no other one. -/
theorem totalTime_concat (runs : List (String × Nat)) (name : String) (elapsed : Nat)
    (other : String) :
    totalTime (runs ++ [(name, elapsed)]) other =
      totalTime runs other + if name = other then elapsed else 0 := by
  unfold totalTime
  rw [List.filter_append, List.map_append, List.sum_append]
  by_cases hname : name = other <;> simp [hname]

theorem totalTime_of_notMem {runs : List (String × Nat)} {name : String}
    (hname : name ∉ runs.map Prod.fst) : totalTime runs name = 0 := by
  have hnone : runs.filter (fun run => run.1 = name) = [] := by
    rw [List.filter_eq_nil_iff]
    intro run hrun heq
    exact hname (List.mem_map.2 ⟨run, hrun, of_decide_eq_true heq⟩)
  rw [totalTime, hnone, List.map_nil, List.sum_nil]

/-! ## One run -/

/-- The time of a phase does not count for others. -/
theorem map_add_of_notMem {names : List String} {name : String} (hname : name ∉ names)
    (elapsed : Nat) (time : String → Nat) :
    (names.map fun other => (other, time other + if name = other then elapsed else 0)) =
      names.map fun other => (other, time other) := by
  apply List.map_congr_left
  intro other hother
  have hne : name ≠ other := fun heq => hname (heq ▸ hother)
  rw [if_neg hne, Nat.add_zero]

/-- The entry of a phase is the only one that its time is added to. -/
theorem addTime_map_of_mem {names : List String} (hnodup : names.Nodup) {name : String}
    (hname : name ∈ names) (elapsed : Nat) (time : String → Nat) :
    addTime name elapsed (names.map fun other => (other, time other)) =
      names.map fun other => (other, time other + if name = other then elapsed else 0) := by
  induction names with
  | nil => exact absurd hname List.not_mem_nil
  | cons first names ih =>
    obtain ⟨hfirst, hrest⟩ := List.nodup_cons.1 hnodup
    rw [List.map_cons, List.map_cons, addTime]
    by_cases heq : first = name
    · -- the rest does not have the name, so nothing is added there
      subst heq
      rw [if_pos rfl, if_pos rfl, map_add_of_notMem hfirst]
    · rw [if_neg heq, if_neg (Ne.symm heq), Nat.add_zero,
        ih hrest ((List.mem_cons.1 hname).resolve_left (Ne.symm heq))]

/-- A phase without an entry gets one at the end. -/
theorem addTime_of_notMem {name : String} {phases : List (String × Nat)}
    (hname : name ∉ phases.map Prod.fst) (elapsed : Nat) :
    addTime name elapsed phases = phases ++ [(name, elapsed)] := by
  induction phases with
  | nil => rfl
  | cons first phases ih =>
    rw [List.map_cons, List.mem_cons, not_or] at hname
    rw [addTime, if_neg (Ne.symm hname.1), ih hname.2]
    rfl

/-! ## Any number of runs -/

/-- The report after phases have run one after the other, each of them for some time. -/
def timeAll (r : Report) (runs : List (String × Nat)) : Report :=
  runs.foldl (fun r run => r.timePhase run.1 run.2) r

theorem timeAll_concat (r : Report) (runs : List (String × Nat)) (run : String × Nat) :
    r.timeAll (runs ++ [run]) = (r.timeAll runs).timePhase run.1 run.2 := by
  rw [timeAll, List.foldl_append]
  rfl

/-- After some runs each phase has one entry, with the time of all its runs. -/
structure Accounts (runs : List (String × Nat)) (names : List String)
    (phases : List (String × Nat)) : Prop where
  order : InFirstOrder (runs.map Prod.fst) names
  phases_eq : phases = names.map fun name => (name, totalTime runs name)

namespace Accounts

variable {runs phases : List (String × Nat)} {names : List String}

theorem map_fst (h : Accounts runs names phases) : phases.map Prod.fst = names := by
  rw [h.phases_eq, List.map_map]
  exact List.map_id names

/-- What is listed accounts for one more run after the time of that run has been added. -/
theorem concat (h : Accounts runs names phases) (name : String) (elapsed : Nat) :
    ∃ names', Accounts (runs ++ [(name, elapsed)]) names' (addTime name elapsed phases) := by
  have hran : (runs ++ [(name, elapsed)]).map Prod.fst = runs.map Prod.fst ++ [name] := by
    rw [List.map_append]
    rfl
  have htotal : (fun other => (other, totalTime (runs ++ [(name, elapsed)]) other)) =
      fun other => (other, totalTime runs other + if name = other then elapsed else 0) :=
    funext fun other => by rw [totalTime_concat]
  by_cases hname : name ∈ runs.map Prod.fst
  · refine ⟨names, hran ▸ h.order.concat_of_mem hname, ?_⟩
    rw [h.phases_eq, addTime_map_of_mem h.order.nodup ((h.order.mem_iff name).2 hname), htotal]
  · refine ⟨names ++ [name], hran ▸ h.order.concat_of_notMem hname, ?_⟩
    have hfresh : name ∉ names := fun hmem => hname ((h.order.mem_iff name).1 hmem)
    rw [addTime_of_notMem (h.map_fst.symm ▸ hfresh), h.phases_eq, htotal, List.map_append,
      map_add_of_notMem hfresh, List.map_singleton, totalTime_of_notMem hname, if_pos rfl,
      Nat.zero_add]

/-- A phase is found exactly if it ran, and then with the time of all its runs. -/
theorem lookup_eq (h : Accounts runs names phases) (name : String) :
    phases.lookup name =
      if name ∈ runs.map Prod.fst then some (totalTime runs name) else none := by
  by_cases hname : name ∈ runs.map Prod.fst
  · rw [if_pos hname, h.phases_eq, List.lookup_graph _ ((h.order.mem_iff name).2 hname)]
  · rw [if_neg hname, List.lookup_eq_none_iff]
    intro entry hentry
    have hmem : entry.1 ∈ names := h.map_fst ▸ List.mem_map_of_mem hentry
    have hne : name ≠ entry.1 := fun heq => hname ((h.order.mem_iff name).1 (heq ▸ hmem))
    exact bne_iff_ne.2 hne

end Accounts

/-- The phases of a new report account for the runs. -/
theorem exists_accounts_timeAll {r : Report} (hr : r.phases = []) (runs : List (String × Nat)) :
    ∃ names, Accounts runs names (r.timeAll runs).phases := by
  induction runs using List.reverseRecOn with
  | nil => exact ⟨[], InFirstOrder.nil, hr⟩
  | append_singleton runs run ih =>
    obtain ⟨names, h⟩ := ih
    rw [timeAll_concat]
    exact h.concat run.1 run.2

/-- Whatever phases run, a new report lists each one that ran once and no other, the ones that ran
earlier first.  A phase is found in it exactly if it ran, with the sum of the times of all its runs,
and what is listed is what is found. -/
theorem phases_timeAll (output : Path) (runs : List (String × Nat)) :
    let r := timeAll { output := output } runs
    let ran := runs.map Prod.fst
    let listed := r.phases.map Prod.fst
    listed.Nodup ∧ (∀ name, name ∈ listed ↔ name ∈ ran) ∧
      listed.Pairwise (fun a b => ran.idxOf a < ran.idxOf b) ∧
      (∀ name, r.phase? name = if name ∈ ran then some (totalTime runs name) else none) ∧
      ∀ name time, (name, time) ∈ r.phases ↔ r.phase? name = some time := by
  intro r ran listed
  obtain ⟨names, h⟩ := exists_accounts_timeAll (r := { output := output }) rfl runs
  have hlisted : listed = names := h.map_fst
  refine ⟨hlisted ▸ h.order.nodup, hlisted ▸ h.order.mem_iff, hlisted ▸ h.order.ordered,
    h.lookup_eq, ?_⟩
  intro name time
  show (name, time) ∈ r.phases ↔ r.phases.lookup name = some time
  rw [h.lookup_eq, h.phases_eq, List.mem_map]
  constructor
  · rintro ⟨other, hother, heq⟩
    obtain ⟨rfl, rfl⟩ := Prod.mk.inj heq
    rw [if_pos ((h.order.mem_iff other).1 hother)]
  · intro hfound
    split at hfound
    · next hname =>
      obtain rfl := Option.some.inj hfound
      exact ⟨name, (h.order.mem_iff name).2 hname, rfl⟩
    · exact absurd hfound (by simp)

/-- A phase that runs again keeps its place. -/
example : (timeAll { output := ⟨"out"⟩ } [("ingest", 3), ("emit", 1), ("ingest", 2)]).phases =
    [("ingest", 5), ("emit", 1)] := by
  decide

end Report

end Registrar
