/-
# What a plan lists

A plan lists every enum once and every class that can be registered once.  The classes of a role
are picked from those in their order, where a system is picked only if no other class has it as its
base.  Every list goes by the bytes of the names, and types of one name stand as they were taken in.
-/
import Registrar.Proofs.Classification.Run
import Registrar.Proofs.Linking.Base
import Registrar.Proofs.Order.Plan
import Registrar.Proofs.Text.ByteOrder

namespace Registrar

namespace Model

/-- Linking marks the bases of classes, and no role changes that. -/
theorem hasDerived_link_withRoles (m : Model) (role : Handle → Role) (h : Handle) :
    (m.link.withRoles role).hasDerived h = m.isBase h := by
  rw [← hasDerived_link, Bool.eq_iff_iff, hasDerived_iff, hasDerived_iff]
  simp only [class?_withRoles, Option.map_eq_some_iff]
  constructor
  · rintro ⟨h', -, hne, ⟨c, hc, rfl⟩, hbase⟩
    exact ⟨h', c, hne, hc, hbase⟩
  · rintro ⟨h', c, hne, hc, hbase⟩
    exact ⟨h', _, hne, ⟨c, hc, rfl⟩, hbase⟩

end Model

namespace Plan

open Model

variable {m : Model}

/-! ## The order of a list -/

/-- One type stands before another one: the bytes of its name are smaller, or the two have one name
and it was taken in earlier. -/
def Precedes (m : Model) (a b : Handle) : Prop :=
  Text.bytes (m.nameAt a) < Text.bytes (m.nameAt b) ∨ m.nameAt a = m.nameAt b ∧ a < b

theorem Precedes.asymm {a b : Handle} (hab : Precedes m a b) : ¬ Precedes m b a := by
  unfold Precedes at hab ⊢
  rw [Text.bytes_lt_iff] at hab ⊢
  rintro (hba | ⟨heq, hba⟩)
  · rcases hab with hab | ⟨heq, -⟩
    · exact lt_asymm hab hba
    · rw [heq] at hba
      exact lt_irrefl _ hba
  · rcases hab with hab | ⟨-, hab⟩
    · rw [heq] at hab
      exact lt_irrefl _ hab
    · exact Nat.lt_asymm hab hba

theorem sorted_perm (m : Model) (hs : List Handle) : (sorted m hs).Perm hs :=
  List.mergeSort_perm hs _

/-- Sorting keeps the types of one name in the order that they had. -/
theorem filter_nameAt_sorted (m : Model) (hs : List Handle) (name : String) :
    (sorted m hs).filter (m.nameAt · = name) = hs.filter (m.nameAt · = name) := by
  have hsame : (hs.filter (m.nameAt · = name)).Pairwise
      fun a b => decide (m.nameAt a ≤ m.nameAt b) = true := by
    apply List.pairwise_of_forall_mem_list
    intro a ha b hb
    have ha' : m.nameAt a = name := of_decide_eq_true (List.mem_filter.1 ha).2
    have hb' : m.nameAt b = name := of_decide_eq_true (List.mem_filter.1 hb).2
    rw [ha', hb', decide_eq_true_iff]
  have hsub : (hs.filter (m.nameAt · = name)).Sublist (sorted m hs) :=
    List.sublist_mergeSort (nameAt_le_trans m) (nameAt_le_total m) hsame List.filter_sublist
  have hsub' := hsub.filter (m.nameAt · = name)
  rw [List.filter_filter] at hsub'
  simp only [Bool.and_self] at hsub'
  exact (hsub'.eq_of_length ((sorted_perm m hs).filter _).length_eq.symm).symm

/-- Sorted handles stand in the order of a plan if they came in ascending order. -/
theorem pairwise_precedes_sorted {hs : List Handle} (h : hs.Pairwise (· < ·)) :
    (sorted m hs).Pairwise (Precedes m) := by
  have hnames := List.pairwise_mergeSort (nameAt_le_trans m) (nameAt_le_total m) hs
  rw [List.pairwise_iff_forall_sublist] at hnames ⊢
  intro a b hab
  have hle : m.nameAt a ≤ m.nameAt b := of_decide_eq_true (hnames hab)
  rcases lt_or_eq_of_le hle with hlt | heq
  · exact Or.inl ((Text.bytes_lt_iff _ _).2 hlt)
  · -- two types of one name stand as they did before the sorting
    refine Or.inr ⟨heq, ?_⟩
    have hfilter := hab.filter (m.nameAt · = m.nameAt b)
    rw [filter_nameAt_sorted] at hfilter
    have hpair : [a, b].filter (m.nameAt · = m.nameAt b) = [a, b] := by simp [heq]
    rw [hpair] at hfilter
    exact List.pairwise_iff_forall_sublist.1 h (hfilter.trans List.filter_sublist)

/-- Picking some handles and sorting them is sorting all of them and picking these. -/
theorem sorted_filter {hs : List Handle} (h : hs.Pairwise (· < ·)) (p : Handle → Bool) :
    sorted m (hs.filter p) = (sorted m hs).filter p := by
  have hpicked := pairwise_precedes_sorted (m := m) (h.filter p)
  have hall := (pairwise_precedes_sorted (m := m) h).filter p
  refine List.Perm.eq_of_pairwise ?_ hpicked hall ?_
  · intro a b _ _ hab hba
    exact absurd hba hab.asymm
  · exact (sorted_perm m _).trans ((sorted_perm m hs).filter p).symm

/-! ## What is listed -/

/-- A plan lists what there is to register in a model. -/
structure Partitions (m : Model) (s : Settings) (p : Plan) : Prop where
  enums : ∀ h, p.enums.count h = if (m.enum? h).isSome then 1 else 0
  classes : ∀ h, p.classes.count h =
    if (m.class? h).any fun c => c.isRegistrable s then 1 else 0
  disjoint : ∀ role role' h, h ∈ p.roleHandles role → h ∈ p.roleHandles role' → role = role'
  components : p.components = p.classes.filter fun h => m.roleAt h = .component
  systems : p.systems = p.classes.filter fun h => m.roleAt h = .system && !m.hasDerived h
  scenes : p.scenes = p.classes.filter fun h => m.roleAt h = .scene
  ordered : ∀ hs ∈ [p.enums, p.classes, p.components, p.systems, p.scenes],
    hs.Pairwise (Precedes m)

theorem count_sorted {hs : List Handle} (hn : hs.Nodup) (h : Handle) {b : Bool}
    (hb : h ∈ hs ↔ b = true) : (sorted m hs).count h = if b then 1 else 0 := by
  rw [(sorted_perm m hs).count_eq, hn.count]
  simp only [hb]

theorem pairwise_lt_registrable (m : Model) (s : Settings) (p : ClassType → Bool) :
    (registrable m s p).Pairwise (· < ·) :=
  m.pairwise_lt_classHandles.filter _

/-- The classes with a property are picked from all that can be registered. -/
theorem sorted_registrable (m : Model) (s : Settings) (p : ClassType → Bool)
    {q : Handle → Bool} (hq : ∀ h c, m.class? h = some c → q h = p c) :
    sorted m (registrable m s p) = (sorted m (registrable m s fun _ => true)).filter q := by
  rw [← sorted_filter (pairwise_lt_registrable m s _), registrable, registrable, List.filter_filter]
  congr 1
  apply List.filter_congr
  intro h hh
  obtain ⟨c, hc⟩ := (mem_classHandles m h).1 hh
  rw [hc, hq h c hc, Option.any_some, Option.any_some, Bool.and_true, Bool.and_comm]

theorem roleAt_of_mem_sorted {s : Settings} {p : ClassType → Bool} {role : Role} {h : Handle}
    (hp : ∀ c, p c = true → c.role = role) (hh : h ∈ sorted m (registrable m s p)) :
    m.roleAt h = role := by
  have hmem := (mem_registrable m s p h).1 ((sorted_perm m _).mem_iff.1 hh)
  obtain ⟨c, hc, hpick⟩ := (Option.any_eq_true _ _).1 hmem
  rw [Bool.and_eq_true] at hpick
  rw [roleAt, hc]
  exact hp c hpick.2

/-- A class in the list of a role has that role. -/
theorem roleAt_of_mem_roleHandles {s : Settings} {role : Role} {h : Handle}
    (hh : h ∈ (ofModel m s).roleHandles role) : m.roleAt h = role := by
  cases role with
  | none => exact absurd hh (by simp [roleHandles])
  | component => exact roleAt_of_mem_sorted (fun c hc => of_decide_eq_true hc) hh
  | system =>
    refine roleAt_of_mem_sorted (fun c hc => ?_) hh
    rw [Bool.and_eq_true] at hc
    exact of_decide_eq_true hc.1
  | scene => exact roleAt_of_mem_sorted (fun c hc => of_decide_eq_true hc) hh

/-- A plan lists what there is to register if the classes are marked from which others derive. -/
theorem partitions_ofModel (s : Settings)
    (hmarks : ∀ h c, m.class? h = some c → c.isDerivedFrom = m.hasDerived h) :
    Partitions m s (ofModel m s) where
  enums h := by
    refine count_sorted m.nodup_enumHandles h ?_
    rw [mem_enumHandles, Option.isSome_iff_exists]
  classes h := by
    refine count_sorted (nodup_registrable m s _) h ?_
    rw [mem_registrable]
    simp only [Bool.and_true]
  disjoint role role' h hh hh' :=
    (roleAt_of_mem_roleHandles hh).symm.trans (roleAt_of_mem_roleHandles hh')
  components := sorted_registrable m s _ fun h c hc => by simp [roleAt, hc]
  systems := sorted_registrable m s _ fun h c hc => by simp [roleAt, hc, hmarks h c hc]
  scenes := sorted_registrable m s _ fun h c hc => by simp [roleAt, hc]
  ordered hs hh := by
    have henums : m.enumHandles.Pairwise (· < ·) := List.pairwise_lt_range.filter _
    simp only [List.mem_cons, List.not_mem_nil, or_false] at hh
    rcases hh with rfl | rfl | rfl | rfl | rfl
    · exact pairwise_precedes_sorted henums
    all_goals exact pairwise_precedes_sorted (pairwise_lt_registrable m s _)

/-- Whatever types are taken in, the plan for them lists every enum and every class that can be
registered once, those of a role by role, and of the systems those from which no other class
derives, and each of its lists is in order. -/
theorem partitions_of_pushed_types (ds : List Declaration) (s : Settings)
    (hunset : ∀ c, .classType c ∈ ds → c.isDerivedFrom = false) :
    let m := ((ds.foldl push {}).link.classify s.bases).result.model
    Partitions m s (make m s).result := by
  intro m
  obtain ⟨role, hm, -⟩ := (ds.foldl push {}).classify_link s.bases
  obtain ⟨marked, -, hlink⟩ := (ds.foldl push {}).exists_link_eq
  refine partitions_ofModel s fun h c hc => ?_
  have hderived := hasDerived_link_withRoles (ds.foldl push {}) role h
  rw [← hm] at hderived
  rw [show m.hasDerived h = _ from hderived]
  replace hc : m.class? h = some c := hc
  rw [show m = _ from hm, class?_withRoles, hlink, class?_mapClasses, Option.map_map,
    Option.map_eq_some_iff] at hc
  obtain ⟨c₀, hc₀, rfl⟩ := hc
  -- the mark was not there before linking, so it is there because of a class that derives
  have hmem : .classType c₀ ∈ ds := by
    have hget := get?_eq_some_of_class? hc₀
    rw [foldl_push] at hget
    simpa using List.mem_of_getElem? hget
  show (c₀.isDerivedFrom || _) = _
  rw [hunset c₀ hmem, Bool.false_or]

/-- Two classes of one name, a system with a class that derives from it, and one without. -/
def mixedTypes : List Declaration :=
  [.classType { qualifiedName := "n::Twin", role := .component },
    .classType { qualifiedName := "n::Physics", base := .byName "System< Physics >" },
    .enumType { qualifiedName := "n::Axis", values := ["Axis_X"] },
    .classType { qualifiedName := "n::Fluids", role := .system, base := .byName "n::Physics" },
    .classType { qualifiedName := "n::Twin", role := .component }]

theorem partitions_mixedTypes :
    (∀ c, .classType c ∈ mixedTypes → c.isDerivedFrom = false) ∧
      let m := ((mixedTypes.foldl push {}).link.classify {}).result.model
      Partitions m {} (make m {}).result := by
  have hunset : ∀ c, .classType c ∈ mixedTypes → c.isDerivedFrom = false := by
    simp [mixedTypes]
  exact ⟨hunset, partitions_of_pushed_types mixedTypes {} hunset⟩

end Plan

end Registrar
