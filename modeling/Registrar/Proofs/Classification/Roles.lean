/-
# The roles that classification gives

Classification goes through the classes in the order of the model and changes the model on its way.
It turns out that the role of a class depends only on the types as they were taken in: a documented
role stays, and otherwise the chain of bases decides.  If a chain is cyclic and no component base is
on it, classification stops there, and what it has given out before stays.
-/
import Registrar.Proofs.Classification.Chain

namespace Registrar

/-! ## The first role of some -/

/-- A role is the first one of some roles that has a property, or there is no such role and it is
none. -/
inductive IsFirstRole (p : Role → Prop) : List Role → Role → Prop where
  | here {role : Role} {roles : List Role} (hp : p role) : IsFirstRole p (role :: roles) role
  | later {role r : Role} {roles : List Role} (hp : ¬ p role) (hr : IsFirstRole p roles r) :
      IsFirstRole p (role :: roles) r
  | nowhere : IsFirstRole p [] .none

/-- The first role that has a property is the first one that has an equivalent one. -/
theorem IsFirstRole.congr {p q : Role → Prop} (hpq : ∀ role, p role ↔ q role) {roles : List Role}
    {r : Role} (hr : IsFirstRole p roles r) : IsFirstRole q roles r := by
  induction hr with
  | here hp => exact .here ((hpq _).1 hp)
  | later hp _ ih => exact .later (fun hq => hp ((hpq _).2 hq)) ih
  | nowhere => exact .nowhere

namespace Model

/-! ## What decides on a role -/

/-- The role of the class at a handle. -/
def roleAt (m : Model) (h : Handle) : Role :=
  ((m.class? h).map ClassType.role).getD .none

/-- The class that the base of the class at a handle leads to.  A class that its own reference leads to
is none. -/
def base? (m : Model) (h : Handle) : Option Handle :=
  (m.class? h).bind fun c => (m.resolveBase? c.base).filter fun b => b ≠ h

/-- The name of the base of the class at a handle: the qualified name of the class that it leads to, or
the name as it was written if it leads to none. -/
def baseName? (m : Model) (h : Handle) : Option String :=
  match m.base? h with
  | some b => (m.class? b).map ClassType.qualifiedName
  | none => (m.class? h).bind fun c => c.base.name?

/-- Some base on the chain of a class is named by one of some targets. -/
def ChainNames (m : Model) (targets : List String) (h : Handle) : Prop :=
  ∃ x, Chain.On m.base? h x ∧
    ∃ name, m.baseName? x = some name ∧ ∃ target ∈ targets, baseNameMatches name target = true

/-- The role that the chain of bases gives to a class.  It is a component if a component base is on the
chain, or else a system if a system base is, or else a scene if a scene base is. -/
def IsChainRole (m : Model) (bases : BaseSettings) (h : Handle) : Role → Prop
  | .component => m.ChainNames bases.component h
  | .system => ¬ m.ChainNames bases.component h ∧ m.ChainNames bases.system h
  | .scene => ¬ m.ChainNames bases.component h ∧ ¬ m.ChainNames bases.system h ∧
      m.ChainNames bases.scene h
  | .none => ¬ m.ChainNames bases.component h ∧ ¬ m.ChainNames bases.system h ∧
      ¬ m.ChainNames bases.scene h

/-- A class without a documented role. -/
def IsUntagged (m : Model) (h : Handle) : Prop :=
  ∃ c, m.class? h = some c ∧ c.role = .none

/-- A class whose chain of bases gives no answer: it has no documented role, and its chain is cyclic
and has no component base on it. -/
def Fails (m : Model) (bases : BaseSettings) (h : Handle) : Prop :=
  m.IsUntagged h ∧ Chain.IsCyclic m.base? h ∧ ¬ m.ChainNames bases.component h

/-- The role of a class after classification: the documented one, or the one that its chain
gives. -/
def IsFinalRole (m : Model) (bases : BaseSettings) (h : Handle) (role : Role) : Prop :=
  ∀ c, m.class? h = some c →
    (c.role ≠ .none → role = c.role) ∧ (c.role = .none → m.IsChainRole bases h role)

/-- The model with other roles. -/
def withRoles (m : Model) (role : Handle → Role) : Model :=
  m.mapClasses fun h c => { c with role := role h }

/-! ## Bases and roles as they are computed -/

/-- The base is the one that linking finds out. -/
theorem base?_eq (m : Model) (h : Handle) : m.base? h = (m.class? h).bind (m.baseOf? h) :=
  rfl

/-- The name of the base is the one that linking finds out. -/
theorem baseName?_eq (m : Model) (h : Handle) :
    m.baseName? h = (m.class? h).bind (m.baseNameOf? h) := by
  rw [baseName?, base?_eq]
  cases m.class? h with
  | none => rfl
  | some c =>
    rw [Option.bind_some, Option.bind_some, Option.bind_some, baseNameOf?]
    cases hb : m.baseOf? h c with
    | none => rfl
    | some b =>
      obtain ⟨d, hd⟩ := exists_class?_of_baseOf? hb
      simp only [hd, nameAt_eq_of_class? hd, Option.map_some]

/-- The first role with a target on the chain, in the order in which they are tried, is the role that
the chain gives. -/
theorem isChainRole_of_isFirstRole {m : Model} {bases : BaseSettings} {h : Handle} {role : Role}
    (hrole : IsFirstRole (fun r => m.ChainNames (bases.targets r) h) Role.structural role) :
    m.IsChainRole bases h role := by
  cases hrole with
  | here hcomponent => exact hcomponent
  | later hcomponent hrole =>
    cases hrole with
    | here hsystem => exact ⟨hcomponent, hsystem⟩
    | later hsystem hrole =>
      cases hrole with
      | here hscene => exact ⟨hcomponent, hsystem, hscene⟩
      | later hscene hrole =>
        cases hrole
        exact ⟨hcomponent, hsystem, hscene⟩

/-- A chain gives one role only. -/
theorem IsChainRole.unique {m : Model} {bases : BaseSettings} {h : Handle} {role role' : Role}
    (hrole : m.IsChainRole bases h role) (hrole' : m.IsChainRole bases h role') :
    role = role' := by
  cases role <;> cases role' <;> simp_all [IsChainRole]

/-! ## Linked models -/

/-- In a linked model every base that is filled in is a class. -/
theorem isClosed_link (m : Model) : m.link.IsClosed := by
  obtain ⟨marked, -, hm⟩ := m.exists_link_eq
  intro h c b hc hb
  rw [hm, class?_mapClasses, Option.map_eq_some_iff] at hc
  obtain ⟨c, -, rfl⟩ := hc
  obtain ⟨c', hc'⟩ := exists_class?_of_baseOf? hb
  rw [hm, class?_mapClasses, hc']
  exact ⟨_, rfl⟩

/-- Linking fills in the chain of bases. -/
theorem nextClass?_link (m : Model) : m.link.nextClass? = m.base? := by
  obtain ⟨marked, -, hm⟩ := m.exists_link_eq
  funext h
  rw [nextClass?, hm, class?_mapClasses, base?_eq]
  cases m.class? h with
  | none => rfl
  | some c => rfl

/-- Linking fills in the names of the bases. -/
theorem hasTarget_link (m : Model) (targets : List String) (h : Handle) :
    m.link.HasTarget targets h ↔ m.ChainNames targets h := by
  obtain ⟨marked, -, hm⟩ := m.exists_link_eq
  have hat : ∀ x, m.link.HasTargetAt targets x ↔
      ∃ name, m.baseName? x = some name ∧ ∃ t ∈ targets, baseNameMatches name t = true := by
    intro x
    rw [HasTargetAt, hm, class?_mapClasses, baseName?_eq]
    cases m.class? x with
    | none => simp
    | some c => simp [hasTargetBase, linkedClass, typedClass, basedClass, Option.any_eq_true]
  rw [HasTarget, ChainNames, nextClass?_link]
  simp only [hat]

theorem roleAt_link (m : Model) (h : Handle) : m.link.roleAt h = m.roleAt h := by
  obtain ⟨marked, -, hm⟩ := m.exists_link_eq
  rw [roleAt, roleAt, hm, class?_mapClasses, Option.map_map]
  rfl

/-! ## The role of one class -/

/-- The first role of which a base is on a chain that is not cyclic is found, if there is any. -/
theorem firstRole?_of_not_isCyclic {m : Model} (hm : m.IsClosed) (bases : BaseSettings)
    {h : Handle} {c : ClassType} (hc : m.class? h = some c)
    (hcycle : ¬ Chain.IsCyclic m.nextClass? h) (roles : List Role) :
    ∃ found, m.firstRole? bases h roles = .ok found ∧
      IsFirstRole (fun r => m.HasTarget (bases.targets r) h) roles (found.getD .none) := by
  induction roles with
  | nil => exact ⟨none, rfl, .nowhere⟩
  | cons role roles ih =>
    by_cases ht : m.HasTarget (bases.targets role) h
    · refine ⟨some role, ?_, .here ht⟩
      rw [firstRole?, hasBaseOf_of_hasTarget hm hc ht]
    · obtain ⟨found, hfound, hfirst⟩ := ih
      refine ⟨found, ?_, .later ht hfirst⟩
      rw [firstRole?, hasBaseOf_of_not_isCyclic hm hc ht hcycle]
      exact hfound

/-- On a cyclic chain without a component base the search fails. -/
theorem structuralRole?_of_isCyclic {m : Model} (hm : m.IsClosed) {bases : BaseSettings}
    {h : Handle} {c : ClassType} (hc : m.class? h = some c)
    (hcycle : Chain.IsCyclic m.nextClass? h) (ht : ¬ m.HasTarget bases.component h) :
    m.structuralRole? bases h = .error (.baseCycle (m.nameAt h)) := by
  have hbase := hasBaseOf_of_isCyclic hm hc ht hcycle
  rw [structuralRole?, Role.structural, firstRole?, BaseSettings.targets, hbase]

/-- On any other chain the role is found. -/
theorem structuralRole?_of_not {m : Model} (hm : m.IsClosed) {bases : BaseSettings}
    {h : Handle} {c : ClassType} (hc : m.class? h = some c)
    (hok : Chain.IsCyclic m.nextClass? h → m.HasTarget bases.component h) :
    ∃ found, m.structuralRole? bases h = .ok found ∧
      IsFirstRole (fun r => m.HasTarget (bases.targets r) h) Role.structural
        (found.getD .none) := by
  by_cases hcycle : Chain.IsCyclic m.nextClass? h
  · have ht := hok hcycle
    refine ⟨some .component, ?_, .here ht⟩
    rw [structuralRole?, Role.structural, firstRole?, BaseSettings.targets,
      hasBaseOf_of_hasTarget hm hc ht]
  · exact firstRole?_of_not_isCyclic hm bases hc hcycle Role.structural

/-! ## Roles that have been given do not matter -/

theorem class?_withRoles (m : Model) (role : Handle → Role) (h : Handle) :
    (m.withRoles role).class? h = (m.class? h).map fun c => { c with role := role h } :=
  class?_mapClasses m _ h

theorem nameAt_withRoles (m : Model) (role : Handle → Role) (h : Handle) :
    (m.withRoles role).nameAt h = m.nameAt h := by
  apply nameAt_mapClasses
  intro _ _
  exact ⟨rfl, rfl⟩

/-- The walk along the bases does not look at roles. -/
theorem walkBases_withRoles (m : Model) (role : Handle → Role) (targets : List String) (n : Nat)
    (h : Handle) : (m.withRoles role).walkBases targets n h = m.walkBases targets n h := by
  induction n generalizing h with
  | zero => rfl
  | succ n ih =>
    rw [walkBases, walkBases, class?_withRoles]
    cases m.class? h with
    | none => rfl
    | some c =>
      simp only [Option.map_some, hasTargetBase]
      cases c.resolvedBase with
      | none => rfl
      | some b =>
        simp only [ih]
        rfl

theorem structuralRole?_withRoles (m : Model) (role : Handle → Role) (bases : BaseSettings)
    (h : Handle) :
    (m.withRoles role).structuralRole? bases h = m.structuralRole? bases h := by
  have hsearch : ∀ targets, (m.withRoles role).hasBaseOf h targets = m.hasBaseOf h targets := by
    intro targets
    rw [hasBaseOf, hasBaseOf, withRoles, size_mapClasses, ← withRoles, walkBases_withRoles,
      nameAt_withRoles]
  have hroles : ∀ roles, (m.withRoles role).firstRole? bases h roles =
      m.firstRole? bases h roles := by
    intro roles
    induction roles with
    | nil => rfl
    | cons r roles ih =>
      rw [firstRole?, firstRole?, hsearch, ih]
  exact hroles Role.structural

theorem assignRole_withRoles (m : Model) (role : Handle → Role) (h : Handle) (r : Role) :
    ((m.withRoles role).assignRole h r).result =
      m.withRoles fun x => if x = h then r else role x := by
  show (m.withRoles role).modifyClass h _ = _
  rw [withRoles, withRoles, modifyClass, mapClasses_mapClasses]
  congr 1
  funext x c
  by_cases hx : x = h
  · simp [hx]
  · simp [hx]

/-- The model with the roles that its classes have is the model. -/
theorem withRoles_roleAt (m : Model) : m.withRoles m.roleAt = m := by
  rw [withRoles, ← mapClasses_id m, mapClasses_mapClasses]
  apply mapClasses_congr
  intro h c hc
  rw [mapClasses_id, roleAt, hc]
  rfl

end Model

end Registrar
