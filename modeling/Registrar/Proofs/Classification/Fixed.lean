/-
# Models that classification leaves as they are

Classification reads the roles that it writes: a class that has one is passed over.  But it gives no role
that counts as none, so a class that it has passed, or to which it has given a role, it passes again, and
a class whose chain of bases gives no role gets none the second time either, since chains do not look at
roles.  Linking looks at no roles at all.  So a model that has been linked and classified is one that both
leave as it is.
-/
import Registrar.Proofs.Classification.Run
import Registrar.Proofs.Linking.Fixed
import Registrar.Proofs.Model.Catalogue

namespace Registrar.Model

/-! ## Settled classes -/

/-- Classification has nothing to do at a place: it holds no class without a role, or the chain of bases
there gives none. -/
def IsSettled (m : Model) (bases : BaseSettings) (h : Handle) : Prop :=
  ((m.class? h).all fun c => c.role ≠ .none) = true ∨ m.structuralRole? bases h = .ok none

/-- Where nothing is left to do, classification says nothing and does nothing. -/
theorem classifyAll_of_isSettled {m : Model} {bases : BaseSettings} {hs : List Handle}
    (hsettled : ∀ h ∈ hs, m.IsSettled bases h) : classifyAll bases m hs = pure ⟨m, none⟩ := by
  induction hs with
  | nil => rfl
  | cons h hs ih =>
    have hrest := ih fun x hx => hsettled x (List.mem_cons_of_mem h hx)
    rw [classifyAll]
    split
    · exact hrest
    · next hrole =>
      rw [(hsettled h List.mem_cons_self).resolve_left hrole]
      exact hrest

/-- The role that a chain of bases gives is one of those that are looked for. -/
theorem mem_of_firstRole? {m : Model} {bases : BaseSettings} {h : Handle} {roles : List Role}
    {role : Role} (hrole : m.firstRole? bases h roles = .ok (some role)) : role ∈ roles := by
  induction roles with
  | nil => simp [firstRole?] at hrole
  | cons r roles ih =>
    rw [firstRole?] at hrole
    split at hrole
    · simp at hrole
    · obtain rfl : r = role := by simpa using hrole
      exact List.mem_cons_self
    · exact List.mem_cons_of_mem r (ih hrole)

/-- What a chain gives is never the role `none`. -/
theorem ne_none_of_structuralRole? {m : Model} {bases : BaseSettings} {h : Handle} {role : Role}
    (hrole : m.structuralRole? bases h = .ok (some role)) : role ≠ .none := by
  have hmem : role ∈ Role.structural := mem_of_firstRole? hrole
  rintro rfl
  exact absurd hmem (by decide)

/-! ## Roles that are given on the way -/

/-- A model in which every class with a role still has one, and nothing but roles has changed. -/
def AddsRoles (m m' : Model) : Prop :=
  ∃ role, m' = m.withRoles role ∧ ∀ h, m.roleAt h ≠ .none → role h ≠ .none

theorem AddsRoles.refl (m : Model) : AddsRoles m m :=
  ⟨m.roleAt, m.withRoles_roleAt.symm, fun _ h => h⟩

/-- A class has the role that it is given. -/
theorem roleAt_withRoles_of_class? {m : Model} {h : Handle} {c : ClassType}
    (hc : m.class? h = some c) (role : Handle → Role) : (m.withRoles role).roleAt h = role h := by
  rw [roleAt, class?_withRoles, hc]
  rfl

/-- Only a class has a role. -/
theorem exists_class?_of_roleAt_ne {m : Model} {h : Handle} (hh : m.roleAt h ≠ .none) :
    ∃ c, m.class? h = some c := by
  cases hc : m.class? h with
  | none =>
    rw [roleAt, hc] at hh
    exact absurd rfl hh
  | some c => exact ⟨c, rfl⟩

/-- Adding roles twice is adding roles. -/
theorem AddsRoles.trans {m m' m'' : Model} (h : AddsRoles m m') (h' : AddsRoles m' m'') :
    AddsRoles m m'' := by
  obtain ⟨role, rfl, hrole⟩ := h
  obtain ⟨role', rfl, hrole'⟩ := h'
  refine ⟨role', m.withRoles_withRoles role role', fun x hx => hrole' x ?_⟩
  obtain ⟨c, hc⟩ := exists_class?_of_roleAt_ne hx
  rw [roleAt_withRoles_of_class? hc]
  exact hrole x hx

/-- What is settled stays settled when roles are added. -/
theorem IsSettled.addsRoles {m m' : Model} {bases : BaseSettings} {h : Handle}
    (hm : AddsRoles m m') (hh : m.IsSettled bases h) : m'.IsSettled bases h := by
  obtain ⟨role, rfl, hrole⟩ := hm
  rcases hh with hall | hchain
  · left
    rw [class?_withRoles]
    cases hc : m.class? h with
    | none => rfl
    | some c =>
      have hne : m.roleAt h ≠ .none := by
        rw [hc] at hall
        rw [roleAt, hc]
        simpa using hall
      simpa using hrole h hne
  · right
    rw [structuralRole?_withRoles]
    exact hchain

/-- The step to a model in which an untagged class has got its role. -/
theorem addsRoles_assignRole (m : Model) (h : Handle) {role : Role} (hrole : role ≠ .none) :
    AddsRoles m (m.assignRole h role).result := by
  refine ⟨fun x => if x = h then role else m.roleAt x, ?_, fun x hx => ?_⟩
  · rw [← assignRole_withRoles, withRoles_roleAt]
  · show (if x = h then role else m.roleAt x) ≠ .none
    split
    · exact hrole
    · exact hx

/-- Nothing is left to do at a class that has been given a role. -/
theorem isSettled_assignRole (m : Model) (bases : BaseSettings) (h : Handle) {role : Role}
    (hrole : role ≠ .none) : (m.assignRole h role).result.IsSettled bases h := by
  left
  show ((m.modifyClass h _).class? h).all _ = true
  rw [class?_modifyClass, if_pos rfl]
  cases m.class? h with
  | none => rfl
  | some c => simpa using hrole

/-! ## Whole runs -/

/-- A run that does not fail adds roles, and then everything that it has come by is settled. -/
theorem isSettled_of_classifyAll {bases : BaseSettings} {m m' : Model} {hs : List Handle}
    (hrun : (classifyAll bases m hs).result = ⟨m', none⟩) :
    AddsRoles m m' ∧ ∀ h ∈ hs, m'.IsSettled bases h := by
  induction hs generalizing m with
  | nil =>
    obtain rfl : m = m' := (Classified.mk.inj hrun).1
    exact ⟨.refl m, fun h hh => absurd hh List.not_mem_nil⟩
  | cons h hs ih =>
    -- whatever has been done at the first place, it is settled there, and stays so to the end
    have hcons : ∀ {m₁ : Model}, AddsRoles m m₁ → m₁.IsSettled bases h →
        (classifyAll bases m₁ hs).result = ⟨m', none⟩ →
        AddsRoles m m' ∧ ∀ x ∈ h :: hs, m'.IsSettled bases x := by
      intro m₁ hadds hsettled hrest
      obtain ⟨hadds', hsettled'⟩ := ih hrest
      exact ⟨hadds.trans hadds', List.forall_mem_cons.2 ⟨hsettled.addsRoles hadds', hsettled'⟩⟩
    rw [classifyAll] at hrun
    split at hrun
    · next hall => exact hcons (.refl m) (.inl hall) hrun
    · split at hrun
      · simp at hrun
      · next hchain => exact hcons (.refl m) (.inr hchain) hrun
      · next role hchain =>
        have hne := ne_none_of_structuralRole? hchain
        exact hcons (m.addsRoles_assignRole h hne) (m.isSettled_assignRole bases h hne) hrun

/-- Roles do not change where the classes are. -/
theorem classHandles_withRoles (m : Model) (role : Handle → Role) :
    (m.withRoles role).classHandles = m.classHandles :=
  classHandles_mapClasses m _

/-- A classified model is classified. -/
theorem classify_of_classify {m m' : Model} {bases : BaseSettings}
    (hrun : (m.classify bases).result = ⟨m', none⟩) : m'.classify bases = pure ⟨m', none⟩ := by
  obtain ⟨⟨role, hm', -⟩, hsettled⟩ := isSettled_of_classifyAll hrun
  have hhandles : m'.classHandles = m.classHandles := by rw [hm', classHandles_withRoles]
  rw [classify, hhandles]
  exact classifyAll_of_isSettled hsettled

/-- Linking does not look at roles. -/
theorem isLinked_withRoles {m : Model} (hm : m.IsLinked) (role : Handle → Role) :
    (m.withRoles role).IsLinked := by
  have hkeeps : KeepsReferences fun h c => { c with role := role h } :=
    ⟨⟨fun _ _ => ⟨rfl, rfl⟩, fun _ _ => rfl, fun _ _ => rfl⟩, fun _ _ => rfl⟩
  intro h d hd
  rw [class?_withRoles, Option.map_eq_some_iff] at hd
  obtain ⟨c, hc, rfl⟩ := hd
  rw [withRoles, isLinkedClass_mapClasses hkeeps]
  obtain ⟨hbase, hname, hderived, henum, hmember⟩ := hm h c hc
  exact ⟨hbase, hname, hderived, henum, hmember⟩

/-- Linking and classifying once is enough, whatever the fields that they fill in held before.  A linked
model stays as it is when it is linked again, and a model that has been linked and classified without a
failure stays as it is when both are done again, of which nothing is said. -/
theorem link_classify_idempotent (m : Model) (bases : BaseSettings) :
    m.link.link = m.link ∧
      ∀ m', (m.link.classify bases).result = ⟨m', none⟩ →
        m'.link = m' ∧ m'.link.classify bases = pure ⟨m', none⟩ := by
  refine ⟨link_eq_self m.isLinked_link, fun m' hrun => ?_⟩
  obtain ⟨⟨role, hm', -⟩, -⟩ := isSettled_of_classifyAll hrun
  have hlink : m'.link = m' := by
    rw [hm']
    exact link_eq_self (isLinked_withRoles m.isLinked_link role)
  refine ⟨hlink, ?_⟩
  rw [hlink]
  exact classify_of_classify hrun

/-- Two classes in a circle, both with documented roles and one of them marked as nested in a template, a
template that lists that one, and a class without a role. -/
def presetTypes : Model where
  declarations :=
    [.classType { qualifiedName := "A", base := .byName "B", role := .scene },
      .classType { identifier := some "b", qualifiedName := "B", base := .byName "A",
                   isWithinTemplate := true, role := .system, innerClasses := ["c"] },
      .classType { qualifiedName := "T", isTemplate := true, role := .scene,
                   innerClasses := ["b"] },
      .classType { identifier := some "c", qualifiedName := "C", base := .byName "Component",
                   resolvedBase := some 7, effectiveBaseName := some "X" }]

theorem link_classify_presetTypes :
    ∃ m', (presetTypes.link.classify {}).result = ⟨m', none⟩ ∧
      m'.link = m' ∧ m'.link.classify {} = pure ⟨m', none⟩ := by
  -- only the last class has no role, and its chain ends right there
  have hfails : ∀ h, ¬ presetTypes.Fails {} h := by
    rintro h ⟨⟨c, hc, hrole⟩, hcycle, -⟩
    have hlt : h < 4 := lt_size_of_class? hc
    have hlast : ∀ x < 4, (∃ c, presetTypes.class? x = some c ∧ c.role = .none) → x = 3 := by
      decide
    obtain rfl := hlast h hlt ⟨c, hc, hrole⟩
    exact Chain.not_isCyclic_of_none (by decide) hcycle
  obtain ⟨role, hmodel, ⟨hnone, -⟩ | ⟨h, -, hf, -⟩⟩ := presetTypes.classify_link {}
  · have hrun : (presetTypes.link.classify {}).result = ⟨presetTypes.link.withRoles role, none⟩ := by
      rw [← hmodel, ← hnone]
    exact ⟨_, hrun, (link_classify_idempotent presetTypes {}).2 _ hrun⟩
  · exact absurd hf (hfails h)

end Registrar.Model
