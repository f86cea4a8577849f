/-
# Renumbering

The same types in another order have other handles.  If no two types share an identifier or a name,
every look-up follows the renumbering, and so does all that is found out by look-ups: the bases, the
chains of bases, the members of templates and the roles.
-/
import Mathlib.Logic.Equiv.Basic
import Registrar.Proofs.Classification.Run

namespace Registrar.Model

/-- A model with the types of another one, each at the handle that `σ` gives it. -/
def Renumbers (σ : Equiv.Perm Handle) (m m' : Model) : Prop :=
  ∀ h, m'.get? (σ h) = m.get? h

/-- A renumbering can be taken back. -/
theorem Renumbers.symm {σ : Equiv.Perm Handle} {m m' : Model} (hσ : Renumbers σ m m') :
    Renumbers σ.symm m' m := by
  intro h
  rw [← hσ (σ.symm h), Equiv.apply_symm_apply]

/-! ## Permuted types -/

/-- A renumbering behind a first type that stays. -/
def shift (σ : Equiv.Perm Handle) : Equiv.Perm Handle where
  toFun
    | 0 => 0
    | h + 1 => σ h + 1
  invFun
    | 0 => 0
    | h + 1 => σ.symm h + 1
  left_inv h := by cases h <;> simp
  right_inv h := by cases h <;> simp

/-- Types in another order are the same types renumbered. -/
theorem exists_renumbers_of_perm {ds ds' : List Declaration} (hp : ds.Perm ds') :
    ∃ σ, Renumbers σ ⟨ds⟩ ⟨ds'⟩ := by
  -- a permutation is made of swaps at the front, moved along by what stands before them
  induction hp with
  | nil => exact ⟨Equiv.refl _, fun _ => rfl⟩
  | cons d _ ih =>
    obtain ⟨σ, hσ⟩ := ih
    refine ⟨shift σ, fun h => ?_⟩
    cases h with
    | zero => rfl
    | succ h => exact hσ h
  | swap a b ds =>
    refine ⟨Equiv.swap 0 1, fun h => ?_⟩
    match h with
    | 0 => rw [Equiv.swap_apply_left]; rfl
    | 1 => rw [Equiv.swap_apply_right]; rfl
    | h + 2 => rw [Equiv.swap_apply_of_ne_of_ne (by simp) (by simp)]; rfl
  | trans _ _ ih ih' =>
    obtain ⟨σ, hσ⟩ := ih
    obtain ⟨τ, hτ⟩ := ih'
    exact ⟨σ.trans τ, fun h => (hτ (σ h)).trans (hσ h)⟩

/-! ## Look-ups -/

/-- At most one type has a property. -/
def IsUniqueFor (m : Model) (p : Declaration → Prop) : Prop :=
  ∀ h h' d d', m.get? h = some d → m.get? h' = some d' → p d → p d' → h = h'

/-- No two types share an identifier, a qualified name or a simple name. -/
structure IsDistinct (m : Model) : Prop where
  identifier : ∀ i, m.IsUniqueFor fun d => d.identifier = some i
  qualifiedName : ∀ n, m.IsUniqueFor fun d => d.qualifiedName = n
  simpleName : ∀ n, m.IsUniqueFor fun d => d.simpleName = n

/-- A search for what is unique finds it wherever it stands. -/
theorem findIdx?_eq_some_iff_of_unique {m : Model} {p : Declaration → Bool}
    (hu : m.IsUniqueFor fun d => p d = true) (h : Handle) :
    m.declarations.findIdx? p = some h ↔ ∃ d, m.get? h = some d ∧ p d = true := by
  constructor
  · exact get?_of_findIdx?
  · rintro ⟨d, hd, hp⟩
    cases hfind : m.declarations.findIdx? p with
    | none =>
      rw [List.findIdx?_eq_none_iff] at hfind
      have := hfind d (List.mem_of_getElem? hd)
      rw [hp] at this
      simp at this
    | some h' =>
      obtain ⟨d', hd', hp'⟩ := get?_of_findIdx? hfind
      rw [hu h h' d d' hd hd' hp hp']

/-- A property that at most one type has is one of at most one type after a renumbering. -/
theorem IsUniqueFor.renumbers {σ : Equiv.Perm Handle} {m m' : Model} (hσ : Renumbers σ m m')
    {p : Declaration → Prop} (hu : m.IsUniqueFor p) : m'.IsUniqueFor p := by
  intro h h' d d' hd hd' hp hp'
  rw [← hσ.symm h] at hd
  rw [← hσ.symm h'] at hd'
  exact σ.symm.injective (hu _ _ d d' hd hd' hp hp')

/-- Types are still told apart by their names and identifiers after a renumbering. -/
theorem IsDistinct.renumbers {σ : Equiv.Perm Handle} {m m' : Model} (hσ : Renumbers σ m m')
    (hd : m.IsDistinct) : m'.IsDistinct where
  identifier i := (hd.identifier i).renumbers hσ
  qualifiedName n := (hd.qualifiedName n).renumbers hσ
  simpleName n := (hd.simpleName n).renumbers hσ

/-- A search for what is unique follows a renumbering. -/
theorem findIdx?_renumbers {σ : Equiv.Perm Handle} {m m' : Model} (hσ : Renumbers σ m m')
    {p : Declaration → Bool} (hu : m.IsUniqueFor fun d => p d = true) :
    m'.declarations.findIdx? p = (m.declarations.findIdx? p).map σ := by
  ext h
  rw [findIdx?_eq_some_iff_of_unique (hu.renumbers hσ), Option.map_eq_some_iff]
  simp only [findIdx?_eq_some_iff_of_unique hu]
  constructor
  · rintro ⟨d, hd, hp⟩
    refine ⟨σ.symm h, ⟨d, ?_, hp⟩, Equiv.apply_symm_apply σ h⟩
    rw [hσ.symm h]
    exact hd
  · rintro ⟨x, ⟨d, hd, hp⟩, rfl⟩
    exact ⟨d, (hσ x).trans hd, hp⟩

section

variable {σ : Equiv.Perm Handle} {m m' : Model}

theorem class?_renumbers (hσ : Renumbers σ m m') (h : Handle) :
    m'.class? (σ h) = m.class? h := by
  rw [class?, class?, hσ h]

theorem enum?_renumbers (hσ : Renumbers σ m m') (h : Handle) :
    m'.enum? (σ h) = m.enum? h := by
  rw [enum?, enum?, hσ h]

theorem nameAt_renumbers (hσ : Renumbers σ m m') (h : Handle) :
    m'.nameAt (σ h) = m.nameAt h := by
  rw [nameAt, nameAt, hσ h]

theorem byIdentifier?_renumbers (hσ : Renumbers σ m m') (hd : m.IsDistinct)
    (identifier : String) :
    m'.byIdentifier? identifier = (m.byIdentifier? identifier).map σ := by
  apply findIdx?_renumbers hσ
  simp only [decide_eq_true_eq]
  exact hd.identifier identifier

theorem byName?_renumbers (hσ : Renumbers σ m m') (hd : m.IsDistinct) (name : String) :
    m'.byName? name = (m.byName? name).map σ := by
  have hqualified : m'.declarations.findIdx? (fun d => d.qualifiedName = Text.trim name) =
      (m.declarations.findIdx? fun d => d.qualifiedName = Text.trim name).map σ := by
    apply findIdx?_renumbers hσ
    simp only [decide_eq_true_eq]
    exact hd.qualifiedName _
  have hsimple : m'.declarations.findIdx? (fun d => d.simpleName = Text.trim name) =
      (m.declarations.findIdx? fun d => d.simpleName = Text.trim name).map σ := by
    apply findIdx?_renumbers hσ
    simp only [decide_eq_true_eq]
    exact hd.simpleName _
  rw [byName?, byName?, hqualified, hsimple]
  cases m.declarations.findIdx? fun d => d.qualifiedName = Text.trim name with
  | none => rfl
  | some h => rfl

/-- Handles of classes are those of classes under any numbering. -/
theorem filter_class?_renumbers (hσ : Renumbers σ m m') (found : Option Handle) :
    (found.map σ).filter (fun h => (m'.class? h).isSome) =
      (found.filter fun h => (m.class? h).isSome).map σ := by
  cases found with
  | none => rfl
  | some h =>
    rw [Option.map_some, Option.filter_some, Option.filter_some, class?_renumbers hσ]
    split <;> rfl

/-- A reference to a base leads to the new handle of the class that it led to. -/
theorem resolveBase?_renumbers (hσ : Renumbers σ m m') (hd : m.IsDistinct)
    (base : BaseReference) : m'.resolveBase? base = (m.resolveBase? base).map σ := by
  have hid : base.identifier?.bind m'.byIdentifier? =
      (base.identifier?.bind m.byIdentifier?).map σ := by
    cases base.identifier? with
    | none => rfl
    | some i => exact byIdentifier?_renumbers hσ hd i
  have hname : base.name?.bind m'.byName? = (base.name?.bind m.byName?).map σ := by
    cases base.name? with
    | none => rfl
    | some n => exact byName?_renumbers hσ hd n
  rw [resolveBase?, resolveBase?, hid, hname, filter_class?_renumbers hσ,
    filter_class?_renumbers hσ]
  cases (base.identifier?.bind m.byIdentifier?).filter fun h => (m.class? h).isSome with
  | none => rfl
  | some h => rfl

theorem baseOf?_renumbers (hσ : Renumbers σ m m') (hd : m.IsDistinct) (h : Handle)
    (c : ClassType) : m'.baseOf? (σ h) c = (m.baseOf? h c).map σ := by
  rw [baseOf?, baseOf?, resolveBase?_renumbers hσ hd]
  cases m.resolveBase? c.base with
  | none => rfl
  | some b =>
    rw [Option.map_some, Option.filter_some, Option.filter_some]
    by_cases hb : b = h
    · simp [hb]
    · simp [hb]

theorem baseNameOf?_renumbers (hσ : Renumbers σ m m') (hd : m.IsDistinct) (h : Handle)
    (c : ClassType) : m'.baseNameOf? (σ h) c = m.baseNameOf? h c := by
  rw [baseNameOf?, baseNameOf?, baseOf?_renumbers hσ hd]
  cases m.baseOf? h c with
  | none => rfl
  | some b =>
    rw [Option.map_some]
    simp only [nameAt_renumbers hσ]

/-- The next class of a chain has its new handle. -/
theorem base?_renumbers (hσ : Renumbers σ m m') (hd : m.IsDistinct) (h : Handle) :
    m'.base? (σ h) = (m.base? h).map σ := by
  rw [base?_eq, base?_eq, class?_renumbers hσ]
  cases m.class? h with
  | none => rfl
  | some c => exact baseOf?_renumbers hσ hd h c

theorem baseName?_renumbers (hσ : Renumbers σ m m') (hd : m.IsDistinct) (h : Handle) :
    m'.baseName? (σ h) = m.baseName? h := by
  rw [baseName?_eq, baseName?_eq, class?_renumbers hσ]
  cases m.class? h with
  | none => rfl
  | some c => exact baseNameOf?_renumbers hσ hd h c

/-- Whether an identifier is that of an enum does not depend on the numbering. -/
theorem isEnumIdentifier_renumbers (hσ : Renumbers σ m m') (hd : m.IsDistinct)
    (identifier : String) : m'.isEnumIdentifier identifier = m.isEnumIdentifier identifier := by
  rw [isEnumIdentifier, isEnumIdentifier, byIdentifier?_renumbers hσ hd]
  cases m.byIdentifier? identifier with
  | none => rfl
  | some h =>
    rw [Option.map_some, Option.bind_some, Option.bind_some, enum?_renumbers hσ]

theorem isBase_of_renumbers (hσ : Renumbers σ m m') (hd : m.IsDistinct) {b : Handle}
    (hb : m.isBase b = true) : m'.isBase (σ b) = true := by
  rw [isBase_iff] at hb ⊢
  obtain ⟨h, c, hc, hb⟩ := hb
  refine ⟨σ h, c, ?_, ?_⟩
  · rw [class?_renumbers hσ]
    exact hc
  · rw [baseOf?_renumbers hσ hd, hb, Option.map_some]

/-- Whether others are derived from a class does not depend on the numbering. -/
theorem isBase_renumbers (hσ : Renumbers σ m m') (hd : m.IsDistinct) (b : Handle) :
    m'.isBase (σ b) = m.isBase b := by
  rw [Bool.eq_iff_iff]
  constructor
  · intro hb
    have := isBase_of_renumbers hσ.symm (hd.renumbers hσ) hb
    rwa [Equiv.symm_apply_apply] at this
  · exact isBase_of_renumbers hσ hd

/-! ## Members of templates -/

/-- What a class lists as inner has new handles, in the same order. -/
theorem innerHandles_renumbers (hσ : Renumbers σ m m') (hd : m.IsDistinct) (c : ClassType) :
    m'.innerHandles c = (m.innerHandles c).map σ := by
  rw [innerHandles, innerHandles, List.map_filterMap]
  congr 1
  funext i
  exact byIdentifier?_renumbers hσ hd i

theorem mem_innerHandles_of_renumbers (hσ : Renumbers σ m m') (hd : m.IsDistinct)
    {c : ClassType} {h : Handle} (hh : h ∈ m.innerHandles c) : σ h ∈ m'.innerHandles c := by
  rw [innerHandles_renumbers hσ hd]
  exact List.mem_map_of_mem hh

theorem nestedIn_of_renumbers (hσ : Renumbers σ m m') (hd : m.IsDistinct) {h : Handle}
    (hn : m.NestedIn m.templateMembers h) : m'.NestedIn m'.templateMembers (σ h) := by
  induction hn with
  | @start h c hmem hc hw =>
    refine .start ?_ ((class?_renumbers hσ h).trans hc) hw
    rw [mem_templateMembers] at hmem ⊢
    obtain ⟨x, cx, hx, ht, hin⟩ := hmem
    exact ⟨σ x, cx, (class?_renumbers hσ x).trans hx, ht, mem_innerHandles_of_renumbers hσ hd hin⟩
  | @inner h h' c c' _ hc hmem hc' hw ih =>
    exact .inner ih ((class?_renumbers hσ h).trans hc) (mem_innerHandles_of_renumbers hσ hd hmem)
      ((class?_renumbers hσ h').trans hc') hw

/-- Whether a class is nested in a template does not depend on the numbering. -/
theorem nestedIn_renumbers (hσ : Renumbers σ m m') (hd : m.IsDistinct) (h : Handle) :
    m'.NestedIn m'.templateMembers (σ h) ↔ m.NestedIn m.templateMembers h := by
  constructor
  · intro hn
    have := nestedIn_of_renumbers hσ.symm (hd.renumbers hσ) hn
    rwa [Equiv.symm_apply_apply] at this
  · exact nestedIn_of_renumbers hσ hd

/-! ## Chains and roles -/

theorem step_of_renumbers (hσ : Renumbers σ m m') (hd : m.IsDistinct) (h x : Handle)
    (hx : Chain.Step m.base? h x) : Chain.Step m'.base? (σ h) (σ x) := by
  rw [Chain.Step, base?_renumbers hσ hd, hx, Option.map_some]

theorem on_of_renumbers (hσ : Renumbers σ m m') (hd : m.IsDistinct) {h x : Handle}
    (hx : Chain.On m.base? h x) : Chain.On m'.base? (σ h) (σ x) :=
  Relation.ReflTransGen.lift σ (step_of_renumbers hσ hd) h x hx

theorem isCyclic_of_renumbers (hσ : Renumbers σ m m') (hd : m.IsDistinct) {h : Handle}
    (hcycle : Chain.IsCyclic m.base? h) : Chain.IsCyclic m'.base? (σ h) := by
  obtain ⟨x, hx, hback⟩ := hcycle
  exact ⟨σ x, on_of_renumbers hσ hd hx,
    Relation.TransGen.lift σ (step_of_renumbers hσ hd) x x hback⟩

/-- Whether a chain runs into a circle does not depend on the numbering. -/
theorem isCyclic_renumbers (hσ : Renumbers σ m m') (hd : m.IsDistinct) (h : Handle) :
    Chain.IsCyclic m'.base? (σ h) ↔ Chain.IsCyclic m.base? h := by
  constructor
  · intro hcycle
    have := isCyclic_of_renumbers hσ.symm (hd.renumbers hσ) hcycle
    rwa [Equiv.symm_apply_apply] at this
  · exact isCyclic_of_renumbers hσ hd

theorem chainNames_of_renumbers (hσ : Renumbers σ m m') (hd : m.IsDistinct)
    {targets : List String} {h : Handle} (hn : m.ChainNames targets h) :
    m'.ChainNames targets (σ h) := by
  obtain ⟨x, hx, hname⟩ := hn
  refine ⟨σ x, on_of_renumbers hσ hd hx, ?_⟩
  rw [baseName?_renumbers hσ hd]
  exact hname

/-- Whether a chain names one of some bases does not depend on the numbering. -/
theorem chainNames_renumbers (hσ : Renumbers σ m m') (hd : m.IsDistinct)
    (targets : List String) (h : Handle) :
    m'.ChainNames targets (σ h) ↔ m.ChainNames targets h := by
  constructor
  · intro hn
    have := chainNames_of_renumbers hσ.symm (hd.renumbers hσ) hn
    rwa [Equiv.symm_apply_apply] at this
  · exact chainNames_of_renumbers hσ hd

/-- Whether the search along a chain fails does not depend on the numbering. -/
theorem fails_renumbers (hσ : Renumbers σ m m') (hd : m.IsDistinct) (bases : BaseSettings)
    (h : Handle) : m'.Fails bases (σ h) ↔ m.Fails bases h := by
  rw [Fails, Fails, IsUntagged, IsUntagged, class?_renumbers hσ, isCyclic_renumbers hσ hd,
    chainNames_renumbers hσ hd]

/-- The chain of a class gives it the same role under any numbering. -/
theorem isChainRole_renumbers (hσ : Renumbers σ m m') (hd : m.IsDistinct) (bases : BaseSettings)
    (h : Handle) (role : Role) : m'.IsChainRole bases (σ h) role ↔ m.IsChainRole bases h role := by
  cases role <;> simp only [IsChainRole, chainNames_renumbers hσ hd]

/-- A class has one final role, whatever its handle. -/
theorem isFinalRole_renumbers (hσ : Renumbers σ m m') (hd : m.IsDistinct) {bases : BaseSettings}
    {h : Handle} {c : ClassType} (hc : m.class? h = some c) {r r' : Role}
    (hr : m.IsFinalRole bases h r) (hr' : m'.IsFinalRole bases (σ h) r') : r' = r := by
  obtain ⟨htag, hchain⟩ := hr c hc
  obtain ⟨htag', hchain'⟩ := hr' c ((class?_renumbers hσ h).trans hc)
  by_cases ht : c.role = .none
  · have hsame := (isChainRole_renumbers hσ hd bases h r').1 (hchain' ht)
    exact hsame.unique (hchain ht)
  · rw [htag ht, htag' ht]

end

end Registrar.Model
