/-
# The generated text does not depend on the order of ingestion

The text is written from the plan and the model, and no handle is written.  So the same types in
another order give the same text, or fail alike.
-/
import Registrar.Emission
import Registrar.Proofs.Order.Plan
import Registrar.Run.Error

namespace Registrar

/-! ## Emission -/

namespace Emitter

open Model

section

variable {σ : Equiv.Perm Handle} {m m' : Model}

theorem includeNames_agrees (hA : Agrees σ m m') (e : Emitter) (p : Plan) :
    e.includeNames m' (p.renumber σ) = e.includeNames m p := by
  rw [includeNames, includeNames, Plan.renumber, ← List.map_append, List.filterMap_map]
  congr 2
  funext h
  show ((m'.get? (σ h)).bind Declaration.header).map e.spelling = _
  rw [header_agrees hA]

theorem filterMap_enum?_agrees (hA : Agrees σ m m') (hs : List Handle) :
    (hs.map σ).filterMap m'.enum? = hs.filterMap m.enum? := by
  rw [List.filterMap_map]
  congr 1
  funext h
  exact enum?_agrees hA h

/-- What is done with each of some classes is the same if it does not look at the handle of the
base. -/
theorem mapM_class?_agrees {M : Type → Type} [Monad M] [LawfulMonad M] {β : Type}
    (hA : Agrees σ m m') {f : ClassType → M β} (hf : ∀ c : ClassType, f c.withoutBase = f c)
    (hs : List Handle) :
    ((hs.map σ).filterMap m'.class?).mapM f = (hs.filterMap m.class?).mapM f := by
  have hmap : (hs.filterMap fun h => (m'.class? (σ h)).map ClassType.withoutBase) =
      hs.filterMap fun h => (m.class? h).map ClassType.withoutBase := by
    congr 1
    funext h
    exact class?_agrees hA h
  have hcomp : f ∘ ClassType.withoutBase = f := funext hf
  rw [List.filterMap_map, ← hcomp, ← List.mapM_map, ← List.mapM_map, List.map_filterMap,
    List.map_filterMap]
  exact congrArg (List.mapM f) hmap

theorem registerRole_agrees (hA : Agrees σ m m') (e : Emitter) (p : Plan) (role : Role) :
    e.registerRole m' (p.renumber σ) role = e.registerRole m p role := by
  have hhandles : (p.renumber σ).roleHandles role = (p.roleHandles role).map σ := by
    cases role <;> rfl
  rw [registerRole, registerRole, hhandles, mapM_class?_agrees hA fun _ => rfl]

/-- The text for a plan and a model is the one for the renumbered plan and a model that agrees. -/
theorem emit_agrees (hA : Agrees σ m m') (e : Emitter) (p : Plan) :
    e.emit m' (p.renumber σ) = e.emit m p := by
  have hincludes : e.includes m' (p.renumber σ) = e.includes m p := by
    rw [includes, includes, includeNames_agrees hA]
  have henums : (p.renumber σ).enums.filterMap m'.enum? = p.enums.filterMap m.enum? :=
    filterMap_enum?_agrees hA p.enums
  have hclasses : ((p.renumber σ).classes.filterMap m'.class?).mapM e.registerClass =
      (p.classes.filterMap m.class?).mapM e.registerClass :=
    mapM_class?_agrees hA (fun _ => rfl) p.classes
  rw [emit, emit, hincludes, henums, hclasses, registerRole_agrees hA, registerRole_agrees hA,
    registerRole_agrees hA]

end

end Emitter

namespace Model

/-! ## From types to text -/

/-- What becomes of some types as they are taken in: the text for them, or the failure that ends
their classification or the writing. -/
def generatedText (ds : List Declaration) (s : Settings) (e : Emitter) :
    Except RunError String :=
  let classified := ((ds.foldl push {}).link.classify s.bases).result
  match classified.failure with
  | some err => .error (.classify err)
  | none =>
    let plan := (Plan.make classified.model s).result
    (e.emit classified.model plan).run.result.mapError .template

/-- Two runs that end alike: with one text, with one failure of a template, or both with a cyclic
chain of bases, perhaps found from different classes. -/
inductive SameOutcome : Except RunError String → Except RunError String → Prop where
  | text (t : String) : SameOutcome (.ok t) (.ok t)
  | template (err : TemplateError) :
      SameOutcome (.error (.template err)) (.error (.template err))
  | baseCycle (name name' : String) :
      SameOutcome (.error (.classify (.baseCycle name))) (.error (.classify (.baseCycle name')))

theorem SameOutcome.of_mapError (r : Except TemplateError String) :
    SameOutcome (r.mapError .template) (r.mapError .template) := by
  cases r with
  | ok t => exact .text t
  | error err => exact .template err

/-- Of types that are apart from each other in pairs, at most one has a property. -/
theorem isUniqueFor_of_pairwise {ds : List Declaration} {p : Declaration → Prop}
    (hp : ds.Pairwise fun d d' => p d → ¬ p d') : IsUniqueFor ⟨ds⟩ p := by
  rw [List.pairwise_iff_getElem] at hp
  intro h h' d d' hd hd' hpd hpd'
  obtain ⟨hlt, rfl⟩ := List.getElem?_eq_some_iff.1 hd
  obtain ⟨hlt', rfl⟩ := List.getElem?_eq_some_iff.1 hd'
  rcases Nat.lt_trichotomy h h' with hlt2 | heq | hlt2
  · exact absurd hpd' (hp h h' hlt hlt' hlt2 hpd)
  · exact heq
  · exact absurd hpd (hp h' h hlt' hlt hlt2 hpd')

theorem isDistinct_of_nodup {ds : List Declaration}
    (hidentifier : (ds.filterMap Declaration.identifier).Nodup)
    (hname : (ds.map Declaration.qualifiedName).Nodup)
    (hsimple : (ds.map Declaration.simpleName).Nodup) : IsDistinct ⟨ds⟩ where
  identifier i := by
    rw [List.Nodup, List.pairwise_filterMap] at hidentifier
    refine isUniqueFor_of_pairwise (hidentifier.imp fun {d d'} hne hd hd' => ?_)
    exact hne i hd i hd' rfl
  qualifiedName n := by
    rw [List.Nodup, List.pairwise_map] at hname
    exact isUniqueFor_of_pairwise (hname.imp fun {d d'} hne hd hd' => hne (hd.trans hd'.symm))
  simpleName n := by
    rw [List.Nodup, List.pairwise_map] at hsimple
    exact isUniqueFor_of_pairwise (hsimple.imp fun {d d'} hne hd hd' => hne (hd.trans hd'.symm))

theorem hasDistinctNames_link_withRoles {m : Model} (hd : m.IsDistinct) (role : Handle → Role) :
    (m.link.withRoles role).HasDistinctNames := by
  intro a ha b hb hab
  rw [withRoles, size_mapClasses, size_link] at ha hb
  rw [nameAt_withRoles, nameAt_withRoles, nameAt_link, nameAt_link] at hab
  have hget : ∀ h < m.size, ∃ d, m.get? h = some d := fun h hlt =>
    ⟨m.declarations[h], List.getElem?_eq_getElem hlt⟩
  obtain ⟨d, hda⟩ := hget a ha
  obtain ⟨d', hdb⟩ := hget b hb
  rw [nameAt_eq_of_get? hda, nameAt_eq_of_get? hdb] at hab
  exact hd.qualifiedName d'.qualifiedName a b d d' hda hdb hab rfl

/-- The order in which types are taken in does not show: if no two of them share an identifier, a
qualified name or a simple name, then every order ends alike. -/
theorem sameOutcome_of_perm {ds ds' : List Declaration} (hp : ds.Perm ds')
    (hidentifier : (ds.filterMap Declaration.identifier).Nodup)
    (hname : (ds.map Declaration.qualifiedName).Nodup)
    (hsimple : (ds.map Declaration.simpleName).Nodup) (s : Settings) (e : Emitter) :
    SameOutcome (generatedText ds s e) (generatedText ds' s e) := by
  have hd := isDistinct_of_nodup hidentifier hname hsimple
  obtain ⟨σ, hσ⟩ := exists_renumbers_of_perm hp
  obtain ⟨role, hmodel, hrun⟩ := (⟨ds⟩ : Model).classify_link s.bases
  obtain ⟨role', hmodel', hrun'⟩ := (⟨ds'⟩ : Model).classify_link s.bases
  rw [generatedText, generatedText, foldl_push, foldl_push]
  simp only [List.nil_append]
  rcases hrun with ⟨hnone, hprogress⟩ | ⟨h, hsome, hf, -⟩
  · rcases hrun' with ⟨hnone', hprogress'⟩ | ⟨h', -, hf', -⟩
    · -- a class gets one role in both orders, since its chain says which one
      have hrole : ∀ h c, (⟨ds⟩ : Model).class? h = some c → role' (σ h) = role h := by
        intro h c hc
        have hc' := (class?_renumbers hσ h).trans hc
        exact isFinalRole_renumbers hσ hd hc
          (hprogress.isFinalRole h ((mem_classHandles _ h).2 ⟨c, hc⟩))
          (hprogress'.isFinalRole (σ h) ((mem_classHandles _ (σ h)).2 ⟨c, hc'⟩))
      have hA := agrees_link_withRoles hσ hd hrole
      have hplan := Plan.ofModel_agrees hA (hasDistinctNames_link_withRoles hd role) s
      rw [hnone, hnone']
      show SameOutcome ((e.emit _ (Plan.ofModel _ s)).run.result.mapError .template)
        ((e.emit _ (Plan.ofModel _ s)).run.result.mapError .template)
      rw [hmodel, hmodel', hplan, Emitter.emit_agrees hA]
      exact .of_mapError _
    · -- a class that fails in the one order fails in the other one
      have hf := (fails_renumbers hσ hd s.bases (σ.symm h')).1
        (by rwa [Equiv.apply_symm_apply])
      obtain ⟨c, hc, -⟩ := hf.1
      exact absurd hf (hprogress.not_fails _ ((mem_classHandles _ _).2 ⟨c, hc⟩))
  · rcases hrun' with ⟨-, hprogress'⟩ | ⟨h', hsome', -, -⟩
    · have hf' := (fails_renumbers hσ hd s.bases h).2 hf
      obtain ⟨c, hc, -⟩ := hf'.1
      exact absurd hf' (hprogress'.not_fails _ ((mem_classHandles _ _).2 ⟨c, hc⟩))
    · rw [hsome, hsome']
      exact .baseCycle _ _

/-- A class may stand before its base or behind it. -/
theorem sameOutcome_base_behind_derived :
    SameOutcome
      (generatedText
        [.classType
            { identifier := some "b", qualifiedName := "n::Base", base := .byName "Component" },
          .classType
            { identifier := some "d", qualifiedName := "n::Derived",
              base := .byIdentifier "b" none }]
        {} { outputDir := ⟨"/out"⟩, outerNamespace := "n" })
      (generatedText
        [.classType
            { identifier := some "d", qualifiedName := "n::Derived",
              base := .byIdentifier "b" none },
          .classType
            { identifier := some "b", qualifiedName := "n::Base", base := .byName "Component" }]
        {} { outputDir := ⟨"/out"⟩, outerNamespace := "n" }) :=
  sameOutcome_of_perm (.swap _ _ _) (by decide) (by decide) (by decide) _ _

end Model

end Registrar
