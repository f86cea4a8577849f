/-
# Look-ups over whole runs

Whatever is pushed, linked and classified, and in whatever order, a look-up leads to the first type
that answers to it.  The tables of a catalogue are in step with its types: a push enters the new type
behind those that are there, and linking and classification change no identifier and no name.
-/
import Mathlib.Order.Bounds.Basic
import Registrar.Catalogue
import Registrar.Proofs.Classification.Roles
import Registrar.Proofs.Model.Name

namespace Registrar

/-- What linking and classification leave alone in a type: its kind, its identifier and its name. -/
structure Signature where
  isEnum : Bool
  identifier : Option String
  qualifiedName : String

def Declaration.signature (d : Declaration) : Signature :=
  ⟨d.enum?.isSome, d.identifier, d.qualifiedName⟩

namespace Model

/-! ## The first type of a kind -/

/-- The handles of the types with a property. -/
def handlesOf (m : Model) (p : Declaration → Prop) : Set Handle :=
  {h | ∃ d, m.get? h = some d ∧ p d}

/-- A search leads to the first type with a property, or nowhere if there is none. -/
def IsFirst (handles : Set Handle) : Option Handle → Prop
  | some h => IsLeast handles h
  | none => handles = ∅

/-- A search has led to a type exactly if that is the first one. -/
theorem IsFirst.eq_some_iff {handles : Set Handle} {found : Option Handle}
    (hfound : IsFirst handles found) (h : Handle) : found = some h ↔ IsLeast handles h := by
  cases found with
  | none =>
    rw [show handles = ∅ from hfound]
    simp [IsLeast]
  | some h' =>
    have hleast : IsLeast handles h' := hfound
    rw [Option.some.injEq]
    constructor
    · rintro rfl
      exact hleast
    · exact hleast.unique

/-- The search through all types leads to the first one with a property. -/
theorem isFirst_findIdx? (m : Model) (p : Declaration → Bool) :
    IsFirst (m.handlesOf fun d => p d = true) (m.declarations.findIdx? p) := by
  cases hfound : m.declarations.findIdx? p with
  | none =>
    rw [List.findIdx?_eq_none_iff] at hfound
    refine Set.eq_empty_iff_forall_notMem.2 fun h hh => ?_
    obtain ⟨d, hd, hp⟩ := hh
    rw [hfound d (List.mem_of_getElem? hd)] at hp
    simp at hp
  | some h =>
    rw [List.findIdx?_eq_some_iff_getElem] at hfound
    obtain ⟨hlt, hp, hbefore⟩ := hfound
    refine ⟨⟨m.declarations[h], List.getElem?_eq_getElem hlt, hp⟩, fun x hx => ?_⟩
    obtain ⟨d, hd, hpd⟩ := hx
    by_contra hxh
    obtain ⟨hltx, rfl⟩ := List.getElem?_eq_some_iff.1 hd
    exact hbefore x (Nat.lt_of_not_le hxh) hpd

/-- Of two searches one after the other, the first one that leads somewhere counts. -/
theorem isFirst_orElse {handles others : Set Handle} {found other : Option Handle}
    (hfound : IsFirst handles found) (hother : IsFirst others other) :
    (handles.Nonempty → IsFirst handles (found.orElse fun _ => other)) ∧
      (handles = ∅ → IsFirst others (found.orElse fun _ => other)) := by
  cases found with
  | none =>
    refine ⟨fun hne => ?_, fun _ => hother⟩
    rw [show handles = ∅ from hfound] at hne
    exact absurd hne Set.not_nonempty_empty
  | some h =>
    refine ⟨fun _ => hfound, fun hempty => ?_⟩
    have hmem : h ∈ handles := hfound.1
    rw [hempty] at hmem
    exact absurd hmem (Set.notMem_empty h)

/-- The look-up by identifier leads to the first type that has it. -/
theorem isFirst_byIdentifier? (m : Model) (identifier : String) :
    IsFirst (m.handlesOf fun d => d.identifier = some identifier) (m.byIdentifier? identifier) := by
  have hfirst := m.isFirst_findIdx? fun d => d.identifier = some identifier
  simp only [decide_eq_true_eq] at hfirst
  exact hfirst

/-- The look-up by name leads to the first type of that qualified name, or else to the first one of
that simple name. -/
theorem isFirst_byName? (m : Model) (name : String) :
    let named := m.handlesOf fun d => d.qualifiedName = Text.trim name
    let known := m.handlesOf fun d => Name.IsSimple d.qualifiedName (Text.trim name)
    (named.Nonempty → IsFirst named (m.byName? name)) ∧
      (named = ∅ → IsFirst known (m.byName? name)) := by
  have hnamed := m.isFirst_findIdx? fun d => d.qualifiedName = Text.trim name
  have hknown := m.isFirst_findIdx? fun d => d.simpleName = Text.trim name
  simp only [decide_eq_true_eq] at hnamed hknown
  simp only [Name.isSimple_iff]
  exact isFirst_orElse hnamed hknown

/-- What an identifier leads to is one of the places of the model. -/
theorem lt_size_of_byIdentifier? {m : Model} {identifier : String} {h : Handle}
    (hh : m.byIdentifier? identifier = some h) : h < m.size := by
  obtain ⟨d, hd, -⟩ := get?_of_findIdx? hh
  exact lt_size_of_get? hd

/-- What a name leads to is one of the places of the model. -/
theorem lt_size_of_byName? {m : Model} {name : String} {h : Handle}
    (hh : m.byName? name = some h) : h < m.size := by
  rw [byName?] at hh
  cases hfound : m.declarations.findIdx? fun d => d.qualifiedName = Text.trim name with
  | none =>
    rw [hfound] at hh
    obtain ⟨d, hd, -⟩ := get?_of_findIdx? hh
    exact lt_size_of_get? hd
  | some h' =>
    rw [hfound] at hh
    obtain rfl := Option.some.inj hh
    obtain ⟨d, hd, -⟩ := get?_of_findIdx? hfound
    exact lt_size_of_get? hd

/-! ## Changes that keep the signatures -/

/-- The signatures of all types in order. -/
def signatures (m : Model) : List Signature :=
  m.declarations.map Declaration.signature

/-- A type that is pushed adds its signature at the end. -/
theorem signatures_push (m : Model) (d : Declaration) :
    (m.push d).signatures = m.signatures ++ [d.signature] := by
  rw [signatures, push, List.map_append]
  rfl

/-- A change that keeps the names keeps the signatures. -/
theorem signatures_mapClasses (m : Model) {f : Handle → ClassType → ClassType}
    (hf : KeepsNames f) : (m.mapClasses f).signatures = m.signatures := by
  apply List.ext_getElem?
  intro h
  have hget := get?_mapClasses_eq_map m f h
  rw [get?, get?] at hget
  rw [signatures, signatures, List.getElem?_map, List.getElem?_map, hget, Option.map_map]
  congr 1
  funext d
  cases d with
  | enumType e => rfl
  | classType c =>
    obtain ⟨hidentifier, hname⟩ := hf h c
    simp only [Function.comp, Declaration.mapClass, Declaration.signature, Declaration.enum?,
      Declaration.identifier, Declaration.qualifiedName, hidentifier, hname]

/-- Linking keeps the signatures. -/
theorem signatures_link (m : Model) : m.link.signatures = m.signatures := by
  obtain ⟨marked, -, hm⟩ := m.exists_link_eq
  rw [hm, signatures_mapClasses m (m.keepsNames_linkedClass marked)]

/-- Of roles that are given twice the later ones count. -/
theorem withRoles_withRoles (m : Model) (role role' : Handle → Role) :
    (m.withRoles role).withRoles role' = m.withRoles role' := by
  rw [withRoles, withRoles, mapClasses_mapClasses]
  rfl

/-- Classification changes nothing but roles. -/
theorem exists_classifyAll_eq_withRoles (bases : BaseSettings) (m : Model) (hs : List Handle) :
    ∃ role, (classifyAll bases m hs).result.model = m.withRoles role := by
  induction hs generalizing m with
  | nil => exact ⟨m.roleAt, m.withRoles_roleAt.symm⟩
  | cons h hs ih =>
    rw [classifyAll]
    split
    · exact ih m
    · split
      · exact ⟨m.roleAt, m.withRoles_roleAt.symm⟩
      · exact ih m
      · next r _ =>
        have hstep : (m.assignRole h r).result =
            m.withRoles fun x => if x = h then r else m.roleAt x := by
          rw [← assignRole_withRoles, withRoles_roleAt]
        obtain ⟨role, hrole⟩ := ih (m.assignRole h r).result
        refine ⟨role, ?_⟩
        rw [Logged.result_bind, hrole, hstep, withRoles_withRoles]

/-- Classification keeps the signatures, also if it fails. -/
theorem signatures_classify (m : Model) (bases : BaseSettings) :
    (m.classify bases).result.model.signatures = m.signatures := by
  obtain ⟨role, hrole⟩ := exists_classifyAll_eq_withRoles bases m m.classHandles
  rw [classify, hrole, withRoles, signatures_mapClasses]
  exact fun _ _ => ⟨rfl, rfl⟩

/-- There is a signature for each place. -/
theorem length_signatures (m : Model) : m.signatures.length = m.size :=
  List.length_map _

/-- The look-up by identifier, read off the signatures. -/
theorem byIdentifier?_eq_findIdx? (m : Model) (identifier : String) :
    m.byIdentifier? identifier =
      (m.signatures.map Signature.identifier).findIdx? fun k => k = some identifier := by
  rw [signatures, List.map_map, List.findIdx?_map]
  rfl

/-- The look-up by name, read off the signatures. -/
theorem byName?_eq_findIdx? (m : Model) (name : String) :
    m.byName? name =
      ((m.signatures.map fun s => some s.qualifiedName).findIdx? fun k =>
        k = some (Text.trim name)).orElse fun _ =>
      (m.signatures.map fun s => some (Name.simple s.qualifiedName)).findIdx? fun k =>
        k = some (Text.trim name) := by
  rw [signatures, List.map_map, List.map_map, List.findIdx?_map, List.findIdx?_map, byName?]
  simp only [Function.comp_def, Option.some.injEq]
  rfl

end Model

/-! ## Tables -/

namespace Table

/-- A table holds, under every text, the first type that is entered under it. -/
def IsInStep (t : Table) (keys : List (Option String)) : Prop :=
  ∀ key, t.find? key = keys.findIdx? fun k => k = some key

/-- Under a text the first type that is entered is found. -/
theorem find?_enter (t : Table) (key : String) (h : Handle) (k : String) :
    (t.enter key h).find? k = (t.find? k).or (if k = key then some h else none) := by
  by_cases hk : k = key
  · subst hk
    rw [enter, if_pos rfl]
    cases hfound : t.find? k with
    | none =>
      show (if (none : Option Handle).isSome then t else ⟨(k, h) :: t.entries⟩ : Table).find? k = _
      simp [find?]
    | some h' => simp [hfound]
  · rw [if_neg hk, Option.or_none, enter]
    split
    · rfl
    · rw [find?, List.lookup_cons, beq_false_of_ne hk]
      rfl

/-- A table stays in step when the type that comes next is entered under its text, if it has one. -/
theorem IsInStep.enter {t : Table} {keys : List (Option String)} (ht : t.IsInStep keys)
    (key? : Option String) :
    (match key? with
      | some key => t.enter key keys.length
      | none => t).IsInStep (keys ++ [key?]) := by
  intro k
  rw [List.findIdx?_append, ← ht k]
  cases key? with
  | none => simp [List.findIdx?_cons]
  | some key =>
    rw [find?_enter]
    congr 1
    by_cases hk : k = key
    · simp [hk, List.findIdx?_cons]
    · simp [hk, Ne.symm hk, List.findIdx?_cons]

end Table

namespace Catalogue

/-- The tables hold the first type under every identifier and name. -/
structure IsInStep (t : Catalogue) : Prop where
  identifiers : t.identifiers.IsInStep (t.model.signatures.map Signature.identifier)
  names : t.names.IsInStep (t.model.signatures.map fun s => some s.qualifiedName)
  simpleNames :
    t.simpleNames.IsInStep (t.model.signatures.map fun s => some (Name.simple s.qualifiedName))

namespace IsInStep

variable {t : Catalogue}

theorem empty : IsInStep {} := ⟨fun _ => rfl, fun _ => rfl, fun _ => rfl⟩

/-- The tables hold the first types after a type is pushed if they held them before. -/
theorem push (ht : t.IsInStep) (d : Declaration) : (t.push d).2.IsInStep := by
  have hsignatures : (t.push d).2.model.signatures = t.model.signatures ++ [d.signature] :=
    t.model.signatures_push d
  have hsize : ∀ key : Signature → Option String,
      (t.model.signatures.map key).length = t.model.size := fun key => by
    rw [List.length_map, Model.length_signatures]
  constructor
  · have hstep := ht.identifiers.enter d.identifier
    rw [hsize] at hstep
    rw [hsignatures, List.map_append]
    exact hstep
  · have hstep := ht.names.enter (some d.qualifiedName)
    rw [hsize] at hstep
    rw [hsignatures, List.map_append]
    exact hstep
  · have hstep := ht.simpleNames.enter (some d.simpleName)
    rw [hsize] at hstep
    rw [hsignatures, List.map_append]
    exact hstep

/-- Tables stay in step with types whose signatures do not change. -/
theorem of_signatures {m : Model} (ht : t.IsInStep) (hm : m.signatures = t.model.signatures) :
    IsInStep { t with model := m } := by
  constructor
  · rw [hm]
    exact ht.identifiers
  · rw [hm]
    exact ht.names
  · rw [hm]
    exact ht.simpleNames

/-- A table that is in step gives the answer that a search of the types gives. -/
theorem byIdentifier?_eq (ht : t.IsInStep) (identifier : String) :
    t.byIdentifier? identifier = t.model.byIdentifier? identifier := by
  rw [byIdentifier?, ht.identifiers, Model.byIdentifier?_eq_findIdx?]

/-- The tables lead to the same type by its name as a search through all types. -/
theorem byName?_eq (ht : t.IsInStep) (name : String) : t.byName? name = t.model.byName? name := by
  rw [byName?, ht.names, ht.simpleNames, Model.byName?_eq_findIdx?]

end IsInStep

/-! ## Runs -/

/-- What can be done to a catalogue. -/
inductive Operation where
  | push (d : Declaration)
  | link
  | classify (bases : BaseSettings)

namespace Operation

/-- The catalogue after an operation. -/
def apply (t : Catalogue) : Operation → Catalogue
  | push d => (t.push d).2
  | link => t.link
  | classify bases => (t.classify bases).result.1

/-- The type that an operation pushes, if it pushes one. -/
def pushed? : Operation → Option Declaration
  | push d => some d
  | link => none
  | classify _ => none

end Operation

/-- The catalogue after some operations, beginning with nothing. -/
def run (ops : List Operation) : Catalogue :=
  ops.foldl Operation.apply {}

/-- The types that are pushed in the course of some operations. -/
def pushed (ops : List Operation) : List Declaration :=
  ops.filterMap Operation.pushed?

/-- An operation that pushes nothing changes no signature and no table. -/
theorem exists_apply_eq_of_pushed? {t : Catalogue} {op : Operation} (hop : op.pushed? = none) :
    ∃ m : Model, op.apply t = { t with model := m } ∧ m.signatures = t.model.signatures := by
  cases op with
  | push d => simp [Operation.pushed?] at hop
  | link => exact ⟨t.model.link, rfl, t.model.signatures_link⟩
  | classify bases => exact ⟨_, rfl, t.model.signatures_classify bases⟩

/-- One operation keeps the tables in step, and adds the type that it pushes. -/
theorem IsInStep.apply {t : Catalogue} (ht : t.IsInStep) (op : Operation) :
    (op.apply t).IsInStep ∧ (op.apply t).model.signatures =
      t.model.signatures ++ op.pushed?.toList.map Declaration.signature := by
  cases hop : op.pushed? with
  | some d =>
    cases op with
    | push d' =>
      obtain rfl := Option.some.inj hop
      exact ⟨ht.push d', t.model.signatures_push d'⟩
    | link => simp [Operation.pushed?] at hop
    | classify bases => simp [Operation.pushed?] at hop
  | none =>
    obtain ⟨m, happly, hm⟩ := exists_apply_eq_of_pushed? (t := t) hop
    rw [happly]
    exact ⟨ht.of_signatures hm, by simpa using hm⟩

/-- A run keeps the tables in step, and its types are those that were pushed. -/
theorem isInStep_run (ops : List Operation) :
    (run ops).IsInStep ∧ (run ops).model.signatures = (pushed ops).map Declaration.signature := by
  -- from any tables that are in step, since a run goes on from those that it has changed
  have hall : ∀ (ops : List Operation) (t : Catalogue), t.IsInStep →
      (ops.foldl Operation.apply t).IsInStep ∧ (ops.foldl Operation.apply t).model.signatures =
        t.model.signatures ++ (pushed ops).map Declaration.signature := by
    intro ops
    induction ops with
    | nil =>
      intro t ht
      exact ⟨ht, (List.append_nil _).symm⟩
    | cons op ops ih =>
      intro t ht
      obtain ⟨hstep, hsignatures⟩ := ht.apply op
      obtain ⟨hrest, hall⟩ := ih _ hstep
      refine ⟨hrest, ?_⟩
      rw [List.foldl_cons, hall, hsignatures, List.append_assoc, ← List.map_append, pushed,
        pushed]
      cases hop : op.pushed? with
      | none => rw [List.filterMap_cons_none hop, Option.toList_none, List.nil_append]
      | some d => rw [List.filterMap_cons_some hop, Option.toList_some, List.singleton_append]
  exact hall ops {} .empty

/-- Look-ups over a whole run.  A push gives the number of types that were pushed before as the handle
of the new one.  The types keep the order, the identifiers and the names that they were pushed with.
An identifier leads to the first type that has it, and a name to the first type with that qualified
name, or else to the first one with that simple name.  All of these are types of the run, and no link
and no classification changes a look-up or a signature. -/
theorem lookups_of_run (ops : List Operation) :
    let t := run ops
    (∀ d, (t.push d).1 = (pushed ops).length ∧
      (t.push d).2.model.get? (t.push d).1 = some d) ∧
    t.model.signatures = (pushed ops).map Declaration.signature ∧
    (∀ identifier, Model.IsFirst (t.model.handlesOf fun d => d.identifier = some identifier)
      (t.byIdentifier? identifier)) ∧
    (∀ name,
      let named := t.model.handlesOf fun d => d.qualifiedName = Text.trim name
      let known := t.model.handlesOf fun d => Name.IsSimple d.qualifiedName (Text.trim name)
      (named.Nonempty → Model.IsFirst named (t.byName? name)) ∧
        (named = ∅ → Model.IsFirst known (t.byName? name))) ∧
    (∀ h, (∃ identifier, t.byIdentifier? identifier = some h) ∨ (∃ name, t.byName? name = some h) →
      h < (pushed ops).length) ∧
    ∀ op : Operation, op.pushed? = none →
      (op.apply t).byIdentifier? = t.byIdentifier? ∧ (op.apply t).byName? = t.byName? ∧
        (op.apply t).model.signatures = t.model.signatures := by
  intro t
  obtain ⟨hstep, hsignatures⟩ : t.IsInStep ∧ _ := isInStep_run ops
  have hsize : t.model.size = (pushed ops).length := by
    rw [← Model.length_signatures, hsignatures, List.length_map]
  have hidentifier := hstep.byIdentifier?_eq
  have hname := hstep.byName?_eq
  refine ⟨fun d => ⟨hsize, ?_⟩, hsignatures, ?_, ?_, ?_, ?_⟩
  · exact List.getElem?_concat_length
  · intro identifier
    rw [hidentifier]
    exact t.model.isFirst_byIdentifier? identifier
  · intro name
    rw [hname]
    exact t.model.isFirst_byName? name
  · rw [← hsize]
    rintro h (⟨identifier, hh⟩ | ⟨name, hh⟩)
    · rw [hidentifier] at hh
      exact Model.lt_size_of_byIdentifier? hh
    · rw [hname] at hh
      exact Model.lt_size_of_byName? hh
  · intro op hop
    obtain ⟨m, happly, hm⟩ := exists_apply_eq_of_pushed? (t := t) hop
    rw [happly]
    exact ⟨rfl, rfl, hm⟩

end Catalogue

end Registrar
