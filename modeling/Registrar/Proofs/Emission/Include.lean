/-
# The headers that are included

The generated file includes the headers of the enums and classes that its plan lists, each spelling once
and in the order of the bytes.  The lists of the three roles are parts of the list of classes, so no
type that is registered anywhere lacks its header, and a class that cannot be registered adds none.
-/
import Registrar.Emission
import Registrar.Proofs.Plan.Partition

namespace Registrar

/-! ## Distinct texts in ascending order -/

/-- A text that is put into a list is in it, with all that was in it. -/
theorem mem_insertDistinct (s t : String) (ts : List String) :
    t ∈ distinctSorted.insertDistinct s ts ↔ t = s ∨ t ∈ ts := by
  induction ts with
  | nil => simp [distinctSorted.insertDistinct]
  | cons u ts ih =>
    rw [distinctSorted.insertDistinct]
    split
    · exact List.mem_cons
    · split
      · next heq => simp [heq]
      · rw [List.mem_cons, List.mem_cons, ih]
        exact or_left_comm

/-- An ascending list stays ascending when a text is put into it. -/
theorem pairwise_insertDistinct {s : String} {ts : List String} (hts : ts.Pairwise (· < ·)) :
    (distinctSorted.insertDistinct s ts).Pairwise (· < ·) := by
  induction ts with
  | nil => simp [distinctSorted.insertDistinct]
  | cons u ts ih =>
    obtain ⟨hu, htail⟩ := List.pairwise_cons.1 hts
    rw [distinctSorted.insertDistinct]
    split
    · next hlt =>
      refine List.pairwise_cons.2 ⟨fun t ht => ?_, hts⟩
      rcases List.mem_cons.1 ht with rfl | ht
      · exact hlt
      · exact lt_trans hlt (hu t ht)
    · next hle =>
      split
      · exact hts
      · next hne =>
        refine List.pairwise_cons.2 ⟨fun t ht => ?_, ih htail⟩
        rcases (mem_insertDistinct s t ts).1 ht with rfl | ht
        · exact lt_of_le_of_ne (not_lt.1 hle) (Ne.symm hne)
        · exact hu t ht

/-- Sorting without repetition loses nothing and adds nothing. -/
theorem mem_distinctSorted (t : String) (ts : List String) : t ∈ distinctSorted ts ↔ t ∈ ts := by
  induction ts with
  | nil => rfl
  | cons s ts ih => rw [distinctSorted, mem_insertDistinct, ih, List.mem_cons]

/-- Sorting without repetition makes a list strictly ascending. -/
theorem pairwise_distinctSorted (ts : List String) : (distinctSorted ts).Pairwise (· < ·) := by
  induction ts with
  | nil => exact .nil
  | cons s ts ih =>
    rw [distinctSorted]
    exact pairwise_insertDistinct ih

/-! ## What a plan lists -/

/-- Whether a type can be registered: every enum can. -/
def Declaration.isRegistrable (s : Settings) : Declaration → Bool
  | enumType _ => true
  | classType c => c.isRegistrable s

namespace Plan

/-- Some section of a plan lists the type at a place. -/
def Lists (p : Plan) (h : Handle) : Prop :=
  h ∈ p.enums ∨ h ∈ p.classes ∨ ∃ role, h ∈ p.roleHandles role

variable {m : Model} {s : Settings}

/-- The plan lists the places of all enums. -/
theorem mem_enums_iff (h : Handle) :
    h ∈ (ofModel m s).enums ↔ ∃ t, m.get? h = some (.enumType t) := by
  show h ∈ sorted m m.enumHandles ↔ _
  rw [(sorted_perm m _).mem_iff, Model.mem_enumHandles]
  simp only [Model.enum?, Option.bind_eq_some_iff]
  constructor
  · rintro ⟨t, d, hd, ht⟩
    cases d with
    | enumType t' => exact ⟨t', hd⟩
    | classType c => simp [Declaration.enum?] at ht
  · rintro ⟨t, ht⟩
    exact ⟨t, _, ht, rfl⟩

/-- The plan lists the places of the classes that can be registered. -/
theorem mem_classes_iff (h : Handle) :
    h ∈ (ofModel m s).classes ↔
      ∃ c, m.get? h = some (.classType c) ∧ c.isRegistrable s = true := by
  show h ∈ sorted m (registrable m s _) ↔ _
  rw [(sorted_perm m _).mem_iff, mem_registrable, Option.any_eq_true]
  simp only [Bool.and_true, Model.class?_eq_some_iff]

/-- A class in the list of a role is in the list of classes. -/
theorem mem_classes_of_mem_roleHandles {role : Role} {h : Handle}
    (hh : h ∈ (ofModel m s).roleHandles role) : h ∈ (ofModel m s).classes := by
  have hpick : ∀ p : ClassType → Bool, h ∈ sorted m (registrable m s p) →
      h ∈ sorted m (registrable m s fun _ => true) := by
    intro p hp
    rw [(sorted_perm m _).mem_iff, mem_registrable, Option.any_eq_true] at hp ⊢
    obtain ⟨c, hc, hand⟩ := hp
    rw [Bool.and_eq_true] at hand
    exact ⟨c, hc, by rw [hand.1, Bool.and_true]⟩
  cases role with
  | none => exact absurd hh List.not_mem_nil
  | component | system | scene => exact hpick _ hh

/-- The enums and the classes of a plan are all that it lists. -/
theorem lists_iff_mem (h : Handle) :
    (ofModel m s).Lists h ↔ h ∈ (ofModel m s).enums ++ (ofModel m s).classes := by
  rw [List.mem_append]
  constructor
  · rintro (hh | hh | ⟨role, hh⟩)
    · exact .inl hh
    · exact .inr hh
    · exact .inr (mem_classes_of_mem_roleHandles hh)
  · rintro (hh | hh)
    · exact .inl hh
    · exact .inr (.inl hh)

/-- A plan lists the types that can be registered. -/
theorem lists_ofModel_iff (h : Handle) :
    (ofModel m s).Lists h ↔ ∃ d, m.get? h = some d ∧ d.isRegistrable s = true := by
  rw [lists_iff_mem, List.mem_append, mem_enums_iff, mem_classes_iff]
  constructor
  · rintro (⟨t, ht⟩ | ⟨c, hc, hreg⟩)
    · exact ⟨_, ht, rfl⟩
    · exact ⟨_, hc, hreg⟩
  · rintro ⟨d, hd, hreg⟩
    cases d with
    | enumType t => exact .inl ⟨t, hd⟩
    | classType c => exact .inr ⟨c, hd, hreg⟩

/-- What a plan lists can be registered. -/
theorem isRegistrable_of_lists {h : Handle} {d : Declaration} (hh : (ofModel m s).Lists h)
    (hd : m.get? h = some d) : d.isRegistrable s = true := by
  obtain ⟨d', hd', hreg⟩ := (lists_ofModel_iff h).1 hh
  obtain rfl := Option.some.inj (hd.symm.trans hd')
  exact hreg

end Plan

/-! ## What is included -/

namespace Emitter

/-- The spellings are those of the headers of the enums and classes that are listed, whatever the plan
is. -/
theorem mem_includeNames (e : Emitter) (m : Model) (p : Plan) (name : String) :
    name ∈ e.includeNames m p ↔ ∃ h d header, h ∈ p.enums ++ p.classes ∧ m.get? h = some d ∧
      d.header = some header ∧ name = e.spelling header := by
  rw [includeNames, mem_distinctSorted, List.mem_filterMap]
  constructor
  · rintro ⟨h, hh, hname⟩
    obtain ⟨header, hheader, rfl⟩ := Option.map_eq_some_iff.1 hname
    obtain ⟨d, hd, hdh⟩ := Option.bind_eq_some_iff.1 hheader
    exact ⟨h, d, header, hh, hd, hdh, rfl⟩
  · rintro ⟨h, d, header, hh, hd, hdh, rfl⟩
    exact ⟨h, hh, by rw [hd, Option.bind_some, hdh, Option.map_some]⟩

/-- The names of the directives are the spellings of the headers of what the plan lists. -/
theorem mem_includeNames_ofModel (e : Emitter) (m : Model) (s : Settings) (name : String) :
    name ∈ e.includeNames m (Plan.ofModel m s) ↔ ∃ h d header, (Plan.ofModel m s).Lists h ∧
      m.get? h = some d ∧ d.header = some header ∧ name = e.spelling header := by
  simp only [mem_includeNames, Plan.lists_iff_mem]

/-- For the plan of any model and with any templates, the names that the directives are written with go
up in the order of their bytes, and they are the spellings of the headers of those types that can be
registered.  These are the types that some section of the plan lists, so the header of each of them is
included, and a header that only classes have which cannot be registered is not. -/
theorem includeNames_of_plan (e : Emitter) (m : Model) (s : Settings) :
    let p := (Plan.make m s).result
    let names := e.includeNames m p
    (e.includes m p =
      (names.mapM fun name => e.templates.render "Include" [("file_name", name)]).map
        Text.joinLines) ∧
    names.Pairwise (fun a b => Text.bytes a < Text.bytes b) ∧
    (∀ name, name ∈ names ↔ ∃ h d header, m.get? h = some d ∧ d.isRegistrable s = true ∧
      d.header = some header ∧ name = (header.relativeTo e.outputDir).includeSpelling) ∧
    (∀ h, p.Lists h ↔ ∃ d, m.get? h = some d ∧ d.isRegistrable s = true) ∧
    (∀ h d header, p.Lists h → m.get? h = some d → d.header = some header →
      e.spelling header ∈ names) ∧
    (∀ name, (∀ h d header, m.get? h = some d → d.header = some header →
      e.spelling header = name → d.isRegistrable s = false) → name ∉ names) := by
  intro p names
  have hlists : ∀ h, p.Lists h ↔ ∃ d, m.get? h = some d ∧ d.isRegistrable s = true :=
    Plan.lists_ofModel_iff
  have hmem : ∀ name, name ∈ names ↔ ∃ h d header, p.Lists h ∧ m.get? h = some d ∧
      d.header = some header ∧ name = e.spelling header :=
    e.mem_includeNames_ofModel m s
  refine ⟨rfl, ?_, fun name => ?_, hlists, fun h d header hh hd hheader => ?_, fun name hname => ?_⟩
  · exact (pairwise_distinctSorted _).imp fun {a b} hab => (Text.bytes_lt_iff a b).2 hab
  · rw [hmem]
    constructor
    · rintro ⟨h, d, header, hh, hd, hrest⟩
      exact ⟨h, d, header, hd, Plan.isRegistrable_of_lists hh hd, hrest⟩
    · rintro ⟨h, d, header, hd, hreg, hrest⟩
      exact ⟨h, d, header, (hlists h).2 ⟨d, hd, hreg⟩, hd, hrest⟩
  · exact (hmem _).2 ⟨h, d, header, hh, hd, hheader, rfl⟩
  · intro hin
    obtain ⟨h, d, header, hh, hd, hheader, rfl⟩ := (hmem name).1 hin
    have hno := hname h d header hd hheader rfl
    rw [Plan.isRegistrable_of_lists hh hd] at hno
    exact Bool.false_ne_true hno.symm

end Emitter

end Registrar
