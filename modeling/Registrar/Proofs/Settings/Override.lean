/-
# The settings that are given replace the default ones

The settings and the two records in them, slot by slot: under which name each is given, and as what.
What is written is read back, what is given in part leaves the rest at its default, on both levels,
and what is given twice or as a value of another type is refused.
-/
import Mathlib.Tactic.FinCases
import Registrar.Proofs.Settings.Record

namespace Registrar

/-! ## Values -/

/-- Only a text is read as a text. -/
theorem Json.toText?_eq_some_iff {v : Json} {t : String} : v.toText? = some t ↔ v = .text t := by
  cases v <;> simp [Json.toText?, Json.text]

/-- Only a list of texts is read as one. -/
theorem Json.toTexts?_eq_some_iff {v : Json} {ts : List String} :
    v.toTexts? = some ts ↔ v = .texts ts := by
  cases v with
  | array elements =>
    rw [Json.toTexts?, Json.texts, Json.array.injEq]
    induction elements generalizing ts with
    | nil => cases ts <;> simp
    | cons element elements ih =>
      rw [List.mapM_cons, Option.bind_eq_bind]
      cases ts <;> simp [Option.bind_eq_some_iff, Json.toText?_eq_some_iff, ih]
  | _ => simp [Json.toTexts?, Json.texts]

/-- Only a text is read as a path, and only null as none. -/
theorem Json.toOptionalPath?_eq_some_iff {v : Json} {dir : Option Path} :
    v.toOptionalPath? = some dir ↔
      v = .null ∧ dir = none ∨ ∃ t, v = .text t ∧ dir = some ⟨t⟩ := by
  cases v with
  | null => simp [Json.toOptionalPath?, Json.text, eq_comm]
  | string content => cases content <;> simp [Json.toOptionalPath?, Json.text, eq_comm]
  | _ => simp [Json.toOptionalPath?, Json.text]

namespace Settings

/-! ## Kinds of slots -/

variable {α β : Type}

/-- A text. -/
def Slot.text (name : String) (get : α → String) : Slot α where
  name := name
  get := get
  IsTyped v := ∃ t, v = .text t
  Means v t := v = .text t

/-- A list of texts. -/
def Slot.texts (name : String) (get : α → List String) : Slot α where
  name := name
  get := get
  IsTyped v := ∃ ts, v = .texts ts
  Means v ts := v = .texts ts

/-- A path, or null where there is none. -/
def Slot.optionalPath (name : String) (get : α → Option Path) : Slot α where
  name := name
  get := get
  IsTyped v := v = .null ∨ ∃ t, v = .text t
  Means v dir := v = .null ∧ dir = none ∨ ∃ t, v = .text t ∧ dir = some ⟨t⟩

/-- A record whose slots have the values of `default` where they are not given. -/
def Slot.record (name : String) (get : α → β) (slots : List (Slot β)) (default : β) : Slot α where
  name := name
  get := get
  IsTyped v := ∃ members, membersOf? slots v = some members ∧ WellTyped slots members
  Means v r := ∃ members, membersOf? slots v = some members ∧ WellTyped slots members ∧
    Overrides slots members default r

/-- The slots of the markers. -/
def tagSlots : List (Slot TagSettings) :=
  [.texts "component" (·.component), .texts "system" (·.system), .texts "scene" (·.scene),
    .texts "encodable" (·.encodable), .text "property" (·.property),
    .text "required" (·.required), .text "enum" (·.enumeration), .text "vector" (·.vector)]

/-- The slots of the base class names. -/
def baseSlots : List (Slot BaseSettings) :=
  [.texts "component" (·.component), .texts "system" (·.system), .texts "scene" (·.scene)]

/-- The slots of the settings. -/
def slots : List (Slot Settings) :=
  [.texts "file_patterns" (·.filePatterns), .text "output_file_name" (·.outputFileName),
    .text "scratch_dir_name" (·.scratchDirName), .optionalPath "template_dir" (·.templateDir),
    .text "iterator_marker" (·.iteratorMarker), .text "doxygen_executable" (·.doxygenExecutable),
    .record "tags" (·.tags) tagSlots {}, .record "bases" (·.bases) baseSlots {}]

/-! ## The slots are read by the fields -/

/-- A slot agrees with the field that reads its values and puts them in its place. -/
theorem Slot.Agrees.of_own {slot : Slot α} {read : Json → Option slot.β} {set : slot.β → α → α}
    (hread : ∀ v x, read v = some x ↔ slot.Means v x) (hget : ∀ x r, slot.get (set x r) = x) :
    slot.Agrees (.of slot.name read set) where
  own _ v r x := by
    rw [Field.of, Option.map_map, ← hread v x]
    simp [Function.comp_def, hget]
  other hne := absurd rfl hne

/-- A slot agrees with a field of another name that leaves it as it is. -/
theorem Slot.Agrees.of_other {slot : Slot α} {name : String} {read : Json → Option β}
    {set : β → α → α} (hne : name ≠ slot.name) (hget : ∀ x r, slot.get (set x r) = slot.get r) :
    slot.Agrees (.of name read set) where
  own heq := absurd heq hne
  other _ v r r' h := by
    obtain ⟨x, -, rfl⟩ := Option.map_eq_some_iff.1 h
    exact hget x r

-- each slot against each field: one pair has one name, and in all others the field is another one
/-- The record of the markers is read field by field. -/
theorem areReadBy_tagFields : AreReadBy tagSlots tagFields where
  typed := by simp [tagSlots, Slot.texts, Slot.text]
  agrees := by
    intro slot hslot field hfield
    fin_cases hslot <;> fin_cases hfield
    all_goals first
      | exact .of_own (fun _ _ => Json.toTexts?_eq_some_iff) fun _ _ => rfl
      | exact .of_own (fun _ _ => Json.toText?_eq_some_iff) fun _ _ => rfl
      | exact .of_other (by decide) fun _ _ => rfl
  names := rfl
  nodup := by decide
  ext r r' h := by
    cases r
    cases r'
    simpa [tagSlots, Slot.texts, Slot.text] using h

/-- The record of the base class names is read field by field. -/
theorem areReadBy_baseFields : AreReadBy baseSlots baseFields where
  typed := by simp [baseSlots, Slot.texts]
  agrees := by
    intro slot hslot field hfield
    fin_cases hslot <;> fin_cases hfield
    all_goals first
      | exact .of_own (fun _ _ => Json.toTexts?_eq_some_iff) fun _ _ => rfl
      | exact .of_other (by decide) fun _ _ => rfl
  names := rfl
  nodup := by decide
  ext r r' h := by
    cases r
    cases r'
    simpa [baseSlots, Slot.texts] using h

/-- A record has a value of its type exactly if the value means something. -/
theorem Slot.record_isTyped_iff {name : String} {get : α → β} {slots : List (Slot β)}
    {fields : List (Field β)} {default : β} (h : AreReadBy slots fields) (v : Json) :
    (Slot.record name get slots default).IsTyped v ↔
      ∃ x, (Slot.record name get slots default).Means v x :=
  (exists_readRecord_iff h).symm.trans (exists_congr fun _ => readRecord_eq_some_iff h)

/-- A value for a path is of its type exactly if it means a path, or none. -/
theorem Slot.optionalPath_isTyped_iff {name : String} {get : α → Option Path} (v : Json) :
    (Slot.optionalPath name get).IsTyped v ↔ ∃ x, (Slot.optionalPath name get).Means v x := by
  simp [Slot.optionalPath, exists_or]

/-- The record of the settings is read field by field. -/
theorem areReadBy_fields : AreReadBy slots fields where
  typed := by
    intro slot hslot v
    fin_cases hslot
    all_goals first
      | exact Slot.record_isTyped_iff areReadBy_tagFields v
      | exact Slot.record_isTyped_iff areReadBy_baseFields v
      | exact Slot.optionalPath_isTyped_iff v
      | exact Iff.rfl
  agrees := by
    intro slot hslot field hfield
    fin_cases hslot <;> fin_cases hfield
    all_goals first
      | exact .of_own (fun _ _ => Json.toTexts?_eq_some_iff) fun _ _ => rfl
      | exact .of_own (fun _ _ => Json.toText?_eq_some_iff) fun _ _ => rfl
      | exact .of_own (fun _ _ => Json.toOptionalPath?_eq_some_iff) fun _ _ => rfl
      | exact .of_own (fun _ _ => readRecord_eq_some_iff areReadBy_tagFields) fun _ _ => rfl
      | exact .of_own (fun _ _ => readRecord_eq_some_iff areReadBy_baseFields) fun _ _ => rfl
      | exact .of_other (by decide) fun _ _ => rfl
  names := rfl
  nodup := by decide
  ext r r' h := by
    cases r
    cases r'
    simpa [slots, Slot.texts, Slot.text, Slot.optionalPath, Slot.record] using h

end Settings

/-! ## What is written is read back -/

open Settings

/-- The markers are read back as they were written. -/
theorem TagSettings.ofJson?_toJson (tags : TagSettings) : ofJson? tags.toJson = some tags := by
  refine IsWritten.readRecord_eq areReadBy_tagFields ?_
  simp [IsWritten, tagSlots, Slot.texts, Slot.text]

/-- The base class names are read back as they were written. -/
theorem BaseSettings.ofJson?_toJson (bases : BaseSettings) : ofJson? bases.toJson = some bases := by
  refine IsWritten.readRecord_eq areReadBy_baseFields ?_
  simp [IsWritten, baseSlots, Slot.texts]

/-- The settings are read back as they were written. -/
theorem Settings.ofJson?_toJson (s : Settings) : ofJson? s.toJson = some s := by
  have htags := (readRecord_eq_some_iff areReadBy_tagFields).1 (TagSettings.ofJson?_toJson s.tags)
  have hbases :=
    (readRecord_eq_some_iff areReadBy_baseFields).1 (BaseSettings.ofJson?_toJson s.bases)
  refine IsWritten.readRecord_eq areReadBy_fields ?_
  simp only [IsWritten, slots, List.forall₂_cons, List.Forall₂.nil, and_true]
  refine ⟨⟨rfl, rfl⟩, ⟨rfl, rfl⟩, ⟨rfl, rfl⟩, ⟨rfl, ?_⟩, ⟨rfl, rfl⟩, ⟨rfl, rfl⟩, ⟨rfl, htags⟩,
    rfl, hbases⟩
  cases hdir : s.templateDir with
  | none => exact .inl ⟨rfl, hdir⟩
  | some dir => exact .inr ⟨dir.text, rfl, hdir⟩

namespace Settings

/-! ## What is given in part -/

variable {α : Type}

/-- A known key is given twice, or with a value that is not of its type. -/
def HasMistake (slots : List (Slot α)) (members : List (Option String × Json)) : Prop :=
  ∃ slot ∈ slots, 1 < (valuesOf slot.name members).length ∨
    ∃ v ∈ valuesOf slot.name members, ¬ slot.IsTyped v

/-- Members with a mistake are not well typed. -/
theorem HasMistake.not_wellTyped {slots : List (Slot α)} {members : List (Option String × Json)}
    (h : HasMistake slots members) : ¬ WellTyped slots members := by
  rintro ⟨-, htyped⟩
  obtain ⟨slot, hslot, hmistake⟩ := h
  obtain hnone | ⟨v, hv, hv'⟩ := htyped slot hslot
  · simp [hnone] at hmistake
  · simp [hv, hv'] at hmistake

/-- The settings that are read are the default ones with what the members give, and mistakes are
refused. -/
theorem ofJson?_object_eq_some_iff {members : List (Option String × Json)} {s : Settings} :
    ofJson? (.object members) = some s ↔ WellTyped slots members ∧ Overrides slots members {} s :=
  assignMembers_eq_some_iff areReadBy_fields

/-- Members with a mistake are refused. -/
theorem HasMistake.ofJson?_eq_none {members : List (Option String × Json)}
    (h : HasMistake slots members) : ofJson? (.object members) = none :=
  Option.eq_none_iff_forall_ne_some.2 fun _ hs =>
    h.not_wellTyped (ofJson?_object_eq_some_iff.1 hs).1

/-- A mistake in the object that a record is given as is a mistake around it. -/
theorem HasMistake.of_record {β : Type} {slots : List (Slot α)} {name : String} {get : α → β}
    {inner : List (Slot β)} {default : β} (hslot : Slot.record name get inner default ∈ slots)
    {members innerMembers : List (Option String × Json)}
    (hgiven : .object innerMembers ∈ valuesOf name members) (h : HasMistake inner innerMembers) :
    HasMistake slots members := by
  refine ⟨_, hslot, .inr ⟨_, hgiven, ?_⟩⟩
  rintro ⟨_, hmembers, htyped⟩
  obtain rfl := Option.some.inj hmembers
  exact h.not_wellTyped htyped

/-- **Settings survive being written, and what is given overrides the defaults field by field.**  An
object in which each known key is given at most once and with a value of its type, on both levels,
is read as the one record that has what is given and is the default one otherwise; with a known key
that is given twice or with a value of another type, on either level, it is refused. -/
theorem reading_overrides_defaults :
    (∀ s : Settings, ofJson? s.toJson = some s) ∧
      (∀ members, WellTyped slots members →
        ∃ s, ofJson? (.object members) = some s ∧
          ∀ s', Overrides slots members {} s' ↔ s' = s) ∧
      ∀ members, (HasMistake slots members ∨
          (∃ inner, .object inner ∈ valuesOf "tags" members ∧ HasMistake tagSlots inner) ∨
          ∃ inner, .object inner ∈ valuesOf "bases" members ∧ HasMistake baseSlots inner) →
        ofJson? (.object members) = none := by
  refine ⟨Settings.ofJson?_toJson, fun members htyped => ?_, fun members hmistake => ?_⟩
  · obtain ⟨s, hs⟩ := htyped.exists_assignMembers areReadBy_fields {}
    have hoverrides := (ofJson?_object_eq_some_iff.1 hs).2
    refine ⟨s, hs, fun s' => ⟨fun h => h.unique areReadBy_fields hoverrides, ?_⟩⟩
    rintro rfl
    exact hoverrides
  · obtain h | ⟨inner, hinner, h⟩ | ⟨inner, hinner, h⟩ := hmistake
    · exact h.ofJson?_eq_none
    · have htags : Slot.record "tags" (·.tags) tagSlots {} ∈ slots := by simp [slots]
      exact (h.of_record htags hinner).ofJson?_eq_none
    · have hbases : Slot.record "bases" (·.bases) baseSlots {} ∈ slots := by simp [slots]
      exact (h.of_record hbases hinner).ofJson?_eq_none

/-- Base class names that are given in part, beside an unknown key. -/
def partlyGivenBases : List (Option String × Json) :=
  [(some "colour", .number "1"), (some "system", .texts ["engine::System"])]

/-- Settings that are given in part, in another order than their own. -/
def partlyGiven : List (Option String × Json) :=
  [(some "bases", .object partlyGivenBases), (some "note", .object [(none, .null)]),
    (some "output_file_name", .text "Types.h"), (some "template_dir", .null)]

theorem reading_overrides_partlyGiven :
    WellTyped slots partlyGiven ∧
      ofJson? (.object partlyGiven) =
        some { outputFileName := "Types.h", bases := { system := ["engine::System"] } } ∧
      HasMistake slots (partlyGiven ++ partlyGiven) ∧
      ofJson? (.object (partlyGiven ++ partlyGiven)) = none := by
  have hbases : WellTyped baseSlots partlyGivenBases := by
    refine ⟨by simp [partlyGivenBases], ?_⟩
    simp only [baseSlots, List.forall_mem_cons]
    exact ⟨.inl rfl, .inr ⟨_, rfl, _, rfl⟩, .inl rfl, List.forall_mem_nil _⟩
  have hsettings : WellTyped slots partlyGiven := by
    refine ⟨by simp [partlyGiven], ?_⟩
    simp only [slots, List.forall_mem_cons]
    exact ⟨.inl rfl, .inr ⟨_, rfl, _, rfl⟩, .inl rfl, .inr ⟨_, rfl, .inl rfl⟩, .inl rfl, .inl rfl,
      .inl rfl, .inr ⟨_, rfl, _, rfl, hbases⟩, List.forall_mem_nil _⟩
  have hmistake : HasMistake slots (partlyGiven ++ partlyGiven) :=
    ⟨.text "output_file_name" (·.outputFileName), by simp [slots], .inl (by decide)⟩
  refine ⟨hsettings, ?_, hmistake, reading_overrides_defaults.2.2 _ (.inl hmistake)⟩
  obtain ⟨s, hs, hunique⟩ := reading_overrides_defaults.2.1 partlyGiven hsettings
  rw [hs, Option.some.injEq, eq_comm, ← hunique]
  have hoverrides : Overrides baseSlots partlyGivenBases {} { system := ["engine::System"] } := by
    simp only [Overrides, baseSlots, List.forall_mem_cons]
    exact ⟨.inl ⟨rfl, rfl⟩, .inr ⟨_, rfl, rfl⟩, .inl ⟨rfl, rfl⟩, List.forall_mem_nil _⟩
  simp only [Overrides, slots, List.forall_mem_cons]
  exact ⟨.inl ⟨rfl, rfl⟩, .inr ⟨_, rfl, rfl⟩, .inl ⟨rfl, rfl⟩, .inr ⟨_, rfl, .inl ⟨rfl, rfl⟩⟩,
    .inl ⟨rfl, rfl⟩, .inl ⟨rfl, rfl⟩, .inl ⟨rfl, rfl⟩, .inr ⟨_, rfl, _, rfl, hbases, hoverrides⟩,
    List.forall_mem_nil _⟩

end Settings

end Registrar
