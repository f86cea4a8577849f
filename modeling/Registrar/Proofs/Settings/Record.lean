/-
# Records that are read field by field

A record is described by its slots: the name of each field, the field itself, and which values are
of its type.  The members of an object may stand in any order and among unknown ones.  They are read
exactly if each name is given at most once and with a value of its type, and then each slot holds
what is given under its name, or its default.  One member settles its own slot and leaves all others
as they are; the names that have been seen keep a slot from being settled twice.
-/
import Mathlib.Data.List.Nodup
import Registrar.Settings.Json

namespace Registrar.Settings

/-! ## What members say of a record -/

/-- The values that are given for a name, in the order in which they are written. -/
def valuesOf (name : String) (members : List (Option String × Json)) : List Json :=
  members.filterMap fun member => if member.1 = some name then some member.2 else none

/-- A field of a record with the name that it has in an object. -/
structure Slot (α : Type) where
  {β : Type}
  name : String
  get : α → β
  /-- The values of the type of the field. -/
  IsTyped : Json → Prop
  /-- The contents that a value stands for. -/
  Means : Json → β → Prop

variable {α : Type}

/-- The name is given at most once, and with a value of its type. -/
def Slot.IsTypedIn (slot : Slot α) (members : List (Option String × Json)) : Prop :=
  valuesOf slot.name members = [] ∨ ∃ v, valuesOf slot.name members = [v] ∧ slot.IsTyped v

/-- The record holds what is given under the name, or its default if nothing is. -/
def Slot.IsGivenIn (slot : Slot α) (members : List (Option String × Json)) (default r : α) : Prop :=
  valuesOf slot.name members = [] ∧ slot.get r = slot.get default ∨
    ∃ v, valuesOf slot.name members = [v] ∧ slot.Means v (slot.get r)

/-- All keys are texts, and every known one is given at most once and with a value of its type. -/
def WellTyped (slots : List (Slot α)) (members : List (Option String × Json)) : Prop :=
  (∀ member ∈ members, member.1 ≠ none) ∧ ∀ slot ∈ slots, slot.IsTypedIn members

/-- The record is the default one with the fields that are given in the place of its own. -/
def Overrides (slots : List (Slot α)) (members : List (Option String × Json)) (default r : α) :
    Prop :=
  ∀ slot ∈ slots, slot.IsGivenIn members default r

/-- The members that a value stands for: those of an object, or the elements of an array under the
names of the slots in order. -/
def membersOf? (slots : List (Slot α)) : Json → Option (List (Option String × Json))
  | .object members => some members
  | .array values =>
    if values.length ≤ slots.length then some ((slots.map fun slot => some slot.name).zip values)
    else none
  | _ => none

/-! ## Slots and the fields that are assigned -/

/-- Under its own name a slot is assigned what a value means, and under no other name it changes. -/
structure Slot.Agrees (slot : Slot α) (field : Field α) : Prop where
  own : field.name = slot.name →
    ∀ v r x, (field.assign v r).map slot.get = some x ↔ slot.Means v x
  other : field.name ≠ slot.name →
    ∀ v r r', field.assign v r = some r' → slot.get r' = slot.get r

/-- The slots of a record have the names of its fields, and the record consists of them. -/
structure AreReadBy (slots : List (Slot α)) (fields : List (Field α)) : Prop where
  typed : ∀ slot ∈ slots, ∀ v, slot.IsTyped v ↔ ∃ x, slot.Means v x
  agrees : ∀ slot ∈ slots, ∀ field ∈ fields, slot.Agrees field
  names : fields.map (·.name) = slots.map (·.name)
  nodup : (slots.map (·.name)).Nodup
  ext : ∀ r r', (∀ slot ∈ slots, slot.get r = slot.get r') → r = r'

variable {slot : Slot α} {slots : List (Slot α)} {fields : List (Field α)}
  {members : List (Option String × Json)} {default r r' : α}

/-- Every slot has a field of its name. -/
theorem AreReadBy.exists_field (h : AreReadBy slots fields) (hslot : slot ∈ slots) :
    ∃ field ∈ fields, field.name = slot.name := by
  have hname : slot.name ∈ fields.map (·.name) := by
    rw [h.names]
    exact List.mem_map_of_mem hslot
  exact List.mem_map.1 hname

/-- Every field has a slot of its name. -/
theorem AreReadBy.exists_slot (h : AreReadBy slots fields) {field : Field α}
    (hfield : field ∈ fields) : ∃ slot ∈ slots, slot.name = field.name := by
  have hname : field.name ∈ slots.map (·.name) := by
    rw [← h.names]
    exact List.mem_map_of_mem hfield
  exact List.mem_map.1 hname

/-- No two fields have the same name. -/
theorem AreReadBy.nodup_fields (h : AreReadBy slots fields) : (fields.map (·.name)).Nodup := by
  rw [h.names]
  exact h.nodup

/-- What a record is given under a name is of its type. -/
theorem AreReadBy.isTypedIn (h : AreReadBy slots fields) (hslot : slot ∈ slots)
    (hgiven : slot.IsGivenIn members default r) : slot.IsTypedIn members := by
  obtain ⟨hnone, -⟩ | ⟨v, hv, hmeans⟩ := hgiven
  · exact .inl hnone
  · exact .inr ⟨v, hv, (h.typed slot hslot v).2 ⟨_, hmeans⟩⟩

/-- A value stands for one content only. -/
theorem AreReadBy.means_unique (h : AreReadBy slots fields) (hslot : slot ∈ slots) (r : α)
    {v : Json} {x y : slot.β} (hx : slot.Means v x) (hy : slot.Means v y) : x = y := by
  obtain ⟨field, hfield, hname⟩ := h.exists_field hslot
  have hown := (h.agrees slot hslot field hfield).own hname v r
  exact Option.some.inj (((hown x).2 hx).symm.trans ((hown y).2 hy))

/-- What is given and what is the default make one record only. -/
theorem Overrides.unique (h : AreReadBy slots fields) (hr : Overrides slots members default r)
    (hr' : Overrides slots members default r') : r = r' := by
  refine h.ext r r' fun slot hslot => ?_
  obtain ⟨hnone, hdefault⟩ | ⟨v, hv, hmeans⟩ := hr slot hslot <;>
    obtain ⟨hnone', hdefault'⟩ | ⟨v', hv', hmeans'⟩ := hr' slot hslot
  · rw [hdefault, hdefault']
  · exact absurd (hnone.symm.trans hv') (by simp)
  · exact absurd (hnone'.symm.trans hv) (by simp)
  · obtain rfl : v = v' := List.singleton_inj.1 (hv.symm.trans hv')
    exact h.means_unique hslot default hmeans hmeans'

/-! ## One member -/

/-- A member adds its value to those of its own name. -/
theorem valuesOf_cons_self (name : String) (v : Json) (members : List (Option String × Json)) :
    valuesOf name ((some name, v) :: members) = v :: valuesOf name members := by
  simp [valuesOf]

/-- A member adds nothing to the values of another name. -/
theorem valuesOf_cons_of_ne {name key : String} (hne : key ≠ name) (v : Json)
    (members : List (Option String × Json)) :
    valuesOf name ((some key, v) :: members) = valuesOf name members := by
  simp [valuesOf, hne]

/-- Whether a slot is given rightly does not depend on a member of another name. -/
theorem Slot.isTypedIn_cons_of_ne {key : String} (hne : key ≠ slot.name) (v : Json)
    (members : List (Option String × Json)) :
    slot.IsTypedIn ((some key, v) :: members) ↔ slot.IsTypedIn members := by
  rw [Slot.IsTypedIn, valuesOf_cons_of_ne hne, Slot.IsTypedIn]

/-- A slot is given rightly with a member of its name if the value is of its type and there is no
other one. -/
theorem Slot.isTypedIn_cons_self (v : Json) (members : List (Option String × Json)) :
    slot.IsTypedIn ((some slot.name, v) :: members) ↔
      slot.IsTyped v ∧ valuesOf slot.name members = [] := by
  rw [Slot.IsTypedIn, valuesOf_cons_self]
  constructor
  · rintro (hnone | ⟨w, hw, hw'⟩)
    · exact absurd hnone (List.cons_ne_nil _ _)
    · obtain ⟨rfl, hrest⟩ := List.cons.inj hw
      exact ⟨hw', hrest⟩
  · rintro ⟨htyped, hrest⟩
    exact .inr ⟨v, by rw [hrest], htyped⟩

/-- An unknown key is skipped, whatever it holds. -/
theorem assignMembers_of_unknown {key : String} (hkey : ∀ field ∈ fields, field.name ≠ key)
    (seen : List String) (v : Json) (members : List (Option String × Json)) (r : α) :
    Field.assignMembers fields seen ((some key, v) :: members) r =
      Field.assignMembers fields seen members r := by
  have hfind : fields.find? (fun field => field.name = key) = none :=
    List.find?_eq_none.2 fun field hfield => by simpa using hkey field hfield
  rw [Field.assignMembers, hfind]

/-- A known key is assigned to its field if it has not been seen. -/
theorem assignMembers_of_mem (hnodup : (fields.map (·.name)).Nodup) {field : Field α}
    (hfield : field ∈ fields) (seen : List String) (v : Json)
    (members : List (Option String × Json)) (r : α) :
    Field.assignMembers fields seen ((some field.name, v) :: members) r =
      if field.name ∈ seen then none
      else (field.assign v r).bind (Field.assignMembers fields (field.name :: seen) members) := by
  have hfind : fields.find? (fun other => other.name = field.name) = some field := by
    obtain ⟨other, hother⟩ : ∃ other, fields.find? (fun g => g.name = field.name) = some other :=
      Option.isSome_iff_exists.1 (List.find?_isSome.2 ⟨field, hfield, by simp⟩)
    have hname : other.name = field.name := by
      simpa using List.find?_some (p := fun g : Field α => g.name = field.name) hother
    rw [hother, List.inj_on_of_nodup_map hnodup (List.mem_of_find?_eq_some hother) hfield hname]
  rw [Field.assignMembers, hfind]

/-- What a member can be if the members from it on are read: one with an unknown key, or one that is
assigned to a field that has not been seen. -/
theorem of_assignMembers_cons {seen : List String} {member : Option String × Json}
    (h : Field.assignMembers fields seen (member :: members) r = some r') :
    ∃ key v, member = (some key, v) ∧
      ((∀ field ∈ fields, field.name ≠ key) ∧
          Field.assignMembers fields seen members r = some r' ∨
        ∃ field ∈ fields, field.name = key ∧ key ∉ seen ∧ ∃ r₁, field.assign v r = some r₁ ∧
          Field.assignMembers fields (key :: seen) members r₁ = some r') := by
  obtain ⟨_ | key, v⟩ := member
  · exact absurd h (by simp [Field.assignMembers])
  refine ⟨key, v, rfl, ?_⟩
  rw [Field.assignMembers] at h
  split at h
  · next hfind =>
    exact .inl ⟨fun field hfield => by simpa using List.find?_eq_none.1 hfind field hfield, h⟩
  · next field hfind =>
    have hname : field.name = key := by
      simpa using List.find?_some (p := fun f : Field α => f.name = key) hfind
    split at h
    · exact absurd h (by simp)
    · next hnew =>
      obtain ⟨r₁, hassign, hrest⟩ := Option.bind_eq_some_iff.1 h
      exact .inr ⟨field, List.mem_of_find?_eq_some hfind, hname, hnew, r₁, hassign, hrest⟩

/-! ## All members -/

/-- No key is without a text if the members are read. -/
theorem ne_none_of_assignMembers {seen : List String}
    (h : Field.assignMembers fields seen members r = some r') :
    ∀ member ∈ members, member.1 ≠ none := by
  induction members generalizing seen r with
  | nil => exact fun _ hmember => absurd hmember List.not_mem_nil
  | cons member members ih =>
    obtain ⟨key, v, rfl, ⟨-, hrest⟩ | ⟨_, -, -, -, r₁, -, hrest⟩⟩ := of_assignMembers_cons h <;>
      exact List.forall_mem_cons.2 ⟨by simp, ih hrest⟩

/-- What has been read of members is what they say of a slot, and they say nothing of a slot that
was settled before. -/
theorem isGivenIn_of_assignMembers (hread : AreReadBy slots fields) (hslot : slot ∈ slots)
    {seen : List String} (h : Field.assignMembers fields seen members r = some r') :
    slot.IsGivenIn members r r' ∧ (slot.name ∈ seen → valuesOf slot.name members = []) := by
  induction members generalizing seen r with
  | nil =>
    obtain rfl : r = r' := by simpa [Field.assignMembers] using h
    exact ⟨.inl ⟨rfl, rfl⟩, fun _ => rfl⟩
  | cons member members ih =>
    obtain ⟨key, v, rfl, ⟨hunknown, hrest⟩ | ⟨field, hfield, hname, hnew, r₁, hassign, hrest⟩⟩ :=
      of_assignMembers_cons h
    · have hne : key ≠ slot.name := by
        obtain ⟨field, hfield, hname⟩ := hread.exists_field hslot
        exact fun hkey => hunknown field hfield (hname.trans hkey.symm)
      rw [Slot.IsGivenIn, valuesOf_cons_of_ne hne]
      exact ih hrest
    · obtain ⟨hgiven, hseen⟩ := ih hrest
      have hagrees := hread.agrees slot hslot field hfield
      by_cases hkey : key = slot.name
      · -- the slot is settled here, and nothing is said of it afterwards
        subst hkey
        have hnone := hseen List.mem_cons_self
        have hsame : slot.get r' = slot.get r₁ := by
          obtain ⟨-, hsame⟩ | ⟨w, hw, -⟩ := hgiven
          · exact hsame
          · exact absurd (hnone.symm.trans hw) (by simp)
        have hmeans : slot.Means v (slot.get r') := by
          rw [hsame, ← hagrees.own hname v r, hassign, Option.map_some]
        rw [Slot.IsGivenIn, valuesOf_cons_self, hnone]
        exact ⟨.inr ⟨v, rfl, hmeans⟩, fun hmem => absurd hmem hnew⟩
      · have hsame := hagrees.other (by rwa [hname]) v r r₁ hassign
        rw [Slot.IsGivenIn, valuesOf_cons_of_ne hkey, ← hsame]
        exact ⟨hgiven, fun hmem => hseen (List.mem_cons_of_mem key hmem)⟩

/-- Members are read if each known key is given at most once and with a value of its type, and none
of them was settled before. -/
theorem exists_assignMembers_of_notSeen (hread : AreReadBy slots fields) {seen : List String}
    (hkeys : ∀ member ∈ members, member.1 ≠ none)
    (hslots : ∀ slot ∈ slots,
      slot.IsTypedIn members ∧ (slot.name ∈ seen → valuesOf slot.name members = [])) :
    ∃ r', Field.assignMembers fields seen members r = some r' := by
  induction members generalizing seen r with
  | nil => exact ⟨r, by rw [Field.assignMembers]⟩
  | cons member members ih =>
    obtain ⟨hkey, hrest⟩ := List.forall_mem_cons.1 hkeys
    obtain ⟨_ | key, v⟩ := member
    · exact absurd rfl hkey
    by_cases hknown : ∃ field ∈ fields, field.name = key
    · obtain ⟨field, hfield, rfl⟩ := hknown
      -- the field has a slot, which has a value of its type here and none behind
      obtain ⟨slot, hslot, hname⟩ := hread.exists_slot hfield
      rw [← hname] at hslots ⊢
      obtain ⟨htyped, hseen⟩ := hslots slot hslot
      obtain ⟨htyped, hnone⟩ := (slot.isTypedIn_cons_self v members).1 htyped
      have hnew : slot.name ∉ seen := by
        intro hmem
        rw [valuesOf_cons_self] at hseen
        exact absurd (hseen hmem) (List.cons_ne_nil _ _)
      obtain ⟨x, hmeans⟩ := (hread.typed slot hslot v).1 htyped
      obtain ⟨r₁, hassign, -⟩ := Option.map_eq_some_iff.1
        (((hread.agrees slot hslot field hfield).own hname.symm v r x).2 hmeans)
      rw [hname, assignMembers_of_mem hread.nodup_fields hfield, if_neg (hname ▸ hnew), hassign,
        Option.bind_some, ← hname]
      -- what is left says nothing of this slot, and of all others what the whole says
      refine ih hrest fun other hother => ?_
      by_cases hself : slot.name = other.name
      · rw [Slot.IsTypedIn, ← hself]
        exact ⟨.inl hnone, fun _ => hnone⟩
      · obtain ⟨hother, hseen⟩ := hslots other hother
        rw [Slot.isTypedIn_cons_of_ne hself] at hother
        rw [valuesOf_cons_of_ne hself] at hseen
        exact ⟨hother, fun hmem => hseen (List.mem_of_ne_of_mem (Ne.symm hself) hmem)⟩
    · have hunknown : ∀ field ∈ fields, field.name ≠ key := by simpa using hknown
      rw [assignMembers_of_unknown hunknown]
      refine ih hrest fun slot hslot => ?_
      have hne : key ≠ slot.name := by
        rintro rfl
        exact hknown (hread.exists_field hslot)
      rw [← slot.isTypedIn_cons_of_ne hne v members, ← valuesOf_cons_of_ne hne v members]
      exact hslots slot hslot

/-- Well-typed members give a record. -/
theorem WellTyped.exists_assignMembers (hread : AreReadBy slots fields)
    (htyped : WellTyped slots members) (default : α) :
    ∃ r, Field.assignMembers fields [] members default = some r :=
  exists_assignMembers_of_notSeen hread htyped.1 fun slot hslot =>
    ⟨htyped.2 slot hslot, fun hmem => absurd hmem List.not_mem_nil⟩

/-- Members are read as a record exactly if they are well typed and the record is the default one
with what they give in the place of its own fields. -/
theorem assignMembers_eq_some_iff (hread : AreReadBy slots fields) :
    Field.assignMembers fields [] members default = some r ↔
      WellTyped slots members ∧ Overrides slots members default r := by
  have hgiven : ∀ {r}, Field.assignMembers fields [] members default = some r →
      Overrides slots members default r :=
    fun h slot hslot => (isGivenIn_of_assignMembers hread hslot h).1
  constructor
  · intro h
    exact ⟨⟨ne_none_of_assignMembers h, fun slot hslot =>
      hread.isTypedIn hslot (hgiven h slot hslot)⟩, hgiven h⟩
  · rintro ⟨htyped, hoverrides⟩
    obtain ⟨r', hr'⟩ : ∃ r', Field.assignMembers fields [] members default = some r' :=
      htyped.exists_assignMembers hread default
    rw [hr', (hgiven hr').unique hread hoverrides]

/-! ## Elements of an array -/

/-- Elements are read as the members that have the names of the fields in order. -/
theorem assignElements_eq (hnodup : (fields.map (·.name)).Nodup) {rest : List (Field α)}
    (hsub : ∀ field ∈ rest, field ∈ fields) (hrest : (rest.map (·.name)).Nodup)
    {seen : List String} (hnew : ∀ field ∈ rest, field.name ∉ seen) (values : List Json) (r : α) :
    Field.assignElements rest values r =
      if values.length ≤ rest.length then
        Field.assignMembers fields seen ((rest.map fun field => some field.name).zip values) r
      else none := by
  induction rest generalizing seen values r with
  | nil =>
    cases values with
    | nil => rfl
    | cons v values =>
      rw [if_neg (by simp)]
      rfl
  | cons field rest ih =>
    cases values with
    | nil =>
      rw [if_pos (by simp)]
      rfl
    | cons v values =>
      obtain ⟨hfield, hsub⟩ := List.forall_mem_cons.1 hsub
      obtain ⟨hfresh, hnew⟩ := List.forall_mem_cons.1 hnew
      rw [List.map_cons, List.nodup_cons] at hrest
      -- the fields that are left have other names than the one that is assigned first
      have hnew : ∀ other ∈ rest, other.name ∉ field.name :: seen := by
        intro other hother hmem
        obtain hself | hmem := List.mem_cons.1 hmem
        · exact hrest.1 (hself ▸ List.mem_map_of_mem hother)
        · exact hnew other hother hmem
      rw [Field.assignElements, List.map_cons, List.zip_cons_cons,
        assignMembers_of_mem hnodup hfield, if_neg hfresh]
      cases field.assign v r with
      | none => simp
      | some r₁ =>
        simp only [Option.bind_some, List.length_cons, Nat.add_le_add_iff_right]
        exact ih hsub hrest.2 hnew values r₁

/-! ## A record -/

/-- A record is read from the members that the value stands for. -/
theorem readRecord_eq (hread : AreReadBy slots fields) (default : α) (v : Json) :
    Field.readRecord fields default v =
      (membersOf? slots v).bind fun members => Field.assignMembers fields [] members default := by
  cases v with
  | object members => rfl
  | array values =>
    have hnames : (fields.map fun field => some field.name) =
        slots.map fun slot => some slot.name := by
      simpa [Function.comp_def] using congrArg (List.map some) hread.names
    have hlength : fields.length = slots.length := by
      simpa using congrArg List.length hread.names
    rw [Field.readRecord, membersOf?, assignElements_eq hread.nodup_fields (fun _ h => h)
      hread.nodup_fields (fun _ _ => List.not_mem_nil), hnames, hlength]
    split <;> rfl
  | null => rfl
  | boolean value => rfl
  | number numeral => rfl
  | string content => rfl

/-- A value is read as a record exactly if its members are well typed and the record is the default
one with what they give in the place of its own fields. -/
theorem readRecord_eq_some_iff (hread : AreReadBy slots fields) {v : Json} :
    Field.readRecord fields default v = some r ↔ ∃ members, membersOf? slots v = some members ∧
      WellTyped slots members ∧ Overrides slots members default r := by
  rw [readRecord_eq hread, Option.bind_eq_some_iff]
  simp only [assignMembers_eq_some_iff hread]

/-- A value can be read exactly if its members are well typed. -/
theorem exists_readRecord_iff (hread : AreReadBy slots fields) {v : Json} :
    (∃ r, Field.readRecord fields default v = some r) ↔
      ∃ members, membersOf? slots v = some members ∧ WellTyped slots members := by
  constructor
  · rintro ⟨r, h⟩
    obtain ⟨members, hmembers, htyped, -⟩ := (readRecord_eq_some_iff hread).1 h
    exact ⟨members, hmembers, htyped⟩
  · rintro ⟨members, hmembers, htyped⟩
    obtain ⟨r, hr⟩ : ∃ r, Field.assignMembers fields [] members default = some r :=
      htyped.exists_assignMembers hread default
    exact ⟨r, (readRecord_eq_some_iff hread).2
      ⟨members, hmembers, (assignMembers_eq_some_iff hread).1 hr⟩⟩

/-! ## A record that is written in full -/

/-- Each member has the name of a slot and a value that stands for what the record holds there. -/
def IsWritten (slots : List (Slot α)) (members : List (Option String × Json)) (r : α) : Prop :=
  List.Forall₂ (fun slot member => member.1 = some slot.name ∧ slot.Means member.2 (slot.get r))
    slots members

/-- All keys of a record that is written in full are texts. -/
theorem IsWritten.ne_none (h : IsWritten slots members r) :
    ∀ member ∈ members, member.1 ≠ none := by
  induction h with
  | nil => exact fun _ hmember => absurd hmember List.not_mem_nil
  | cons hmember _ ih =>
    rw [List.forall_mem_cons, hmember.1]
    exact ⟨Option.some_ne_none _, ih⟩

/-- A record that is written in full has no member of another name. -/
theorem IsWritten.valuesOf_of_notMem (h : IsWritten slots members r) {name : String}
    (hname : name ∉ slots.map (·.name)) : valuesOf name members = [] := by
  induction h with
  | nil => rfl
  | @cons slot member slots members hmember _ ih =>
    obtain ⟨key, v⟩ := member
    obtain ⟨rfl, -⟩ := hmember
    rw [List.map_cons, List.mem_cons, not_or] at hname
    rw [valuesOf_cons_of_ne (Ne.symm hname.1), ih hname.2]

/-- A record that is written in full overrides any default. -/
theorem IsWritten.overrides (h : IsWritten slots members r) (hnodup : (slots.map (·.name)).Nodup)
    (default : α) : Overrides slots members default r := by
  induction h with
  | nil => exact fun _ hslot => absurd hslot List.not_mem_nil
  | @cons slot member slots members hmember hrest ih =>
    obtain ⟨key, v⟩ := member
    obtain ⟨rfl, hmeans⟩ := hmember
    rw [List.map_cons, List.nodup_cons] at hnodup
    refine List.forall_mem_cons.2 ⟨.inr ⟨v, ?_, hmeans⟩, fun other hother => ?_⟩
    · rw [valuesOf_cons_self, IsWritten.valuesOf_of_notMem hrest hnodup.1]
    · have hne : slot.name ≠ other.name := fun hself =>
        hnodup.1 (hself ▸ List.mem_map_of_mem hother)
      rw [Slot.IsGivenIn, valuesOf_cons_of_ne hne]
      exact ih hnodup.2 other hother

/-- A record that is written in full is read as it was. -/
theorem IsWritten.readRecord_eq (hread : AreReadBy slots fields) (h : IsWritten slots members r) :
    Field.readRecord fields default (.object members) = some r := by
  have hoverrides := h.overrides hread.nodup default
  have htyped : WellTyped slots members :=
    ⟨h.ne_none, fun slot hslot => hread.isTypedIn hslot (hoverrides slot hslot)⟩
  exact (readRecord_eq_some_iff hread).2 ⟨members, rfl, htyped, hoverrides⟩

end Registrar.Settings
