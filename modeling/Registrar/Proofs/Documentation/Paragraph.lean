/-
# Paragraph by paragraph

What the description of a class says is put together from what its paragraphs say.  A reader that
goes through the paragraphs carries two things along, and they follow different rules: the first
role that it finds stays, while a marker of encodable classes counts wherever it stands.  So
paragraphs without a marker can come and go, and two parts of a description can be read apart.
-/
import Mathlib.Data.List.Infix
import Registrar.Documentation.Tag
import Registrar.Proofs.Text.Search

namespace Registrar

/-! ## What one paragraph says -/

/-- A paragraph with one of some markers in it. -/
def Carries (markers : List String) (paragraph : String) : Prop :=
  ∃ marker ∈ markers, marker.toList <:+: paragraph.toList

instance (markers : List String) : DecidablePred (Carries markers) := fun paragraph =>
  inferInstanceAs (Decidable (∃ marker ∈ markers, marker.toList <:+: paragraph.toList))

namespace ClassTags

/-- What two parts of a description say together.  The role of the first part comes before that of
the second one. -/
def merge (first second : ClassTags) : ClassTags where
  role := first.role.or second.role
  isEncodable := first.isEncodable || second.isEncodable

/-- It does not matter which of three neighbouring parts are put together first. -/
theorem merge_assoc (a b c : ClassTags) : (a.merge b).merge c = a.merge (b.merge c) := by
  unfold merge
  rw [Option.or_assoc, Bool.or_assoc]

theorem empty_merge (a : ClassTags) : merge {} a = a := rfl

/-- A part that says nothing adds nothing. -/
theorem merge_empty (a : ClassTags) : a.merge {} = a := by
  unfold merge
  rw [Option.or_none, Bool.or_false]

end ClassTags

namespace TagSettings

variable (tags : TagSettings)

/-- A paragraph with a marker that gives a role. -/
def CarriesRole (paragraph : String) : Prop :=
  Carries tags.component paragraph ∨ Carries tags.system paragraph ∨ Carries tags.scene paragraph

instance : DecidablePred tags.CarriesRole := fun paragraph =>
  inferInstanceAs (Decidable (Carries tags.component paragraph ∨ Carries tags.system paragraph ∨
    Carries tags.scene paragraph))

/-- A paragraph with any marker that says something of a class. -/
def IsMarked (paragraph : String) : Prop :=
  tags.CarriesRole paragraph ∨ Carries tags.encodable paragraph

instance : DecidablePred tags.IsMarked := fun paragraph =>
  inferInstanceAs (Decidable (tags.CarriesRole paragraph ∨ Carries tags.encodable paragraph))

/-- The role that a paragraph gives, if several have a marker in it the first one of them. -/
def GivesRole (paragraph : String) : Role → Prop
  | .component => Carries tags.component paragraph
  | .system => ¬ Carries tags.component paragraph ∧ Carries tags.system paragraph
  | .scene => ¬ Carries tags.component paragraph ∧ ¬ Carries tags.system paragraph ∧
      Carries tags.scene paragraph
  | .none => False

/-- What a paragraph says by itself. -/
def paragraphTags (paragraph : String) : ClassTags where
  role := tags.paragraphRole? paragraph
  isEncodable := holdsAny paragraph tags.encodable

/-- The search for markers finds what the paragraph carries. -/
theorem holdsAny_iff (paragraph : String) (markers : List String) :
    holdsAny paragraph markers = true ↔ Carries markers paragraph := by
  rw [holdsAny, List.any_eq_true]
  simp only [Text.contains_iff_isInfix]
  rfl

/-- The roles are tried in the order of their precedence. -/
theorem paragraphRole?_eq (paragraph : String) : tags.paragraphRole? paragraph =
    if Carries tags.component paragraph then some .component
    else if Carries tags.system paragraph then some .system
    else if Carries tags.scene paragraph then some .scene else none := by
  simp only [paragraphRole?, Role.structural, List.find?_cons, List.find?_nil, roleMarkers,
    ← holdsAny_iff]
  cases holdsAny paragraph tags.component with
  | true => simp
  | false =>
    cases holdsAny paragraph tags.system with
    | true => simp
    | false => cases holdsAny paragraph tags.scene <;> simp

/-- The role that is found in a paragraph is the one that it gives. -/
theorem paragraphRole?_eq_some_iff (paragraph : String) (role : Role) :
    tags.paragraphRole? paragraph = some role ↔ tags.GivesRole paragraph role := by
  rw [paragraphRole?_eq]
  by_cases hcomponent : Carries tags.component paragraph
  · rw [if_pos hcomponent]
    cases role <;> simp [GivesRole, hcomponent]
  · by_cases hsystem : Carries tags.system paragraph
    · rw [if_neg hcomponent, if_pos hsystem]
      cases role <;> simp [GivesRole, hcomponent, hsystem]
    · rw [if_neg hcomponent, if_neg hsystem]
      cases role <;> simp [GivesRole, hcomponent, hsystem]

/-- No role is found in a paragraph without a marker for one. -/
theorem paragraphRole?_eq_none_iff (paragraph : String) :
    tags.paragraphRole? paragraph = none ↔ ¬ tags.CarriesRole paragraph := by
  rw [paragraphRole?_eq, CarriesRole, not_or, not_or]
  split_ifs with hcomponent hsystem hscene
  · simp [hcomponent]
  · simp [hsystem]
  · simp [hscene]
  · exact ⟨fun _ => ⟨hcomponent, hsystem, hscene⟩, fun _ => rfl⟩

/-- A paragraph without a marker says nothing. -/
theorem paragraphTags_of_not_isMarked {paragraph : String} (h : ¬ tags.IsMarked paragraph) :
    tags.paragraphTags paragraph = {} := by
  obtain ⟨hrole, hencodable⟩ := not_or.1 h
  rw [paragraphTags, (tags.paragraphRole?_eq_none_iff paragraph).2 hrole,
    Bool.eq_false_iff.2 fun hholds => hencodable ((holdsAny_iff _ _).1 hholds)]

/-! ## One paragraph after the other -/

/-- A paragraph comes before the ones behind it. -/
theorem classTags_cons (paragraph : String) (paragraphs : List String) :
    tags.classTags (paragraph :: paragraphs) =
      (tags.paragraphTags paragraph).merge (tags.classTags paragraphs) := by
  unfold classTags ClassTags.merge paragraphTags
  rw [List.any_cons, List.findSome?_cons]
  cases tags.paragraphRole? paragraph with
  | none => rfl
  | some role => rfl

/-- Whatever a reader has found so far stays in front of what the paragraphs behind say. -/
theorem foldl_merge (found : ClassTags) (paragraphs : List String) :
    paragraphs.foldl (fun found paragraph => found.merge (tags.paragraphTags paragraph)) found =
      found.merge (tags.classTags paragraphs) := by
  induction paragraphs generalizing found with
  | nil => exact found.merge_empty.symm
  | cons paragraph paragraphs ih =>
    rw [List.foldl_cons, ih, classTags_cons, ClassTags.merge_assoc]

/-- A reader that starts with nothing finds what the paragraphs say. -/
theorem classTags_eq_foldl (paragraphs : List String) : tags.classTags paragraphs =
    paragraphs.foldl (fun found paragraph => found.merge (tags.paragraphTags paragraph)) {} := by
  rw [foldl_merge, ClassTags.empty_merge]

/-- Two lists of paragraphs can be read apart. -/
theorem classTags_append (ps qs : List String) :
    tags.classTags (ps ++ qs) = (tags.classTags ps).merge (tags.classTags qs) := by
  rw [classTags_eq_foldl, List.foldl_append, foldl_merge, ← classTags_eq_foldl]

/-- Only the paragraphs with markers count. -/
theorem classTags_filter (paragraphs : List String) :
    tags.classTags (paragraphs.filter fun p => tags.IsMarked p) = tags.classTags paragraphs := by
  induction paragraphs with
  | nil => rfl
  | cons paragraph paragraphs ih =>
    by_cases hmarked : tags.IsMarked paragraph
    · rw [List.filter_cons, if_pos (decide_eq_true hmarked), classTags_cons, classTags_cons, ih]
    · rw [List.filter_cons, if_neg (by simpa using hmarked), classTags_cons,
        paragraphTags_of_not_isMarked tags hmarked, ClassTags.empty_merge, ih]

/-- A class is encodable exactly if some paragraph carries a marker for it. -/
theorem isEncodable_classTags_iff (paragraphs : List String) :
    (tags.classTags paragraphs).isEncodable = true ↔
      ∃ p ∈ paragraphs, Carries tags.encodable p := by
  rw [classTags, List.any_eq_true]
  simp only [holdsAny_iff]

/-- The role is the one that the first paragraph with a role gives. -/
theorem role_classTags_iff (paragraphs : List String) (role : Role) :
    (tags.classTags paragraphs).role = some role ↔
      ∃ before p after, paragraphs = before ++ p :: after ∧ tags.GivesRole p role ∧
        ∀ q ∈ before, ¬ tags.CarriesRole q := by
  rw [classTags, List.findSome?_eq_some_iff]
  simp only [paragraphRole?_eq_some_iff, paragraphRole?_eq_none_iff]

/-- What two lists of paragraphs say together is told by what each of them says: the role of the
first one counts, or that of the second one if the first has none, and either makes the class
encodable.  Lists that differ in paragraphs without a marker only say the same.  The role is the one
that the first paragraph with a marker of a role gives, and a class is encodable exactly if some
paragraph has a marker for that. -/
theorem classTags_paragraphwise (ps qs : List String) :
    ((tags.classTags (ps ++ qs)).role =
      if (tags.classTags ps).role = none then (tags.classTags qs).role
      else (tags.classTags ps).role) ∧
    ((tags.classTags (ps ++ qs)).isEncodable = true ↔
      (tags.classTags ps).isEncodable = true ∨ (tags.classTags qs).isEncodable = true) ∧
    ((ps.filter fun p => tags.IsMarked p) = (qs.filter fun q => tags.IsMarked q) →
      tags.classTags ps = tags.classTags qs) ∧
    (∀ role, (tags.classTags ps).role = some role ↔
      ∃ before p after, ps = before ++ p :: after ∧ tags.GivesRole p role ∧
        ∀ q ∈ before, ¬ tags.CarriesRole q) ∧
    ((tags.classTags ps).isEncodable = true ↔ ∃ p ∈ ps, Carries tags.encodable p) := by
  refine ⟨?_, ?_, ?_, tags.role_classTags_iff ps, tags.isEncodable_classTags_iff ps⟩
  · rw [classTags_append, ClassTags.merge]
    cases (tags.classTags ps).role with
    | none => rfl
    | some role => rfl
  · rw [classTags_append, ClassTags.merge, Bool.or_eq_true]
  · intro hsame
    rw [← classTags_filter tags ps, hsame, classTags_filter]

/-- Of two roles in one paragraph the first one in order of precedence counts, whatever stands
around the paragraph. -/
theorem classTags_paragraphwise_prose :
    let ps := ["[system] and [component]", "[scene], [encodable]"]
    let qs := ["A system.", "[system] and [component]", "", "More.", "[scene], [encodable]", "End."]
    (ps.filter fun p => IsMarked {} p) = (qs.filter fun q => IsMarked {} q) ∧
      classTags {} ps = classTags {} qs ∧ (classTags {} ps).role = some .component := by
  intro ps qs
  have hsame : (ps.filter fun p => IsMarked {} p) = (qs.filter fun q => IsMarked {} q) := by decide
  have hwhole := classTags_paragraphwise {} ps qs
  refine ⟨hsame, hwhole.2.2.1 hsame, (hwhole.2.2.2.1 .component).2 ⟨[], _, _, rfl, ?_, ?_⟩⟩
  · show Carries _ _
    decide
  · exact fun q hq => absurd hq List.not_mem_nil

end TagSettings

end Registrar
