/-
# Values that are missing

Rendering fails for one reason only: a placeholder in the text has a key for which there is no value.
Which values the other keys have does not matter, so what rendering can fail with is known from the
text and the keys alone.  A set of templates that was made from the built-in ones still has a template
of each built-in name, so no template is unknown.
-/
import Mathlib.Data.Set.Lattice
import Registrar.Proofs.Template.Reading
import Registrar.Template.Set

namespace Registrar

/-! ## What a computation fails with -/

/-- A computation fails exactly if there is an error to fail with, and then with one of these. -/
def FailsWith {α ε : Type} (errors : Set ε) : Except ε α → Prop
  | .ok _ => errors = ∅
  | .error err => err ∈ errors

section

variable {α β ε : Type} {s t : Set ε}

/-- What only gives a value does not fail. -/
theorem failsWith_pure (a : α) : FailsWith ∅ (pure a : Except ε α) := rfl

/-- Of two computations one after the other either may fail, if what the second one fails with does
not depend on the first one. -/
theorem FailsWith.bind {x : Except ε α} {f : α → Except ε β} (hx : FailsWith s x)
    (hf : ∀ a, FailsWith t (f a)) : FailsWith (s ∪ t) (x >>= f) := by
  cases x with
  | error err => exact Or.inl hx
  | ok a =>
    obtain rfl : s = ∅ := hx
    rw [Set.empty_union]
    exact hf a

/-- What is made of a result fails with what the result fails with. -/
theorem FailsWith.map {x : Except ε α} (hx : FailsWith s x) (f : α → β) :
    FailsWith s (x >>= fun a => pure (f a)) := by
  rw [← Set.union_empty s]
  exact hx.bind fun a => failsWith_pure (f a)

/-- Going through a list fails with what one of its members fails with. -/
theorem failsWith_mapM {f : α → Except ε β} {s : α → Set ε} (hf : ∀ a, FailsWith (s a) (f a))
    (as : List α) : FailsWith (⋃ a ∈ as, s a) (as.mapM f) := by
  induction as with
  | nil => simpa using failsWith_pure ([] : List β)
  | cons a as ih =>
    have hunion : (⋃ b ∈ a :: as, s b) = s a ∪ ⋃ b ∈ as, s b := by
      ext err
      simp
    rw [hunion, List.mapM_cons]
    exact (hf a).bind fun b => ih.map fun bs => b :: bs

/-- A computation that is left out does not fail. -/
theorem FailsWith.ite {x : Except ε α} (hx : FailsWith s x) (b : Bool) (a : α) :
    FailsWith (⋃ _ : b = true, s) (if b then x else pure a) := by
  cases b with
  | false => simpa using failsWith_pure a
  | true => simpa using hx

/-- A computation fails exactly if there is something to fail with. -/
theorem FailsWith.exists_error_iff {x : Except ε α} (hx : FailsWith s x) :
    (∃ err, x = .error err) ↔ ∃ err, err ∈ s := by
  cases x with
  | error err => exact ⟨fun _ => ⟨err, hx⟩, fun _ => ⟨err, rfl⟩⟩
  | ok a =>
    obtain rfl : s = ∅ := hx
    simp

end

/-! ## Templates -/

namespace Template

/-- Some placeholder in the text of a template has a given key. -/
def Mentions (t : Template) (key : String) : Prop :=
  ∃ ps, IsReading t.text.toList ps ∧ key ∈ keys ps

/-- A template mentions the keys of its pieces. -/
theorem mentions_iff (t : Template) (key : String) :
    t.Mentions key ↔ key ∈ keys (pieces t.text.toList) := by
  simp only [Mentions, isReading_iff, exists_eq_left]

end Template

namespace TemplateSet

/-- The template of a name has a placeholder whose key is none of those for which there are values. -/
def LacksValue (s : TemplateSet) (name : String) (given : List String) (key : String) : Prop :=
  ∃ t, s.get name = .ok t ∧ t.Mentions key ∧ key ∉ given

/-- What rendering the template of a name fails with when there are values for some keys. -/
def missing (s : TemplateSet) (name : String) (given : List String) : Set TemplateError :=
  {err | ∃ key, s.LacksValue name given key ∧ err = .missingValue name key}

/-- A template is found if it is the first one of its name. -/
theorem get_eq_ok_iff (s : TemplateSet) (name : String) (t : Template) :
    s.get name = .ok t ↔ (s.templates.find? fun t => t.name = name) = some t := by
  rw [get]
  split
  · next t' hfind => rw [hfind, Except.ok.injEq, Option.some.injEq]
  · next hfind => simp [hfind]

/-- A template that is found has the name by which it is found. -/
theorem name_of_get {s : TemplateSet} {name : String} {t : Template} (h : s.get name = .ok t) :
    t.name = name :=
  of_decide_eq_true (List.find?_some ((s.get_eq_ok_iff name t).1 h) :)

/-- A key has no value exactly if none is given for it. -/
theorem lookup_isNone_iff (values : Values) (key : String) :
    (values.lookup key).isNone = true ↔ key ∉ values.map Prod.fst := by
  rw [Option.isNone_iff_eq_none, List.lookup_eq_none_iff, List.mem_map, not_exists]
  refine forall_congr' fun entry => ?_
  rw [bne_iff_ne, not_and, ne_comm]

/-- Rendering a template that there is fails exactly if a value is missing, and reports the name of the
template and the key. -/
theorem failsWith_render {s : TemplateSet} {name : String} {t : Template}
    (hget : s.get name = .ok t) (values : Values) :
    FailsWith (s.missing name (values.map Prod.fst)) (s.render name values) := by
  have hrender : s.render name values =
      (Template.fillPieces name values (Template.pieces t.text.toList)).map String.ofList := by
    rw [render, hget, ← name_of_get hget, ← Template.renderText_eq_fillPieces]
    rfl
  rw [hrender, Template.fillPieces]
  split
  · next hfind =>
    rw [List.find?_eq_none] at hfind
    refine Set.eq_empty_iff_forall_notMem.2 fun err herr => ?_
    obtain ⟨key, ⟨t', hget', hkey, hgiven⟩, -⟩ := herr
    obtain rfl := Except.ok.inj (hget.symm.trans hget')
    exact hfind key ((t.mentions_iff key).1 hkey) ((lookup_isNone_iff values key).2 hgiven)
  · next key hfind =>
    have hkey := (t.mentions_iff key).2 (List.mem_of_find?_eq_some hfind)
    exact ⟨key, ⟨t, hget, hkey, (lookup_isNone_iff values key).1 (List.find?_some hfind :)⟩, rfl⟩

/-! ## Sets that were made from the built-in one -/

/-- There is a template of each built-in name. -/
def IsComplete (s : TemplateSet) : Prop :=
  ∀ name ∈ Template.builtin.map Template.name, ∃ t, s.get name = .ok t

/-- The built-in set is complete. -/
theorem isComplete_builtin : IsComplete {} := by
  intro name hname
  obtain ⟨t, ht, rfl⟩ := List.mem_map.1 hname
  have hsome : (Template.builtin.find? fun t' => t'.name = t.name).isSome = true :=
    List.find?_isSome.2 ⟨t, ht, decide_eq_true rfl⟩
  obtain ⟨t', hfind⟩ := Option.isSome_iff_exists.1 hsome
  exact ⟨t', (get_eq_ok_iff _ _ _).2 hfind⟩

/-- The template that is put in counts for its own name and for no other. -/
theorem get_insert (s : TemplateSet) (t : Template) (name : String) :
    (s.insert t).get name = if t.name = name then .ok t else s.get name := by
  rw [get, insert]
  by_cases h : t.name = name
  · rw [List.find?_cons_of_pos (by simpa using h), if_pos h]
  · rw [List.find?_cons_of_neg (by simpa using h), if_neg h]
    rfl

/-- A complete set stays complete when a template is put into it. -/
theorem IsComplete.insert {s : TemplateSet} (hs : s.IsComplete) (t : Template) :
    (s.insert t).IsComplete := by
  intro name hname
  rw [get_insert]
  split
  · exact ⟨t, rfl⟩
  · exact hs name hname

/-- Whatever templates are put into the built-in set, it stays complete. -/
theorem isComplete_foldl_insert (ts : List Template) : IsComplete (ts.foldl insert {}) :=
  List.foldlRecOn ts insert isComplete_builtin fun _ hs t _ => hs.insert t

end TemplateSet

end Registrar
