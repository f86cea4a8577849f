/-
# The statements of the generated file

A property is written by one statement and read by another one.  A line is such a statement for one
kind and one name at most, whatever characters the name has, so the statements among some lines can be
read back.
-/
import Registrar.Proofs.Emission.Reading

namespace Registrar

open Text

/-! ## Texts with a name in them twice -/

/-- A text that names something twice: once between a beginning and a middle, and once between the
middle and an end. -/
def twice (start middle close name : String) : String :=
  start ++ name ++ middle ++ name ++ close

/-- Texts that name something twice are different for different names. -/
theorem twice_injective (start middle close : String) :
    Function.Injective (twice start middle close) := by
  intro name name' h
  simp only [twice, String.append_assoc, String.append_right_inj] at h
  have hlist := congrArg String.toList h
  simp only [String.toList_append] at hlist
  have hlength := congrArg List.length hlist
  simp only [List.length_append] at hlength
  exact String.toList_injective (List.append_inj_left hlist (by omega))

/-- A character occurs in the names an even number of times. -/
theorem count_twice (c : Char) (start middle close name : String) :
    (twice start middle close name).toList.count c % 2 =
      (start ++ middle ++ close).toList.count c % 2 := by
  simp only [twice, String.toList_append, List.count_append]
  omega

/-- Texts whose beginnings clash are different. -/
theorem append_ne_append_of_clash {s t : String} (h : Chars.clash s.toList t.toList = true)
    (x y : String) : s ++ x ≠ t ++ y :=
  (ne_of_startsWith (startsWith_append t y) (startsWith_append_of_clash h x)).symm

/-! ## Statements -/

/-- A statement that writes or reads a property. -/
inductive Statement where
  | write (kind : PropertyKind) (name : String)
  | read (kind : PropertyKind) (name : String) (isRequired : Bool)
  deriving DecidableEq, Repr

namespace PropertyKind

/-- The functions that write properties of different kinds clash. -/
theorem clash_encoder {k k' : PropertyKind} (h : k ≠ k') :
    Chars.clash k.encoder.toList k'.encoder.toList = true := by
  cases k <;> cases k' <;> first | exact absurd rfl h | decide

theorem clash_decoder {k k' : PropertyKind} (h : k ≠ k') :
    Chars.clash k.decoder.toList k'.decoder.toList = true := by
  cases k <;> cases k' <;> first | exact absurd rfl h | decide

end PropertyKind

namespace Statement

/-- How a statement is spelled. -/
def text : Statement → String
  | write kind name =>
    twice ("            encoder << hect::" ++ kind.encoder ++ "(\"") "\", typedValue." ");" name
  | read kind name isRequired =>
    twice ("            decoder >> hect::" ++ kind.decoder ++ "(\"") "\", typedValue."
      (", " ++ (if isRequired then "true" else "false") ++ ");") name

/-- The kind can be told from a statement that writes. -/
theorem kind_eq_of_write {k k' : PropertyKind} {n n' : String}
    (h : (write k n).text = (write k' n').text) : k = k' := by
  by_contra hne
  simp only [text, twice, String.append_assoc, String.append_right_inj] at h
  exact append_ne_append_of_clash (PropertyKind.clash_encoder hne) _ _ h

theorem kind_eq_of_read {k k' : PropertyKind} {n n' : String} {r r' : Bool}
    (h : (read k n r).text = (read k' n' r').text) : k = k' := by
  by_contra hne
  simp only [text, twice, String.append_assoc, String.append_right_inj] at h
  exact append_ne_append_of_clash (PropertyKind.clash_decoder hne) _ _ h

/-- Only one of the two words has a `t` in it, and the names have an even number of them. -/
theorem isRequired_eq_of_read {k : PropertyKind} {n n' : String} {r r' : Bool}
    (h : (read k n r).text = (read k n' r').text) : r = r' := by
  have hword : ∀ b : Bool, (if b then "true" else "false").toList.count 't' = b.toNat := by decide
  have hcount := congrArg (fun s => s.toList.count 't' % 2) h
  simp only [text, count_twice, String.toList_append, List.count_append, hword] at hcount
  by_contra hne
  have hone : r.toNat + r'.toNat = 1 := by
    revert hne
    cases r <;> cases r' <;> decide
  omega

/-- A statement that writes is spelled unlike any that reads. -/
theorem write_text_ne_read_text (k k' : PropertyKind) (n n' : String) (r : Bool) :
    (write k n).text ≠ (read k' n' r).text := by
  simp only [text, twice, String.append_assoc]
  exact append_ne_append_of_clash (by decide +kernel) _ _

/-- A statement is spelled like no other one. -/
theorem text_injective : Function.Injective text := by
  intro s s' h
  cases s with
  | write k n =>
    cases s' with
    | write k' n' =>
      obtain rfl := kind_eq_of_write h
      rw [twice_injective _ _ _ h]
    | read k' n' r' => exact absurd h (write_text_ne_read_text k k' n n' r')
  | read k n r =>
    cases s' with
    | write k' n' => exact absurd h.symm (write_text_ne_read_text k' k n' n r)
    | read k' n' r' =>
      obtain rfl := kind_eq_of_read h
      obtain rfl := isRequired_eq_of_read h
      rw [twice_injective _ _ _ h]

/-- Every statement is indented so far. -/
theorem startsWith_text (s : Statement) : startsWith s.text "            " = true := by
  have hencoder : "            encoder << hect::" = "            " ++ "encoder << hect::" := rfl
  have hdecoder : "            decoder >> hect::" = "            " ++ "decoder >> hect::" := rfl
  cases s with
  | write k n =>
    simp only [text, twice, hencoder, String.append_assoc]
    exact startsWith_append _ _
  | read k n r =>
    simp only [text, twice, hdecoder, String.append_assoc]
    exact startsWith_append _ _

/-- The characters `<` of a statement come in pairs. -/
theorem count_text (s : Statement) : s.text.toList.count '<' % 2 = 0 := by
  have hmiddle : "\", typedValue.".toList.count '<' = 0 := by decide
  cases s with
  | write k n =>
    have hstart : "            encoder << hect::".toList.count '<' = 2 := by decide +kernel
    have hkind : k.encoder.toList.count '<' = 0 := by cases k <;> decide
    simp only [text, count_twice, String.toList_append, List.count_append, hstart, hkind, hmiddle]
    decide
  | read k n r =>
    have hstart : "            decoder >> hect::".toList.count '<' = 0 := by decide +kernel
    have hkind : k.decoder.toList.count '<' = 0 := by cases k <;> decide
    have hword : (if r then "true" else "false").toList.count '<' = 0 := by cases r <;> decide
    simp only [text, count_twice, String.toList_append, List.count_append, hstart, hkind, hmiddle,
      hword]
    decide

end Statement

/-! ## The statements among some lines -/

/-- The statements that some lines hold, in order; the other lines are passed over. -/
inductive Holds : List String → List Statement → Prop where
  | nil : Holds [] []
  | statement (s : Statement) {ls : List String} {ss : List Statement} (h : Holds ls ss) :
      Holds (s.text :: ls) (s :: ss)
  | other {l : String} (hno : ∀ s : Statement, l ≠ s.text) {ls : List String}
      {ss : List Statement} (h : Holds ls ss) : Holds (l :: ls) ss

namespace Holds

variable {ls ls' : List String} {ss ss' : List Statement}

/-- The statements are read off the lines in one way only. -/
theorem unique (h : Holds ls ss) (h' : Holds ls ss') : ss = ss' := by
  induction h generalizing ss' with
  | nil =>
    cases h'
    rfl
  | statement s _ ih =>
    -- the line has to be a variable for the cases on the other reading
    generalize htext : s.text = l at h'
    cases h' with
    | statement s' h' =>
      obtain rfl := Statement.text_injective htext
      rw [ih h']
    | other hno => exact absurd htext.symm (hno s)
  | other hno _ ih =>
    cases h' with
    | statement s' _ => exact absurd rfl (hno s')
    | other _ h' => exact ih h'

/-- Some lines hold no other statements than those that they hold. -/
theorem iff_eq (h : Holds ls ss) (ts : List Statement) : Holds ls ts ↔ ts = ss := by
  constructor
  · exact fun ht => ht.unique h
  · rintro rfl
    exact h

/-- Two lists of lines hold the statements of both. -/
theorem append (h : Holds ls ss) (h' : Holds ls' ss') : Holds (ls ++ ls') (ss ++ ss') := by
  induction h with
  | nil => exact h'
  | statement s _ ih => exact .statement s ih
  | other hno _ ih => exact .other hno ih

/-- Statements that are spelled one after the other are held. -/
theorem map_text (ss : List Statement) : Holds (ss.map Statement.text) ss := by
  induction ss with
  | nil => exact .nil
  | cons s ss ih => exact .statement s ih

end Holds

end Registrar
