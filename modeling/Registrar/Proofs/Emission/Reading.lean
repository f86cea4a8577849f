/-
# Reading the generated file

The lines of a generated file can be told apart by how they begin, whatever the names in them are.  So
a reader finds what is registered: the calls for the roles, the section of the enums, and the section
of the classes.
-/
import Registrar.Proofs.Emission.File

namespace Registrar

open Text

/-! ## How lines begin -/

namespace Chars

/-- Two texts that differ before either of them ends. -/
def clash : List Char → List Char → Bool
  | a :: as, b :: bs => a ≠ b || clash as bs
  | _, _ => false

/-- A text does not begin like one with which it clashes. -/
theorem isPrefixOf_append_of_clash {as bs : List Char} (h : clash as bs = true)
    (rest : List Char) : bs.isPrefixOf (as ++ rest) = false := by
  induction as generalizing bs with
  | nil => simp [clash] at h
  | cons a as ih =>
    cases bs with
    | nil => simp [clash] at h
    | cons b bs =>
      rw [clash, Bool.or_eq_true, decide_eq_true_eq] at h
      rw [List.cons_append, List.isPrefixOf]
      rcases h with h | h
      · simp [Ne.symm h]
      · simp [ih h]

end Chars

namespace Text

/-- A text does not begin like one with which its beginning clashes. -/
theorem startsWith_append_of_clash {s start : String}
    (h : Chars.clash s.toList start.toList = true) (rest : String) :
    startsWith (s ++ rest) start = false := by
  rw [startsWith, String.toList_append]
  exact Chars.isPrefixOf_append_of_clash h rest.toList

theorem startsWith_append (start rest : String) : startsWith (start ++ rest) start = true := by
  rw [startsWith, String.toList_append, List.isPrefixOf_iff_prefix]
  exact List.prefix_append _ _

theorem startsWith_self (s : String) : startsWith s s = true :=
  List.isPrefixOf_iff_prefix.2 List.prefix_rfl

/-- A line that begins in one way does not begin in another one. -/
theorem startsWith_eq_false_of_clash {l s t : String} (hl : startsWith l s = true)
    (h : Chars.clash s.toList t.toList = true) : startsWith l t = false := by
  rw [startsWith, List.isPrefixOf_iff_prefix] at hl
  obtain ⟨rest, hrest⟩ := hl
  rw [startsWith, ← hrest]
  exact Chars.isPrefixOf_append_of_clash h rest

/-- Lines of which one begins like a text and the other does not are different. -/
theorem ne_of_startsWith {l l' s : String} (hl : startsWith l s = true)
    (hl' : startsWith l' s = false) : l ≠ l' := by
  rintro rfl
  exact Bool.false_ne_true (hl'.symm.trans hl)

end Text

/-- The beginnings by which the parts of a generated file are told apart: of the directive for a
header, of the heading of a section, and of the call for a role. -/
def landmarks : List String :=
  ["#include \"", "    // ", "    hect::"]

/-- A line that begins like none of them. -/
def IsInner (l : String) : Prop :=
  ∀ start ∈ landmarks, startsWith l start = false

instance : DecidablePred IsInner := fun l =>
  inferInstanceAs (Decidable (∀ start ∈ landmarks, startsWith l start = false))

/-- A line that differs from the landmarks is none of them, however it goes on. -/
theorem isInner_append {s : String}
    (h : (landmarks.all fun start => Chars.clash s.toList start.toList) = true) (rest : String) :
    IsInner (s ++ rest) := by
  intro start hstart
  exact startsWith_append_of_clash (List.all_eq_true.1 h start hstart) rest

/-- A line that begins like no landmark does not begin like a text that does. -/
theorem IsInner.startsWith_eq_false {l s : String} (hl : IsInner l)
    (hs : (landmarks.any fun start => startsWith s start) = true) : startsWith l s = false := by
  rw [List.any_eq_true] at hs
  obtain ⟨start, hstart, hprefix⟩ := hs
  rw [Bool.eq_false_iff]
  intro hls
  have htrans : startsWith l start = true := by
    rw [startsWith, List.isPrefixOf_iff_prefix] at hprefix hls ⊢
    exact hprefix.trans hls
  rw [hl start hstart] at htrans
  exact Bool.false_ne_true htrans

namespace EnumType

theorem isInner_blockLines (t : EnumType) : ∀ l ∈ t.blockLines, IsInner l := by
  refine forall_mem_blockLines (by decide +kernel) ?_ fun value _ => ?_
  · unfold typeLine
    simp only [String.append_assoc]
    exact isInner_append (by decide +kernel) _
  · unfold valueLine
    simp only [String.append_assoc]
    exact isInner_append (by decide +kernel) _

end EnumType

namespace ClassType

theorem isInner_encodeLines (c : ClassType) : ∀ l ∈ c.encodeLines, IsInner l := by
  refine forall_mem_framed ?_ (fun p _ => ?_) (by decide +kernel)
  · rw [encodeHead, List.forall_mem_cons, List.forall_mem_cons, List.forall_mem_singleton]
    refine ⟨by decide +kernel, by decide +kernel, ?_⟩
    simp only [String.append_assoc]
    exact isInner_append (by decide +kernel) _
  · unfold Property.encodeLine
    simp only [String.append_assoc]
    exact isInner_append (by decide +kernel) _

theorem isInner_decodeLines (c : ClassType) : ∀ l ∈ c.decodeLines, IsInner l := by
  refine forall_mem_framed ?_ (fun p _ => ?_) (by decide +kernel)
  · rw [decodeHead, List.forall_mem_cons, List.forall_mem_cons, List.forall_mem_singleton]
    refine ⟨by decide +kernel, by decide +kernel, ?_⟩
    simp only [String.append_assoc]
    exact isInner_append (by decide +kernel) _
  · unfold Property.decodeLine
    simp only [String.append_assoc]
    exact isInner_append (by decide +kernel) _

theorem isInner_blockLines (c : ClassType) : ∀ l ∈ c.blockLines, IsInner l := by
  refine forall_mem_blockLines (by decide +kernel) ?_ c.isInner_encodeLines c.isInner_decodeLines
  unfold typeLine
  simp only [String.append_assoc]
  exact isInner_append (by decide +kernel) _

end ClassType

/-! ## The lines of the file as they are read -/

/-- The lines between the first line of one text and the next line of another one. -/
def between (start stop : String) (ls : List String) : List String :=
  ((ls.dropWhile (· ≠ start)).drop 1).takeWhile (· ≠ stop)

/-- What stands between two lines is found there if none of them comes earlier. -/
theorem between_append {start stop : String} {xs ys zs : List String} (hxs : start ∉ xs)
    (hys : stop ∉ ys) : between start stop (xs ++ [start] ++ ys ++ [stop] ++ zs) = ys := by
  have hskip : ∀ x ∈ xs, decide (x ≠ start) = true := by
    intro x hx
    exact decide_eq_true fun h => hxs (h ▸ hx)
  have hkeep : ∀ y ∈ ys, decide (y ≠ stop) = true := by
    intro y hy
    exact decide_eq_true fun h => hys (h ▸ hy)
  rw [between, List.append_assoc, List.append_assoc, List.append_assoc, List.singleton_append,
    List.dropWhile_append_of_pos hskip, List.dropWhile_cons_of_neg (by simp), List.drop_succ_cons,
    List.drop_zero, List.singleton_append, List.takeWhile_append_of_pos hkeep,
    List.takeWhile_cons_of_neg (by simp), List.append_nil]

/-- Lines that are read as they are written stay as they are. -/
theorem map_dropReturn_eq {ls : List String} (hls : ∀ l ∈ ls, dropReturn l = l) :
    ls.map dropReturn = ls :=
  (List.map_congr_left hls).trans (List.map_id ls)

/-- What holds of an empty line and of some lines holds of the lines in their place. -/
theorem forall_mem_slot {P : String → Prop} (hempty : P "") {ls : List String}
    (hls : ∀ l ∈ ls, P l) : ∀ l ∈ slot ls, P l := by
  unfold slot
  split
  · rw [List.forall_mem_singleton]
    exact hempty
  · exact hls

/-- A carriage return at its end is not part of the line of a namespace, and nothing else is lost. -/
theorem isInner_dropReturn_namespace (name : String) :
    IsInner (dropReturn ("namespace " ++ name)) := by
  have hrest : ∃ rest, dropReturn ("namespace " ++ name) = "namespace" ++ rest := by
    have hsplit : ("namespace " ++ name).toList = "namespace".toList ++ ' ' :: name.toList := by
      rw [String.toList_append]
      rfl
    rw [dropReturn, Chars.dropReturn, hsplit]
    split
    · refine ⟨String.ofList (' ' :: name.toList).dropLast, ?_⟩
      rw [List.dropLast_append_of_ne_nil (by simp), String.ofList_append, String.ofList_toList]
    · refine ⟨String.ofList (' ' :: name.toList), ?_⟩
      rw [String.ofList_append, String.ofList_toList]
  obtain ⟨rest, hrest⟩ := hrest
  rw [hrest]
  exact isInner_append (by decide +kernel) rest

end Registrar
