/-
# The sections of the generated file

Without its empty lines, the text of a section is the lines of its blocks, one block after the other.
No name can make an empty line, and if the names are lines, then none can make another line.
-/
import Registrar.Proofs.Emission.Block

namespace Registrar

open Text

/-! ## Lines in a place of their own -/

/-- The lines in the place of some lines are these, apart from empty ones. -/
theorem filter_slot (ls : List String) :
    (slot ls).filter (· ≠ "") = ls.filter (· ≠ "") := by
  unfold slot
  split
  · next h =>
    rw [h]
    rfl
  · rfl

/-- Blocks that are joined are the lines of all of them, without the empty ones. -/
theorem removeBlankLines_blocks {α : Type} {written block : α → List String} {as : List α}
    (hne : ∀ a, written a ≠ []) (hblock : ∀ a, (written a).filter (· ≠ "") = block a)
    (hline : ∀ a ∈ as, ∀ l ∈ block a, IsLine l) (hends : ∀ a, ∀ l ∈ block a, EndsVisibly l) :
    removeBlankLines (joinLines (as.map fun a => joinLines (written a))) =
      joinLines (as.flatMap block) := by
  have hslot : ∀ a, slot (written a) = written a := fun a => if_neg (hne a)
  have hjoin := joinLines_map_joinLines (as.map written)
  rw [List.map_map, List.flatMap_map] at hjoin
  simp only [Function.comp_def, hslot] at hjoin
  -- only empty lines are written in excess of a block
  have hall : ∀ l ∈ as.flatMap written, IsLine l ∧ dropReturn l = l := by
    intro l hl
    obtain ⟨a, ha, hla⟩ := List.mem_flatMap.1 hl
    by_cases hempty : l = ""
    · rw [hempty]
      exact ⟨by decide, rfl⟩
    · have hmem : l ∈ block a := by
        rw [← hblock, List.mem_filter]
        exact ⟨hla, decide_eq_true hempty⟩
      exact ⟨hline a ha l hmem, (hends a l hmem).dropReturn_eq⟩
  rw [hjoin, removeBlankLines_joinLines hall, List.filter_flatMap]
  exact congrArg (fun f => joinLines (as.flatMap f)) (funext hblock)

/-! ## The lines of a block -/

namespace EnumType

theorem endsVisibly_blockLines (t : EnumType) : ∀ l ∈ t.blockLines, EndsVisibly l :=
  forall_mem_blockLines (by decide) (EndsVisibly.append_left (by decide) _) fun _ _ =>
    EndsVisibly.append_left (by decide) _

theorem isLine_blockLines {t : EnumType} (ht : t.HasLineNames) :
    ∀ l ∈ t.blockLines, IsLine l := by
  refine forall_mem_blockLines (by decide) ?_ fun value hvalue => ?_
  · exact ((((by decide : IsLine _).append ht.1).append (by decide)).append
      (isLine_simple ht.1)).append (by decide)
  · have hv := ht.2 value hvalue
    exact ((((by decide : IsLine _).append (isLine_qualifiedValue ht.1 hv)).append
      (by decide)).append (isLine_registeredValue hv)).append (by decide)

theorem writtenLines_ne_nil (t : EnumType) : t.writtenLines ≠ [] := by
  simp [writtenLines]

/-- What is written for an enum is its block, apart from empty lines. -/
theorem filter_writtenLines (t : EnumType) : t.writtenLines.filter (· ≠ "") = t.blockLines := by
  have hall : t.blockLines.filter (· ≠ "") = t.blockLines := by
    rw [List.filter_eq_self]
    intro l hl
    exact decide_eq_true (t.endsVisibly_blockLines l hl).ne_empty
  rw [blockLines, List.filter_append, List.filter_append] at hall
  rw [writtenLines, List.filter_append, List.filter_append, filter_slot]
  exact hall

end EnumType

namespace Property

theorem isLine_encodeLine {p : Property} (hp : IsLine p.name) : IsLine p.encodeLine := by
  have hkind : IsLine p.kind.encoder := by
    cases p.kind <;> decide
  exact ((((((by decide : IsLine _).append hkind).append (by decide)).append hp).append
    (by decide)).append hp).append (by decide)

theorem isLine_decodeLine {p : Property} (hp : IsLine p.name) : IsLine p.decodeLine := by
  have hkind : IsLine p.kind.decoder := by
    cases p.kind <;> decide
  have hrequired : IsLine (if p.isRequired then "true" else "false") := by
    cases p.isRequired <;> decide
  exact ((((((((by decide : IsLine _).append hkind).append (by decide)).append hp).append
    (by decide)).append hp).append (by decide)).append hrequired).append (by decide)

end Property

namespace ClassType

theorem endsVisibly_encodeLines (c : ClassType) : ∀ l ∈ c.encodeLines, EndsVisibly l := by
  refine forall_mem_framed ?_ (fun p _ => EndsVisibly.append_left (by decide) _) (by decide)
  rw [encodeHead, List.forall_mem_cons, List.forall_mem_cons, List.forall_mem_singleton]
  exact ⟨by decide, by decide, EndsVisibly.append_left (by decide) _⟩

theorem endsVisibly_decodeLines (c : ClassType) : ∀ l ∈ c.decodeLines, EndsVisibly l := by
  refine forall_mem_framed ?_ (fun p _ => EndsVisibly.append_left (by decide) _) (by decide)
  rw [decodeHead, List.forall_mem_cons, List.forall_mem_cons, List.forall_mem_singleton]
  exact ⟨by decide, by decide, EndsVisibly.append_left (by decide) _⟩

theorem isLine_encodeLines {c : ClassType} (hc : c.HasLineNames) :
    ∀ l ∈ c.encodeLines, IsLine l := by
  refine forall_mem_framed ?_ (fun p hp => Property.isLine_encodeLine (hc.2 p hp)) (by decide)
  rw [encodeHead, List.forall_mem_cons, List.forall_mem_cons, List.forall_mem_singleton]
  refine ⟨by decide, by decide, ?_⟩
  exact ((((by decide : IsLine _).append hc.1).append (by decide)).append hc.1).append
    (by decide)

theorem isLine_decodeLines {c : ClassType} (hc : c.HasLineNames) :
    ∀ l ∈ c.decodeLines, IsLine l := by
  refine forall_mem_framed ?_ (fun p hp => Property.isLine_decodeLine (hc.2 p hp)) (by decide)
  rw [decodeHead, List.forall_mem_cons, List.forall_mem_cons, List.forall_mem_singleton]
  refine ⟨by decide, by decide, ?_⟩
  exact ((((by decide : IsLine _).append hc.1).append (by decide)).append hc.1).append
    (by decide)

theorem endsVisibly_blockLines (c : ClassType) : ∀ l ∈ c.blockLines, EndsVisibly l :=
  forall_mem_blockLines (by decide) (EndsVisibly.append_left (by decide) _)
    c.endsVisibly_encodeLines c.endsVisibly_decodeLines

theorem isLine_blockLines {c : ClassType} (hc : c.HasLineNames) :
    ∀ l ∈ c.blockLines, IsLine l := by
  refine forall_mem_blockLines (by decide) ?_ (isLine_encodeLines hc) (isLine_decodeLines hc)
  exact ((((by decide : IsLine _).append hc.1).append (by decide)).append
    (isLine_simple hc.1)).append (by decide)

theorem writtenLines_ne_nil (c : ClassType) : c.writtenLines ≠ [] := by
  simp [writtenLines]

/-- Put together, the functions of a class leave no more than two empty lines. -/
theorem filter_functionLines (c : ClassType) :
    (slot (if Emitter.hasFunctions c then c.encodeLines else []) ++
        slot (if Emitter.hasFunctions c then c.decodeLines else [])).filter (· ≠ "") =
      (if Emitter.hasFunctions c then c.encodeLines ++ c.decodeLines else []).filter (· ≠ "") := by
  rw [List.filter_append, filter_slot, filter_slot, ← List.filter_append]
  split <;> rfl

/-- What is written for a class is its block, apart from empty lines. -/
theorem filter_writtenLines (c : ClassType) : c.writtenLines.filter (· ≠ "") = c.blockLines := by
  have hall : c.blockLines.filter (· ≠ "") = c.blockLines := by
    rw [List.filter_eq_self]
    intro l hl
    exact decide_eq_true (c.endsVisibly_blockLines l hl).ne_empty
  rw [blockLines, List.filter_append, List.filter_append, ← filter_functionLines] at hall
  rw [writtenLines, List.append_assoc [r"{", c.typeLine], List.filter_append,
    List.filter_append]
  exact hall

end ClassType

/-! ## The sections -/

/-- The section of some enums. -/
theorem removeBlankLines_enums {ts : List EnumType} (hts : ∀ t ∈ ts, t.HasLineNames) :
    removeBlankLines (joinLines (ts.map fun t => joinLines t.writtenLines)) =
      joinLines (ts.flatMap EnumType.blockLines) :=
  removeBlankLines_blocks EnumType.writtenLines_ne_nil EnumType.filter_writtenLines
    (fun t ht => EnumType.isLine_blockLines (hts t ht)) EnumType.endsVisibly_blockLines

/-- The section of some classes. -/
theorem removeBlankLines_classes {cs : List ClassType} (hcs : ∀ c ∈ cs, c.HasLineNames) :
    removeBlankLines (joinLines (cs.map fun c => joinLines c.writtenLines)) =
      joinLines (cs.flatMap ClassType.blockLines) :=
  removeBlankLines_blocks ClassType.writtenLines_ne_nil ClassType.filter_writtenLines
    (fun c hc => ClassType.isLine_blockLines (hcs c hc)) ClassType.endsVisibly_blockLines

end Registrar
