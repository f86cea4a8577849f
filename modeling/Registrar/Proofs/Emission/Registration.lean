/-
# What the generated file registers

The generated file has one call for every planned component, system and scene, one block for every
planned enum and class, and one directive for every spelling of a header, each in order.  No name in
the model can add such a line, take one away, or change another one.
-/
import Registrar.Proofs.Emission.Reading

namespace Registrar

open Text

/-! ## Parts that can be read back -/

namespace FileParts

/-- The calls for a role. -/
def calls (f : FileParts) : Role → List String
  | .system => f.systems
  | .scene => f.scenes
  | _ => f.components

/-- Parts of which every line is a line of its kind. -/
structure IsProper (f : FileParts) : Prop where
  includes : ∃ names : List String,
    f.includes = names.map includeLine ∧ ∀ name ∈ names, IsLine name
  outerNamespace : IsLine f.outerNamespace
  enums : ∀ l ∈ f.enums, IsLine l ∧ EndsVisibly l ∧ IsInner l
  classes : ∀ l ∈ f.classes, IsLine l ∧ EndsVisibly l ∧ IsInner l
  calls : ∀ role, ∃ names : List String,
    f.calls role = names.map role.callLine ∧ ∀ name ∈ names, IsLine name

/-- A line that is read as it is written. -/
def IsRead (l : String) : Prop :=
  IsLine l ∧ dropReturn l = l

instance : DecidablePred IsRead := fun l =>
  inferInstanceAs (Decidable (IsLine l ∧ dropReturn l = l))

/-- A line with something visible at its end is read as it is written. -/
theorem isRead_of_endsVisibly {l : String} (hline : IsLine l) (hends : EndsVisibly l) : IsRead l :=
  ⟨hline, hends.dropReturn_eq⟩

section

variable {f : FileParts}

/-- The lines that include the headers are read as they are written. -/
theorem IsProper.isRead_includes (hf : f.IsProper) : ∀ l ∈ f.includes, IsRead l := by
  obtain ⟨names, hnames, hline⟩ := hf.includes
  rw [hnames, List.forall_mem_map]
  intro name hname
  refine isRead_of_endsVisibly ?_ (EndsVisibly.append_left (by decide) _)
  exact ((by decide : IsLine _).append (hline name hname)).append (by decide)

/-- The calls for a role are read as they are written. -/
theorem IsProper.isRead_calls (hf : f.IsProper) (role : Role) : ∀ l ∈ f.calls role, IsRead l := by
  obtain ⟨names, hnames, hline⟩ := hf.calls role
  have hstart : IsLine role.callStart := by
    cases role <;> decide +kernel
  rw [hnames, List.forall_mem_map]
  intro name hname
  refine isRead_of_endsVisibly ?_ (EndsVisibly.append_left (by decide) _)
  exact (hstart.append (hline name hname)).append (by decide)

/-- Some lines, or the empty line in their place, are read as they are written if the lines are. -/
theorem isRead_slot {ls : List String} (hls : ∀ l ∈ ls, IsRead l) : ∀ l ∈ slot ls, IsRead l :=
  forall_mem_slot (by decide) hls

/-- What stands above the namespace is read as it is written. -/
theorem IsProper.isRead_above (hf : f.IsProper) : ∀ l ∈ f.above, IsRead l := by
  rw [above, List.forall_mem_append, List.forall_mem_append]
  exact ⟨⟨by decide +kernel, isRead_slot hf.isRead_includes⟩, by decide⟩

/-- The lines with the calls are read as they are written. -/
theorem IsProper.isRead_callLines (hf : f.IsProper) : ∀ l ∈ f.callLines, IsRead l := by
  rw [callLines, List.forall_mem_append, List.forall_mem_append, List.forall_mem_append,
    List.forall_mem_append]
  exact ⟨⟨⟨⟨isRead_slot (hf.isRead_calls .component), by decide +kernel⟩,
    isRead_slot (hf.isRead_calls .system)⟩, by decide +kernel⟩,
    isRead_slot (hf.isRead_calls .scene)⟩

/-- What stands below the line of the namespace is read as it is written. -/
theorem IsProper.isRead_below (hf : f.IsProper) : ∀ l ∈ f.below, IsRead l := by
  have henums : ∀ l ∈ f.enums, IsRead l := fun l hl =>
    isRead_of_endsVisibly (hf.enums l hl).1 (hf.enums l hl).2.1
  have hclasses : ∀ l ∈ f.classes, IsRead l := fun l hl =>
    isRead_of_endsVisibly (hf.classes l hl).1 (hf.classes l hl).2.1
  simp only [below, List.forall_mem_append]
  exact ⟨⟨⟨⟨⟨⟨by decide +kernel, by decide +kernel⟩, isRead_slot henums, by decide⟩,
    by decide +kernel⟩, isRead_slot hclasses, by decide⟩, by decide +kernel⟩,
    hf.isRead_callLines, by decide +kernel⟩

/-- The lines of the file as they are read: only the line of the namespace may lose a carriage return
at its end. -/
theorem IsProper.lines_eq (hf : f.IsProper) :
    Text.lines (joinLines (f.lines ++ [""])) =
      f.above ++ [dropReturn ("namespace " ++ f.outerNamespace)] ++ f.below := by
  have hline : ∀ l ∈ f.lines, IsLine l := by
    rw [lines, List.forall_mem_append, List.forall_mem_append, List.forall_mem_singleton]
    exact ⟨⟨fun l hl => (hf.isRead_above l hl).1, IsLine.append (by decide) hf.outerNamespace⟩,
      fun l hl => (hf.isRead_below l hl).1⟩
  rw [lines_joinLines hline, lines, List.map_append, List.map_append, List.map_singleton,
    map_dropReturn_eq fun l hl => (hf.isRead_above l hl).2,
    map_dropReturn_eq fun l hl => (hf.isRead_below l hl).2]

/-! ## What a reader finds -/

/-- No line begins like a text. -/
def Avoids (s : String) (ls : List String) : Prop :=
  ∀ l ∈ ls, startsWith l s = false

instance (s : String) (ls : List String) : Decidable (Avoids s ls) :=
  inferInstanceAs (Decidable (∀ l ∈ ls, startsWith l s = false))

/-- No line of two lists begins like a text if none of either does. -/
theorem avoids_append {s : String} {xs ys : List String} :
    Avoids s (xs ++ ys) ↔ Avoids s xs ∧ Avoids s ys :=
  List.forall_mem_append

/-- If no line begins like a text, then none is found by it. -/
theorem Avoids.filter_eq_nil {s : String} {ls : List String} (hls : Avoids s ls) :
    ls.filter (startsWith · s) = [] := by
  rw [List.filter_eq_nil_iff]
  intro l hl
  rw [hls l hl]
  exact Bool.false_ne_true

/-- If no line begins like a text, then the text is none of the lines. -/
theorem Avoids.notMem {s : String} {ls : List String} (hls : Avoids s ls) : s ∉ ls :=
  fun h => ne_of_startsWith (startsWith_self s) (hls s h) rfl

/-- A text that begins like a landmark, while no line does that is none. -/
def IsHeading (s : String) : Prop :=
  (landmarks.any fun start => startsWith s start) = true ∧
    Chars.clash "#include \"".toList s.toList = true ∧ startsWith "" s = false ∧ Avoids s top

instance : DecidablePred IsHeading := fun s =>
  inferInstanceAs (Decidable (_ ∧ _ ∧ _ ∧ Avoids s top))

/-- No line inside of a block begins like a heading. -/
theorem avoids_of_isInner {s : String} (hs : IsHeading s) {ls : List String}
    (hls : ∀ l ∈ ls, IsInner l) : Avoids s ls :=
  fun l hl => (hls l hl).startsWith_eq_false hs.1

/-- The empty line in the place of no lines does not begin like a heading either. -/
theorem Avoids.slot {s : String} (hs : IsHeading s) {ls : List String} (hls : Avoids s ls) :
    Avoids s (slot ls) :=
  forall_mem_slot hs.2.2.1 hls

/-- An empty line does not begin like a heading. -/
theorem avoids_blank {s : String} (hs : IsHeading s) : Avoids s [""] := by
  rw [Avoids, List.forall_mem_singleton]
  exact hs.2.2.1

/-- No line up to the one of the namespace begins like a heading. -/
theorem IsProper.avoids_above (hf : f.IsProper) {s : String} (hs : IsHeading s) :
    Avoids s (f.above ++ [dropReturn ("namespace " ++ f.outerNamespace)]) := by
  obtain ⟨names, hnames, -⟩ := hf.includes
  have hincludes : Avoids s f.includes := by
    rw [hnames, Avoids, List.forall_mem_map]
    intro name _
    rw [includeLine, String.append_assoc]
    exact startsWith_append_of_clash hs.2.1 _
  have hnamespace : Avoids s [dropReturn ("namespace " ++ f.outerNamespace)] := by
    refine avoids_of_isInner hs ?_
    rw [List.forall_mem_singleton]
    exact isInner_dropReturn_namespace f.outerNamespace
  rw [above, avoids_append, avoids_append, avoids_append]
  exact ⟨⟨⟨hs.2.2.2, hincludes.slot hs⟩, avoids_blank hs⟩, hnamespace⟩

/-- No line at the beginning of the namespace begins like a heading. -/
theorem avoids_opening {s : String} (hs : IsHeading s) : Avoids s opening :=
  avoids_of_isInner hs (by decide +kernel)

/-- No line of the enums begins like a heading. -/
theorem IsProper.avoids_enums (hf : f.IsProper) {s : String} (hs : IsHeading s) :
    Avoids s (Text.slot f.enums ++ [""]) := by
  rw [avoids_append]
  exact ⟨(avoids_of_isInner hs fun l hl => (hf.enums l hl).2.2).slot hs, avoids_blank hs⟩

/-- No line of the classes begins like a heading. -/
theorem IsProper.avoids_classes (hf : f.IsProper) {s : String} (hs : IsHeading s) :
    Avoids s (Text.slot f.classes ++ [""]) := by
  rw [avoids_append]
  exact ⟨(avoids_of_isInner hs fun l hl => (hf.classes l hl).2.2).slot hs, avoids_blank hs⟩

/-- The lines of the section of the enums. -/
theorem IsProper.between_enums (hf : f.IsProper) :
    between "    // Enums" "    // Classes" (Text.lines (joinLines (f.lines ++ [""]))) =
      Text.slot f.enums ++ [""] := by
  have hsplit : f.above ++ [dropReturn ("namespace " ++ f.outerNamespace)] ++ f.below =
      (f.above ++ [dropReturn ("namespace " ++ f.outerNamespace)] ++ opening) ++
        ["    // Enums"] ++ (Text.slot f.enums ++ [""]) ++ ["    // Classes"] ++
        ((Text.slot f.classes ++ [""]) ++ ["    // Components"] ++ (f.callLines ++ closing)) := by
    simp only [below, List.append_assoc]
  have hstart : IsHeading "    // Enums" := by decide +kernel
  rw [hf.lines_eq, hsplit]
  refine between_append (Avoids.notMem ?_) (hf.avoids_enums (by decide +kernel)).notMem
  rw [avoids_append]
  exact ⟨hf.avoids_above hstart, avoids_opening hstart⟩

/-- The lines of the section of the classes. -/
theorem IsProper.between_classes (hf : f.IsProper) :
    between "    // Classes" "    // Components" (Text.lines (joinLines (f.lines ++ [""]))) =
      Text.slot f.classes ++ [""] := by
  have hsplit : f.above ++ [dropReturn ("namespace " ++ f.outerNamespace)] ++ f.below =
      (f.above ++ [dropReturn ("namespace " ++ f.outerNamespace)] ++ opening ++
        ["    // Enums"] ++ (Text.slot f.enums ++ [""])) ++ ["    // Classes"] ++
        (Text.slot f.classes ++ [""]) ++ ["    // Components"] ++ (f.callLines ++ closing) := by
    simp only [below, List.append_assoc]
  have hstart : IsHeading "    // Classes" := by decide +kernel
  rw [hf.lines_eq, hsplit]
  refine between_append (Avoids.notMem ?_) (hf.avoids_classes (by decide +kernel)).notMem
  rw [avoids_append, avoids_append, avoids_append]
  exact ⟨⟨⟨hf.avoids_above hstart, avoids_opening hstart⟩, by decide +kernel⟩,
    hf.avoids_enums hstart⟩

/-- What the calls for a role begin with is a heading. -/
theorem isHeading_callStart (role : Role) : IsHeading role.callStart := by
  cases role <;> decide +kernel

/-- Lines that all begin like a text are found by it, and the empty line in the place of no lines is
not. -/
theorem filter_slot_of_startsWith {s : String} (hs : startsWith "" s = false) {ls : List String}
    (hls : ∀ l ∈ ls, startsWith l s = true) :
    (Text.slot ls).filter (startsWith · s) = ls := by
  unfold Text.slot
  split
  · next h => simp [h, hs]
  · rwa [List.filter_eq_self]

/-- The calls for a role are found by what they begin with. -/
theorem IsProper.filter_calls_self (hf : f.IsProper) (role : Role) :
    (Text.slot (f.calls role)).filter (startsWith · role.callStart) = f.calls role := by
  obtain ⟨names, hnames, -⟩ := hf.calls role
  refine filter_slot_of_startsWith (isHeading_callStart role).2.2.1 ?_
  rw [hnames, List.forall_mem_map]
  intro name _
  rw [Role.callLine, String.append_assoc]
  exact startsWith_append _ _

/-- The calls for a role do not begin like another text. -/
theorem IsProper.avoids_calls (hf : f.IsProper) {s : String} {role : Role}
    (hs : startsWith "" s = false)
    (hclash : Chars.clash role.callStart.toList s.toList = true) :
    Avoids s (Text.slot (f.calls role)) := by
  obtain ⟨names, hnames, -⟩ := hf.calls role
  refine forall_mem_slot hs ?_
  rw [hnames, List.forall_mem_map]
  intro name _
  rw [Role.callLine, String.append_assoc]
  exact startsWith_append_of_clash hclash _

/-- Among the calls those for one role stand together, in order. -/
theorem IsProper.filter_callLines (hf : f.IsProper) {role : Role} (hrole : role ≠ .none) :
    f.callLines.filter (startsWith · role.callStart) = f.calls role := by
  have hs := (isHeading_callStart role).2.2.1
  have hsystems : Avoids role.callStart ["", "    // Systems"] := by
    cases role <;> decide +kernel
  have hscenes : Avoids role.callStart ["", "    // Scenes"] := by
    cases role <;> decide +kernel
  -- the calls of two roles differ within the fixed part of the line, before any name
  have hother : ∀ role' : Role, Chars.clash role'.callStart.toList role.callStart.toList = true →
      (Text.slot (f.calls role')).filter (startsWith · role.callStart) = [] :=
    fun _ h => (hf.avoids_calls hs h).filter_eq_nil
  rw [callLines, List.filter_append, List.filter_append, List.filter_append, List.filter_append,
    hsystems.filter_eq_nil, hscenes.filter_eq_nil, List.append_nil, List.append_nil]
  cases role with
  | none => exact absurd rfl hrole
  | component =>
    have hself : (Text.slot f.components).filter _ = f.components :=
      hf.filter_calls_self .component
    have hsystem : (Text.slot f.systems).filter _ = [] := hother .system (by decide +kernel)
    have hscene : (Text.slot f.scenes).filter _ = [] := hother .scene (by decide +kernel)
    rw [hself, hsystem, hscene, List.append_nil, List.append_nil]
    rfl
  | system =>
    have hself : (Text.slot f.systems).filter _ = f.systems := hf.filter_calls_self .system
    have hcomponent : (Text.slot f.components).filter _ = [] :=
      hother .component (by decide +kernel)
    have hscene : (Text.slot f.scenes).filter _ = [] := hother .scene (by decide +kernel)
    rw [hself, hcomponent, hscene, List.nil_append, List.append_nil]
    rfl
  | scene =>
    have hself : (Text.slot f.scenes).filter _ = f.scenes := hf.filter_calls_self .scene
    have hcomponent : (Text.slot f.components).filter _ = [] :=
      hother .component (by decide +kernel)
    have hsystem : (Text.slot f.systems).filter _ = [] := hother .system (by decide +kernel)
    rw [hself, hcomponent, hsystem, List.nil_append, List.nil_append]
    rfl

/-- The lines that call for a role are the calls for it, in order. -/
theorem IsProper.filter_calls (hf : f.IsProper) {role : Role} (hrole : role ≠ .none) :
    (Text.lines (joinLines (f.lines ++ [""]))).filter (startsWith · role.callStart) =
      f.calls role := by
  have hstart := isHeading_callStart role
  have henums : Avoids role.callStart ["    // Enums"] := by
    cases role <;> decide +kernel
  have hclasses : Avoids role.callStart ["    // Classes"] := by
    cases role <;> decide +kernel
  have hcomponents : Avoids role.callStart ["    // Components"] := by
    cases role <;> decide +kernel
  have hclosing : Avoids role.callStart closing := avoids_of_isInner hstart (by decide +kernel)
  have hbefore : Avoids role.callStart (opening ++ ["    // Enums"] ++ (Text.slot f.enums ++ [""]) ++
      ["    // Classes"] ++ (Text.slot f.classes ++ [""]) ++ ["    // Components"]) := by
    simp only [avoids_append]
    exact ⟨⟨⟨⟨⟨avoids_opening hstart, henums⟩, avoids_append.1 (hf.avoids_enums hstart)⟩, hclasses⟩,
      avoids_append.1 (hf.avoids_classes hstart)⟩, hcomponents⟩
  rw [hf.lines_eq, below, List.filter_append, (hf.avoids_above hstart).filter_eq_nil,
    List.filter_append, hbefore.filter_eq_nil, List.filter_append, hclosing.filter_eq_nil,
    hf.filter_callLines hrole, List.nil_append, List.nil_append, List.append_nil]

/-- The lines that include a header by its spelling are the directives, in order. -/
theorem IsProper.filter_includes (hf : f.IsProper) :
    (Text.lines (joinLines (f.lines ++ [""]))).filter (startsWith · "#include \"") =
      f.includes := by
  obtain ⟨names, hnames, -⟩ := hf.includes
  have hempty : startsWith "" "#include \"" = false := by decide
  have hinner : ∀ ls : List String, (∀ l ∈ ls, IsInner l) → Avoids "#include \"" ls :=
    fun ls hls l hl => hls l hl _ List.mem_cons_self
  -- the includes are all that the filter keeps: no line of any other part begins like one
  have hself : (Text.slot f.includes).filter (startsWith · "#include \"") = f.includes := by
    refine filter_slot_of_startsWith hempty ?_
    rw [hnames, List.forall_mem_map]
    intro name _
    rw [includeLine, String.append_assoc]
    exact startsWith_append _ _
  have htop : Avoids "#include \"" top := by decide +kernel
  have hblank : Avoids "#include \"" [""] := by decide
  have hnamespace : Avoids "#include \"" [dropReturn ("namespace " ++ f.outerNamespace)] := by
    rw [Avoids, List.forall_mem_singleton]
    exact isInner_dropReturn_namespace f.outerNamespace _ List.mem_cons_self
  have hcalls : ∀ role, Avoids "#include \"" (Text.slot (f.calls role)) := fun role =>
    hf.avoids_calls hempty (by cases role <;> decide +kernel)
  have hbelow : Avoids "#include \"" f.below := by
    simp only [below, callLines, avoids_append]
    exact ⟨⟨⟨⟨⟨⟨by decide +kernel, by decide +kernel⟩,
      forall_mem_slot hempty (hinner _ fun l hl => (hf.enums l hl).2.2), hblank⟩,
      by decide +kernel⟩, forall_mem_slot hempty (hinner _ fun l hl => (hf.classes l hl).2.2),
      hblank⟩, by decide +kernel⟩, ⟨⟨⟨⟨hcalls .component, by decide +kernel⟩, hcalls .system⟩,
      by decide +kernel⟩, hcalls .scene⟩, by decide +kernel⟩
  rw [hf.lines_eq, above, List.filter_append, List.filter_append, List.filter_append,
    List.filter_append, htop.filter_eq_nil, hself, hblank.filter_eq_nil,
    hnamespace.filter_eq_nil, hbelow.filter_eq_nil, List.nil_append, List.append_nil,
    List.append_nil, List.append_nil]

end

end FileParts

end Registrar
