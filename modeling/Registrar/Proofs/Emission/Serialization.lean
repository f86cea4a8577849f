/-
# Encoders and decoders

The block of a class whose objects are serialized has two functions.  Both name the properties of the
class in order, and both treat a property as the same kind, so what one of them writes the other one
can read.
-/
import Mathlib.Data.List.Forall2
import Registrar.Proofs.Emission.Registration
import Registrar.Proofs.Emission.Statement

namespace Registrar

open Text

/-! ## Functions -/

/-- The line that opens the function that writes the objects of a class. -/
def encodeOpening : String :=
  "type.setEncodeFunction([](const void* value, hect::Encoder& encoder)"

/-- The line that opens the function that reads the objects of a class. -/
def decodeOpening : String :=
  "type.setDecodeFunction([](void* value, hect::Decoder& decoder)"

/-- The line that closes a function. -/
def functionClosing : String :=
  r"        });"

/-- A line that is indented like a statement but is none. -/
structure IsCast (l : String) : Prop where
  startsWith_eq : startsWith l "            " = true
  count_eq : l.toList.count '<' % 2 = 1

/-- What stands between the lines that open and close a function. -/
def functionBody (cast : String) (ss : List Statement) : List String :=
  r"        {" :: cast :: ss.map Statement.text

/-- A function with a statement for each property. -/
def functionLines (opening cast : String) (ss : List Statement) : List String :=
  [opening] ++ functionBody cast ss ++ [functionClosing]

/-- A line that is not indented so far is no statement. -/
theorem ne_text_of_startsWith {l : String} (hl : startsWith l "            " = false)
    (s : Statement) : l ≠ s.text :=
  (ne_of_startsWith s.startsWith_text hl).symm

/-- A line that opens a function stands among some lines only if it is found there as one. -/
theorem notMem_of_openings {l : String} {ls : List String} (hl : startsWith l "type." = true)
    (h : l ∉ ls.filter (startsWith · "type.")) : l ∉ ls :=
  fun hmem => h (List.mem_filter.2 ⟨hmem, hl⟩)

/-- A cast is no statement. -/
theorem IsCast.ne_text {l : String} (hl : IsCast l) (s : Statement) : l ≠ s.text := by
  rintro rfl
  have hodd := hl.count_eq
  rw [s.count_text] at hodd
  exact absurd hodd (by decide)

section

variable {cast : String} (hcast : IsCast cast) (ss : List Statement)

include hcast

/-- The body of a function holds its statements and no others. -/
theorem holds_functionBody : Holds (functionBody cast ss) ss :=
  .other (ne_text_of_startsWith (by decide +kernel)) (.other hcast.ne_text (.map_text ss))

/-- What holds of the brace and of every line that is indented further holds of the body of a
function. -/
theorem forall_mem_functionBody {P : String → Prop} (hbrace : P r"        {")
    (hindent : ∀ l, startsWith l "            " = true → P l) :
    ∀ l ∈ functionBody cast ss, P l := by
  rw [functionBody, List.forall_mem_cons, List.forall_mem_cons, List.forall_mem_map]
  exact ⟨hbrace, hindent cast hcast.startsWith_eq, fun s _ => hindent _ s.startsWith_text⟩

/-- A function is not closed inside of its body. -/
theorem closing_notMem_functionBody : functionClosing ∉ functionBody cast ss := by
  have hne : ∀ l ∈ functionBody cast ss, l ≠ functionClosing :=
    forall_mem_functionBody hcast ss (by decide) fun l hl => ne_of_startsWith hl (by decide +kernel)
  exact fun h => hne _ h rfl

/-- No line of the body of a function begins like a text that clashes with the indentation and with
the line of the brace. -/
theorem avoids_functionBody {s : String} (hs : Chars.clash "            ".toList s.toList = true)
    (hbrace : startsWith r"        {" s = false) :
    FileParts.Avoids s (functionBody cast ss) :=
  forall_mem_functionBody hcast ss hbrace fun _ hl => startsWith_eq_false_of_clash hl hs

/-- The body of a function, read between its opening and its closing line. -/
theorem between_functionLines {opening : String} {xs : List String} (hxs : opening ∉ xs)
    (ys : List String) :
    between opening functionClosing (xs ++ functionLines opening cast ss ++ ys) =
      functionBody cast ss := by
  have hbetween : between opening functionClosing
      (xs ++ [opening] ++ functionBody cast ss ++ [functionClosing] ++ ys) = functionBody cast ss :=
    between_append hxs (closing_notMem_functionBody hcast ss)
  simpa only [functionLines, List.append_assoc] using hbetween

/-- Of the lines of a function only the first one opens a function. -/
theorem openings_functionLines {opening : String} (hopening : startsWith opening "type." = true) :
    (functionLines opening cast ss).filter (startsWith · "type.") = [opening] := by
  have hbody : FileParts.Avoids "type." (functionBody cast ss) :=
    avoids_functionBody hcast ss (by decide) (by decide)
  have hclosing : FileParts.Avoids "type." [functionClosing] := by decide
  rw [functionLines, List.filter_append, List.filter_append, hbody.filter_eq_nil,
    hclosing.filter_eq_nil, List.filter_singleton, hopening]
  rfl

/-- No line of a function opens a block. -/
theorem avoids_brace_functionLines {opening : String}
    (hopening : startsWith opening "type." = true) :
    FileParts.Avoids r"{" (functionLines opening cast ss) := by
  rw [functionLines, FileParts.avoids_append, FileParts.avoids_append, FileParts.Avoids,
    List.forall_mem_singleton]
  exact ⟨⟨startsWith_eq_false_of_clash hopening (by decide),
    avoids_functionBody hcast ss (by decide) (by decide)⟩, by decide⟩

end

/-! ## The block of a class -/

/-- The line that reads a property is a statement for its kind and its name. -/
theorem Property.decodeLine_eq (p : Property) :
    p.decodeLine = (Statement.read p.kind p.name p.isRequired).text := by
  show _ = twice ("            decoder >> hect::" ++ p.kind.decoder ++ "(\"") "\", typedValue."
    (", " ++ (if p.isRequired then "true" else "false") ++ ");") p.name
  unfold Property.decodeLine twice
  generalize (if p.isRequired then "true" else "false") = word
  simp only [String.append_assoc]

namespace ClassType

/-- The statements that write the properties of a class. -/
def writes (c : ClassType) : List Statement :=
  c.properties.map fun p => .write p.kind p.name

/-- The statements that read the properties of a class. -/
def reads (c : ClassType) : List Statement :=
  c.properties.map fun p => .read p.kind p.name p.isRequired

/-- The line before the statements that write. -/
def encodeCast (c : ClassType) : String :=
  twice "            const " "& typedValue = *reinterpret_cast<const " "*>(value);" c.qualifiedName

/-- The line before the statements that read. -/
def decodeCast (c : ClassType) : String :=
  twice "            " "& typedValue = *reinterpret_cast<" "*>(value);" c.qualifiedName

/-- The line before the statements that write is none of them, whatever the name of the class. -/
theorem isCast_encodeCast (c : ClassType) : IsCast c.encodeCast where
  startsWith_eq := by
    have hstart : "            const " = "            " ++ "const " := rfl
    simp only [encodeCast, twice, hstart, String.append_assoc]
    exact startsWith_append _ _
  count_eq := by
    rw [encodeCast, count_twice]
    decide +kernel

theorem isCast_decodeCast (c : ClassType) : IsCast c.decodeCast where
  startsWith_eq := by
    simp only [decodeCast, twice, String.append_assoc]
    exact startsWith_append _ _
  count_eq := by
    rw [decodeCast, count_twice]
    decide +kernel

/-- The function that writes a class has a statement for each property. -/
theorem encodeLines_eq (c : ClassType) :
    c.encodeLines = functionLines encodeOpening c.encodeCast c.writes := by
  have hmap : c.properties.map Property.encodeLine = c.writes.map Statement.text := by
    rw [writes, List.map_map]
    rfl
  rw [encodeLines, hmap]
  rfl

/-- The function that reads a class has a statement for each property. -/
theorem decodeLines_eq (c : ClassType) :
    c.decodeLines = functionLines decodeOpening c.decodeCast c.reads := by
  have hmap : c.properties.map Property.decodeLine = c.reads.map Statement.text := by
    rw [reads, List.map_map]
    exact List.map_congr_left fun p _ => p.decodeLine_eq
  rw [decodeLines, hmap]
  rfl

/-- The line that registers a class begins in the same way for all classes. -/
theorem startsWith_typeLine (c : ClassType) : startsWith c.typeLine "        hect::" = true := by
  have hstart : "        hect::Type& type = hect::Type::registerType<" =
      "        hect::" ++ "Type& type = hect::Type::registerType<" := rfl
  unfold typeLine
  rw [hstart]
  simp only [String.append_assoc]
  exact startsWith_append _ _

end ClassType

/-- The lines of a block open two functions, first the one that writes the objects of the class and
then the one that reads them.  Between its opening and its closing line each function has one statement
for every property, in the order of the properties, with its name and for its kind.  The kind is a
vector if the property is one, or else an enum if it is one, or else a value, in both functions.  The
statement that reads a property says whether it is required. -/
structure HasFunctions (c : ClassType) (block : List String) : Prop where
  openings : block.filter (startsWith · "type.") = [encodeOpening, decodeOpening]
  encode : ∀ ss, Holds (between encodeOpening functionClosing block) ss ↔
    ss = c.properties.map fun p =>
      .write (if p.isVector then .vector else if p.isEnum then .enumeration else .value) p.name
  decode : ∀ ss, Holds (between decodeOpening functionClosing block) ss ↔
    ss = c.properties.map fun p =>
      .read (if p.isVector then .vector else if p.isEnum then .enumeration else .value) p.name
        p.isRequired

/-- The lines of a block open no function, and they have no statement. -/
structure LacksFunctions (block : List String) : Prop where
  openings : block.filter (startsWith · "type.") = []
  statements : ∀ ss, Holds block ss ↔ ss = []

/-- The lines that are written for a class. -/
structure IsBlock (c : ClassType) (block : List String) : Prop where
  isLine : ∀ l ∈ block, IsLine l ∧ l ≠ ""
  /-- Only the first line opens a block, so the blocks of several classes can be told apart. -/
  head : ∃ rest, block = r"{" :: c.typeLine :: rest ∧ r"{" ∉ c.typeLine :: rest
  functions :
    if c.properties ≠ [] ∧ (c.isEncodable = true ∨ c.role = .component ∨ c.role = .system) then
      HasFunctions c block
    else LacksFunctions block

namespace ClassType

/-- The lines of a block before its functions. -/
def blockHead (c : ClassType) : List String :=
  [r"{", c.typeLine]

/-- The lines of a block behind its functions. -/
def blockTail : List String :=
  ["        (void)type;", r"    }"]

section

variable {c : ClassType}

/-- A block with functions is what stands before them, the two functions and what stands behind. -/
theorem blockLines_of_hasFunctions (hc : Emitter.hasFunctions c = true) :
    c.blockLines = c.blockHead ++ functionLines encodeOpening c.encodeCast c.writes ++
      functionLines decodeOpening c.decodeCast c.reads ++ blockTail := by
  rw [blockLines, if_pos hc, encodeLines_eq, decodeLines_eq, ← List.append_assoc]
  rfl

/-- A block without functions is what stands before and behind them. -/
theorem blockLines_of_not_hasFunctions (hc : ¬ Emitter.hasFunctions c = true) :
    c.blockLines = c.blockHead ++ blockTail := by
  rw [blockLines, if_neg hc, List.append_nil]
  rfl

/-- No function is opened before the functions. -/
theorem avoids_blockHead (c : ClassType) : FileParts.Avoids "type." c.blockHead := by
  rw [FileParts.Avoids, blockHead, List.forall_mem_cons, List.forall_mem_singleton]
  exact ⟨by decide, startsWith_eq_false_of_clash c.startsWith_typeLine (by decide)⟩

theorem avoids_blockTail : FileParts.Avoids "type." blockTail := by
  decide

/-- No statement stands before the functions. -/
theorem holds_blockHead (c : ClassType) : Holds c.blockHead [] := by
  refine .other (ne_text_of_startsWith (by decide)) (.other (ne_text_of_startsWith ?_) .nil)
  exact startsWith_eq_false_of_clash c.startsWith_typeLine (by decide +kernel)

theorem holds_blockTail : Holds blockTail [] :=
  .other (ne_text_of_startsWith (by decide)) (.other (ne_text_of_startsWith (by decide)) .nil)

/-- The block of a class with functions has them. -/
theorem hasFunctions_blockLines (hc : Emitter.hasFunctions c = true) :
    HasFunctions c c.blockLines := by
  have hencode := c.isCast_encodeCast
  have hdecode := c.isCast_decodeCast
  have hwrites : (functionLines encodeOpening c.encodeCast c.writes).filter
      (startsWith · "type.") = [encodeOpening] := openings_functionLines hencode _ (by decide)
  have hreads : (functionLines decodeOpening c.decodeCast c.reads).filter
      (startsWith · "type.") = [decodeOpening] := openings_functionLines hdecode _ (by decide)
  have hhead := c.avoids_blockHead.filter_eq_nil
  rw [blockLines_of_hasFunctions hc]
  constructor
  · rw [List.filter_append, List.filter_append, List.filter_append, hhead, hwrites, hreads,
      avoids_blockTail.filter_eq_nil]
    rfl
  · have hnot : encodeOpening ∉ c.blockHead := by
      refine notMem_of_openings (by decide) ?_
      rw [hhead]
      exact List.not_mem_nil
    rw [List.append_assoc (_ ++ _), between_functionLines hencode c.writes hnot]
    exact (holds_functionBody hencode _).iff_eq
  · -- the function that writes stands in front and has to be passed
    have hnot : decodeOpening ∉
        c.blockHead ++ functionLines encodeOpening c.encodeCast c.writes := by
      refine notMem_of_openings (by decide) ?_
      rw [List.filter_append, hhead, hwrites]
      decide
    rw [between_functionLines hdecode c.reads hnot]
    exact (holds_functionBody hdecode _).iff_eq

/-- The block of a class without functions has no trace of any. -/
theorem lacksFunctions_blockLines (hc : ¬ Emitter.hasFunctions c = true) :
    LacksFunctions c.blockLines := by
  rw [blockLines_of_not_hasFunctions hc]
  constructor
  · rw [List.filter_append, c.avoids_blockHead.filter_eq_nil, avoids_blockTail.filter_eq_nil]
    rfl
  · exact (c.holds_blockHead.append holds_blockTail).iff_eq

/-- Behind its first line a block has no line that opens a block. -/
theorem exists_blockLines_eq_cons (c : ClassType) :
    ∃ rest, c.blockLines = r"{" :: c.typeLine :: rest ∧ r"{" ∉ c.typeLine :: rest := by
  have htype : FileParts.Avoids r"{" [c.typeLine] := by
    rw [FileParts.Avoids, List.forall_mem_singleton]
    exact startsWith_eq_false_of_clash c.startsWith_typeLine (by decide)
  have htail : FileParts.Avoids r"{" blockTail := by decide
  by_cases hc : Emitter.hasFunctions c = true
  · have hencode : FileParts.Avoids r"{" (functionLines encodeOpening c.encodeCast c.writes) :=
      avoids_brace_functionLines c.isCast_encodeCast _ (by decide)
    have hdecode : FileParts.Avoids r"{" (functionLines decodeOpening c.decodeCast c.reads) :=
      avoids_brace_functionLines c.isCast_decodeCast _ (by decide)
    refine ⟨functionLines encodeOpening c.encodeCast c.writes ++
      functionLines decodeOpening c.decodeCast c.reads ++ blockTail, ?_, FileParts.Avoids.notMem ?_⟩
    · rw [blockLines_of_hasFunctions hc, List.append_assoc, List.append_assoc, List.append_assoc]
      rfl
    · rw [← List.singleton_append, FileParts.avoids_append, FileParts.avoids_append,
        FileParts.avoids_append]
      exact ⟨htype, ⟨hencode, hdecode⟩, htail⟩
  · refine ⟨blockTail, blockLines_of_not_hasFunctions hc, FileParts.Avoids.notMem ?_⟩
    rw [← List.singleton_append, FileParts.avoids_append]
    exact ⟨htype, htail⟩

/-- What is written for a class is a block of it. -/
theorem isBlock_blockLines (hc : c.HasLineNames) : IsBlock c c.blockLines where
  isLine := fun l hl => ⟨isLine_blockLines hc l hl, (c.endsVisibly_blockLines l hl).ne_empty⟩
  head := c.exists_blockLines_eq_cons
  functions := by
    have hiff := Emitter.hasFunctions_iff c
    split
    · next h => exact hasFunctions_blockLines (hiff.2 h)
    · next h => exact lacksFunctions_blockLines fun hc => h (hiff.1 hc)

end

end ClassType

namespace Emitter

/-- With the built-in templates and names that are lines, the section of the classes is the blocks of
the planned classes, one after the other.  A block has a function that writes and one that reads the
objects of its class exactly if the class has a property and is encodable, a component or a system, and
then the two agree on the properties, their order and their kinds. -/
theorem emit_serializes {e : Emitter} (he : e.templates = {}) {m : Model}
    (hm : ∀ c ∈ m.classes, c.HasLineNames) (p : Plan) :
    ∃ enums blocks, (e.emit m p).run.result = .ok (joinLines
        (({ e.parts m p with enums := enums, classes := blocks.flatten } : FileParts).lines ++ [""])) ∧
      List.Forall₂ IsBlock (p.classes.filterMap m.class?) blocks := by
  have hclasses : ∀ c ∈ p.classes.filterMap m.class?, c.HasLineNames := by
    intro c hc
    obtain ⟨h, -, hget⟩ := List.mem_filterMap.1 hc
    exact hm c ((m.mem_classes c).2 ⟨h, hget⟩)
  -- enumerators may hold line feeds, so the section of the enums counts as one text
  refine ⟨_, (p.classes.filterMap m.class?).map ClassType.blockLines,
    emit_eq_of_builtin he m p (joinLines_singleton _).symm ?_, ?_⟩
  · rw [← List.flatMap_def]
    exact removeBlankLines_classes hclasses
  · rw [List.forall₂_map_right_iff, List.forall₂_same]
    exact fun c hc => ClassType.isBlock_blockLines (hclasses c hc)

/-- A name that is spelled like a statement, one that holds the middle of a statement, and an
enumerator of two lines change nothing. -/
theorem emit_serializes_odd_names :
    let e : Emitter := { outputDir := ⟨"/out"⟩, outerNamespace := "n" }
    let body : ClassType :=
      { qualifiedName := "decoder >> hect::decodeValue(\"x\", typedValue.x, true);"
        role := .component
        properties := [{ name := "x\", typedValue.x\r", isVector := true, isEnum := true },
          { name := "mode", isEnum := true, isRequired := true }] }
    let shape : EnumType := { qualifiedName := "n::Shape", values := ["Round", "    // Classes\n"] }
    let m : Model := ⟨[.enumType shape, .classType body, .classType { qualifiedName := "n::None" }]⟩
    let p : Plan := { enums := [0, 5], classes := [2, 1, 0, 1] }
    ∃ enums blocks, (e.emit m p).run.result = .ok (joinLines
        (({ e.parts m p with enums := enums, classes := blocks.flatten } : FileParts).lines ++ [""])) ∧
      List.Forall₂ IsBlock (p.classes.filterMap m.class?) blocks :=
  emit_serializes rfl (by decide) _

end Emitter

end Registrar
