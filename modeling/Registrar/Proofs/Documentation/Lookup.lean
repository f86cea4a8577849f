/-
# Looking things up in a written documentation

What the reader of documents finds in the elements that are written for declarations.  A name is
read as it was written, and the children of an element come in groups of one name each, so that
every look-up by a name gives one of the groups.
-/
import Mathlib.Data.List.Basic
import Registrar.Proofs.Documentation.Format

namespace Registrar.Documentation

open Xml (Node)

/-! ## Names -/

/-- A name stays as it is without the blanks around it. -/
theorem IsName.trimmed? {s : String} (h : IsName s) : Text.trimmed? s = some s := by
  have hfront : Chars.trimStart s.toList = s.toList := by
    cases hs : s.toList with
    | nil => rfl
    | cons c cs =>
      have hc : Chars.isBlank c = false := h.front c (by rw [hs]; rfl)
      exact List.dropWhile_cons_of_neg (by rw [hc]; exact Bool.false_ne_true)
  have hback : Chars.trimEnd s.toList = s.toList := by
    unfold Chars.trimEnd
    cases hs : s.toList.reverse with
    | nil => exact (List.reverse_eq_nil_iff.1 hs).symm
    | cons c cs =>
      have hlast : s.toList.getLast? = some c := by rw [← List.head?_reverse, hs]; rfl
      have hc : Chars.isBlank c = false := h.back c hlast
      rw [List.dropWhile_cons_of_neg (by rw [hc]; exact Bool.false_ne_true), ← hs,
        List.reverse_reverse]
  have htrim : Text.trim s = s := by
    unfold Text.trim Chars.trim
    rw [hfront, hback, String.ofList_toList]
  unfold Text.trimmed?
  rw [htrim, if_neg h.nonempty]

/-- The scopings of a text are the ways to write it with a double colon. -/
theorem mem_scopings {cs scope name : List Char} :
    (scope, name) ∈ scopings cs ↔ cs = scope ++ "::".toList ++ name := by
  induction cs generalizing scope with
  | nil =>
    refine ⟨fun h => absurd h List.not_mem_nil, fun h => ?_⟩
    have hlength := congrArg List.length h
    simp at hlength
  | cons c cs ih =>
    have hlater : (scope, name) ∈ (scopings cs).map (Prod.map (c :: ·) id) ↔
        ∃ rest, scope = c :: rest ∧ cs = rest ++ "::".toList ++ name := by
      rw [List.mem_map]
      constructor
      · rintro ⟨⟨rest, name'⟩, hrest, heq⟩
        obtain ⟨rfl, rfl⟩ := Prod.mk.inj heq
        exact ⟨rest, rfl, ih.1 hrest⟩
      · rintro ⟨rest, rfl, hcs⟩
        exact ⟨(rest, name), ih.2 hcs, rfl⟩
    have hnow : ∀ name', "::".toList.isPrefixOf? (c :: cs) = some name' ↔
        c :: cs = "::".toList ++ name' := by
      intro name'
      refine ⟨Chars.eq_append_of_isPrefixOf?, fun h => ?_⟩
      rw [h]
      rfl
    -- the separator stands right here, or the scope begins here and ends further back
    have hhead : c :: cs = scope ++ "::".toList ++ name ↔
        (scope = [] ∧ c :: cs = "::".toList ++ name) ∨
          ∃ rest, scope = c :: rest ∧ cs = rest ++ "::".toList ++ name := by
      cases scope with
      | nil => simp
      | cons d rest =>
        rw [List.cons_append, List.cons_append, List.cons.injEq]
        constructor
        · rintro ⟨rfl, hcs⟩
          exact Or.inr ⟨rest, rfl, hcs⟩
        · rintro (⟨hnil, -⟩ | ⟨rest', heq, hcs⟩)
          · exact absurd hnil (List.cons_ne_nil d rest)
          · obtain ⟨rfl, rfl⟩ := List.cons.inj heq
            exact ⟨rfl, hcs⟩
    rw [hhead, ← hlater, scopings]
    cases hprefix : "::".toList.isPrefixOf? (c :: cs) with
    | none =>
      refine ⟨Or.inr, fun h => h.elim (fun hnil => ?_) id⟩
      rw [(hnow name).2 hnil.2] at hprefix
      exact absurd hprefix (by simp)
    | some name' =>
      have hname : c :: cs = "::".toList ++ name ↔ name = name' := by
        rw [← hnow name, hprefix, Option.some.injEq]
        exact eq_comm
      show (scope, name) ∈ ([], name') :: (scopings cs).map (Prod.map (c :: ·) id) ↔ _
      rw [List.mem_cons, Prod.mk.injEq, hname]

/-- The parts of a qualified name are found if there are any. -/
theorem exists_scopedName? {q : String}
    (h : ∃ scope name, IsName scope ∧ IsName name ∧ q = scope ++ "::" ++ name) :
    ∃ scope name, scopedName? q = some (scope, name) ∧ IsName scope ∧ IsName name ∧
      q = scope ++ "::" ++ name := by
  obtain ⟨scope, name, hscope, hname, hq⟩ := h
  have hmem : (scope, name) ∈ (scopings q.toList).map (Prod.map String.ofList String.ofList) := by
    refine List.mem_map.2 ⟨(scope.toList, name.toList), mem_scopings.2 ?_, ?_⟩
    · rw [hq, String.toList_append, String.toList_append]
    · show (String.ofList scope.toList, String.ofList name.toList) = (scope, name)
      rw [String.ofList_toList, String.ofList_toList]
  -- the parts that are found need not be the given ones
  cases hfound : scopedName? q with
  | none =>
    have hnone := List.find?_eq_none.1 hfound (scope, name) hmem
    exact absurd (decide_eq_true ⟨hscope, hname⟩) hnone
  | some parts =>
    obtain ⟨scope', name'⟩ := parts
    have hboth := List.find?_some (p := fun parts : String × String =>
      decide (IsName parts.1 ∧ IsName parts.2)) hfound
    obtain ⟨hscope', hname'⟩ := of_decide_eq_true hboth
    refine ⟨scope', name', rfl, hscope', hname', ?_⟩
    obtain ⟨⟨before, after⟩, hparts, heq⟩ := List.mem_map.1 (List.mem_of_find?_eq_some hfound)
    obtain ⟨rfl, rfl⟩ := Prod.mk.inj heq
    apply String.toList_injective
    have htext := mem_scopings.1 hparts
    simp only [htext, String.toList_append, String.toList_ofList]

/-! ## Elements -/

@[simp] theorem isNamed_element (name own : String) (attributes : List (String × String))
    (children : List Node) : (element own attributes children).isNamed name = decide (own = name) :=
  rfl

@[simp] theorem isNamed_textElement (name own content : String) :
    (textElement own content).isNamed name = decide (own = name) :=
  rfl

/-- An attribute is looked up by its name. -/
theorem attribute?_element (name own : String) (attributes : List (String × String))
    (children : List Node) : (element own attributes children).attribute? name =
      (attributes.find? fun a => a.1 = name).map Prod.snd := by
  show ((attributes.map fun a => (⟨⟨none, a.1⟩, a.2⟩ : Xml.Attribute)).find? fun a =>
    a.name = ⟨none, name⟩).map Xml.Attribute.value = _
  rw [List.find?_map, Option.map_map]
  simp only [Function.comp_def, Xml.Name.mk.injEq, true_and]

@[simp] theorem content_textElement (own content : String) :
    (textElement own content).content = content :=
  String.append_empty

/-! ## Groups of children -/

/-- Nodes that are all elements of one name. -/
def AllNamed (own : String) (ns : List Node) : Prop :=
  ∀ n ∈ ns, n.isNamed own = true

/-- An element has one name. -/
theorem isNamed_eq_decide {n : Node} {own : String} (h : n.isNamed own = true) (name : String) :
    n.isNamed name = decide (own = name) := by
  cases n with
  | element full attributes children =>
    have hown : full.localName = own := of_decide_eq_true h
    rw [← hown]
    rfl
  | text content => exact absurd h Bool.false_ne_true
  | comment content => exact absurd h Bool.false_ne_true
  | instruction target content => exact absurd h Bool.false_ne_true

/-- A group is looked up as a whole or not at all. -/
theorem AllNamed.filter {own : String} {ns : List Node} (h : AllNamed own ns) (name : String) :
    ns.filter (Node.isNamed name) = if own = name then ns else [] := by
  split
  · next heq => exact List.filter_eq_self.2 fun n hn => heq ▸ h n hn
  · next hne =>
    refine List.filter_eq_nil_iff.2 fun n hn => ?_
    rw [isNamed_eq_decide (h n hn), decide_eq_true_eq]
    exact hne

/-- Elements that are written with one name have it. -/
theorem allNamed_map {α : Type} {own : String} {f : α → Node}
    (h : ∀ a, (f a).isNamed own = true) (as : List α) : AllNamed own (as.map f) := by
  intro n hn
  obtain ⟨a, -, rfl⟩ := List.mem_map.1 hn
  exact h a

/-- The enumerators of an enum are all written as `enumvalue`. -/
theorem allNamed_enumerators (values : List String) :
    AllNamed "enumvalue" (values.map enumeratorElement) :=
  allNamed_map (fun _ => rfl) values

theorem allNamed_innerElements (identifiers : List String) :
    AllNamed "innerclass" (identifiers.map innerElement) :=
  allNamed_map (fun _ => rfl) identifiers

theorem allNamed_propertyMembers (properties : List Property) :
    AllNamed "memberdef" (properties.map propertyMember) :=
  allNamed_map (fun _ => rfl) properties

theorem allNamed_locationElements (header : Option Path) :
    AllNamed "location" (locationElements header) :=
  allNamed_map (fun _ => rfl) header.toList

theorem allNamed_baseElements (base : BaseReference) :
    AllNamed "basecompoundref" (baseElements base) := by
  cases base with
  | byIdentifier identifier name => exact fun n hn => by rw [List.mem_singleton.1 hn]; rfl
  | byName name => exact fun n hn => by rw [List.mem_singleton.1 hn]; rfl
  | unresolved => exact fun n hn => absurd hn List.not_mem_nil

theorem allNamed_templateElements (isTemplate : Bool) :
    AllNamed "templateparamlist" (templateElements isTemplate) := by
  cases isTemplate with
  | true => exact fun n hn => by rw [List.mem_singleton.1 hn]; rfl
  | false => exact fun n hn => absurd hn List.not_mem_nil

/-- The first child of a name is the first one of the children of that name. -/
theorem child?_eq_head? (n : Node) (name : String) :
    n.child? name = (n.childrenNamed name).head? :=
  List.head?_filter.symm

/-! ## What the reader finds in a group -/

section

variable {n : Node}

/-- The text of a name is read from the one element that it is written in. -/
theorem childText?_of_childrenNamed {name content : String} (hcontent : IsName content)
    (h : n.childrenNamed name = [textElement name content]) :
    childText? n name = some content := by
  unfold childText?
  rw [child?_eq_head?, h, List.head?_cons, Option.bind_some, content_textElement,
    hcontent.trimmed?]

/-- A header is read from where it is written. -/
theorem location?_of_childrenNamed {header : Option Path}
    (h : n.childrenNamed "location" = locationElements header) : location? n = header := by
  unfold location?
  rw [child?_eq_head?, h]
  cases header with
  | none => rfl
  | some file => rfl

/-- A base is read from where it is written. -/
theorem baseReference_of_childrenNamed {base : BaseReference}
    (hname : ∀ name ∈ base.name?, IsName name)
    (h : n.childrenNamed "basecompoundref" = baseElements base) : baseReference n = base := by
  unfold baseReference
  rw [child?_eq_head?, h]
  cases base with
  | byIdentifier identifier name =>
    cases name with
    | none => rfl
    | some name =>
      show (BaseReference.byIdentifier identifier
        (Text.trimmed? (textElement "basecompoundref" name).content)) = _
      rw [content_textElement, (hname name rfl).trimmed?]
  | byName name =>
    have htrimmed : Text.trimmed? (textElement "basecompoundref" name).content = some name := by
      rw [content_textElement, (hname name rfl).trimmed?]
    simp only [baseElements, List.head?_cons, htrimmed]
    rfl
  | unresolved => rfl

/-- The paragraphs are those of the detailed description if there is no brief one. -/
theorem paragraphs_of_childrenNamed {texts : List String}
    (hdetailed : n.childrenNamed "detaileddescription" = [description texts])
    (hbrief : n.childrenNamed "briefdescription" = []) : paragraphs n = texts := by
  have hdescription : (description texts).childrenNamed "para" =
      texts.map (textElement "para") := by
    have hgroup := (allNamed_map (fun _ => rfl) texts :
      AllNamed "para" (texts.map (textElement "para"))).filter "para"
    rwa [if_pos rfl] at hgroup
  have hfound : ["detaileddescription", "briefdescription"].filterMap n.child? =
      [description texts] := by
    simp [child?_eq_head?, hdetailed, hbrief]
  show (List.flatMap (fun d => d.childrenNamed "para")
    (["detaileddescription", "briefdescription"].filterMap n.child?)).map Node.content = texts
  rw [hfound, List.flatMap_singleton, hdescription, List.map_map]
  simp [Function.comp_def]

end

/-! ## What stands below a node -/

/-- The nodes in some nodes are those in each of them, in order. -/
theorem allDescendants_eq_flatMap (ns : List Node) :
    Node.allDescendants ns = ns.flatMap Node.descendants := by
  induction ns with
  | nil => rfl
  | cons n ns ih => rw [Node.allDescendants, ih, List.flatMap_cons]

/-- An element comes before all that is in it. -/
theorem descendants_element (own : String) (attributes : List (String × String))
    (children : List Node) : (element own attributes children).descendants =
      element own attributes children :: children.flatMap Node.descendants := by
  rw [← allDescendants_eq_flatMap]
  rfl

/-- No element of the given name is in a node, nor is the node one. -/
def Lacks (tag : String) (n : Node) : Prop :=
  ∀ d ∈ n.descendants, d.isNamed tag = false

/-- A name is missing in an element if neither it nor anything inside has it. -/
theorem lacks_element_iff (tag own : String) (attributes : List (String × String))
    (children : List Node) :
    Lacks tag (element own attributes children) ↔ own ≠ tag ∧ ∀ n ∈ children, Lacks tag n := by
  unfold Lacks
  rw [descendants_element, List.forall_mem_cons, isNamed_element, decide_eq_false_iff_not]
  simp only [List.mem_flatMap, forall_exists_index, and_imp]
  constructor
  · rintro ⟨hown, hin⟩
    exact ⟨hown, fun n hn d hd => hin d n hn hd⟩
  · rintro ⟨hown, hin⟩
    exact ⟨hown, fun d n hn hd => hin n hn d hd⟩

/-- A text has no elements. -/
theorem lacks_text (tag content : String) : Lacks tag (.text content) := by
  intro d hd
  rw [List.mem_singleton.1 hd]
  rfl

/-- In an element with nothing but text only its own name is found. -/
theorem lacks_textElement_iff (tag own content : String) :
    Lacks tag (textElement own content) ↔ own ≠ tag := by
  unfold textElement
  rw [lacks_element_iff]
  refine ⟨fun h => h.1, fun h => ⟨h, fun n hn => ?_⟩⟩
  rw [List.mem_singleton.1 hn]
  exact lacks_text tag content

/-- What only elements of one name satisfy is not found where these are lacking. -/
theorem filter_descendants_of_lacks {p : Node → Bool} {tag : String}
    (hp : ∀ n, p n = true → n.isNamed tag = true) {n : Node} (h : Lacks tag n) :
    n.descendants.filter p = [] := by
  refine List.filter_eq_nil_iff.2 fun d hd hsat => ?_
  have hnamed : d.isNamed tag = true := hp d hsat
  rw [h d hd] at hnamed
  exact Bool.false_ne_true hnamed

/-- An element that satisfies it, with no other one in it, is the only one that is found. -/
theorem filter_descendants_element {p : Node → Bool} {tag own : String}
    (hp : ∀ n, p n = true → n.isNamed tag = true) {attributes : List (String × String)}
    {children : List Node} (hself : p (element own attributes children) = true)
    (h : ∀ n ∈ children, Lacks tag n) :
    (element own attributes children).descendants.filter p =
      [element own attributes children] := by
  have hbelow : (children.flatMap Node.descendants).filter p = [] := by
    rw [List.filter_flatMap, List.flatMap_eq_nil_iff]
    exact fun n hn => filter_descendants_of_lacks hp (h n hn)
  rw [descendants_element, List.filter_cons_of_pos hself, hbelow]

end Registrar.Documentation
