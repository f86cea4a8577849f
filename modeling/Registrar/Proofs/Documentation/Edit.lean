/-
# Comments and pieces of text

Comments and processing instructions may stand anywhere in a document, and a text may come in any
number of pieces, without a difference to what the document declares.  The reader looks for elements
only, and it takes all the text that is in an element at once.
-/
import Mathlib.Data.List.Forall2
import Mathlib.Logic.Relation
import Registrar.Documentation.Compound
import Registrar.Proofs.Documentation.Lookup

namespace Registrar

open Xml (Node)

namespace Xml

/-- A change of some nodes that stand side by side, or somewhere inside of them. -/
inductive Edit : List Node → List Node → Prop where
  | comment (content : String) (ns : List Node) : Edit (.comment content :: ns) ns
  | instruction (target content : String) (ns : List Node) :
      Edit (.instruction target content :: ns) ns
  /-- Two texts that stand side by side become one. -/
  | text (front back : String) (ns : List Node) :
      Edit (.text front :: .text back :: ns) (.text (front ++ back) :: ns)
  | inside (name : Name) (attributes : List Attribute) {children children' : List Node}
      (ns : List Node) (h : Edit children children') :
      Edit (.element name attributes children :: ns) (.element name attributes children' :: ns)
  | later (n : Node) {ns ns' : List Node} (h : Edit ns ns') : Edit (n :: ns) (n :: ns')

/-- Documents that say the same: comments and processing instructions come and go, and texts are cut
and put together. -/
def SaysSame : List Node → List Node → Prop :=
  Relation.EqvGen Edit

/-- A node, and what becomes of it by a change inside. -/
inductive Edited : Node → Node → Prop where
  | same (n : Node) : Edited n n
  | inside (name : Name) (attributes : List Attribute) {children children' : List Node}
      (h : Edit children children') :
      Edited (.element name attributes children) (.element name attributes children')

/-! ## Elements -/

/-- A property that only elements have, and that no change inside of them takes away. -/
structure IsElementTest (p : Node → Bool) : Prop where
  isElement : ∀ n, p n = true → n.isElement = true
  edited : ∀ n n', Edited n n' → p n = p n'

variable {n n' : Node} {ns ns' : List Node} {p : Node → Bool}

/-- A change inside of a node leaves its name. -/
theorem Edited.isNamed_eq (h : Edited n n') (name : String) :
    n.isNamed name = n'.isNamed name := by
  cases h <;> rfl

/-- A change inside of a node leaves its attributes. -/
theorem Edited.attribute?_eq (h : Edited n n') (name : String) :
    n.attribute? name = n'.attribute? name := by
  cases h <;> rfl

/-- Only elements have a name, and a change inside leaves it. -/
theorem isElementTest_isNamed (name : String) : IsElementTest (Node.isNamed name) where
  isElement n hn := by
    cases n with
    | element => rfl
    | text | comment | instruction => exact absurd hn Bool.false_ne_true
  edited _ _ h := h.isNamed_eq name

/-- Nodes that nothing changes are left as they are. -/
theorem edited_refl (ns : List Node) : List.Forall₂ Edited ns ns :=
  List.forall₂_same.2 fun n _ => .same n

/-- A node that is no element passes no test for elements. -/
theorem IsElementTest.filter_cons_of_leaf (hp : IsElementTest p) (hn : n.isElement = false)
    (ns : List Node) : (n :: ns).filter p = ns.filter p := by
  refine List.filter_cons_of_neg fun hpn => ?_
  rw [hp.isElement n hpn] at hn
  exact absurd hn (by simp)

/-- The elements side by side stay the same but for changes inside. -/
theorem Edit.filter (h : Edit ns ns') (hp : IsElementTest p) :
    List.Forall₂ Edited (ns.filter p) (ns'.filter p) := by
  -- a comment, an instruction and a text are no elements, so the test keeps none of them
  induction h with
  | comment content ns =>
    rw [hp.filter_cons_of_leaf rfl]
    exact edited_refl _
  | instruction target content ns =>
    rw [hp.filter_cons_of_leaf rfl]
    exact edited_refl _
  | text front back ns =>
    rw [hp.filter_cons_of_leaf rfl, hp.filter_cons_of_leaf rfl, hp.filter_cons_of_leaf rfl]
    exact edited_refl _
  | inside name attributes ns h _ =>
    have hedited := Edited.inside name attributes h
    rw [List.filter_cons, List.filter_cons, ← hp.edited _ _ hedited]
    split
    · exact .cons hedited (edited_refl _)
    · exact edited_refl _
  | later n h ih =>
    rw [List.filter_cons, List.filter_cons]
    split
    · exact .cons (.same n) ih
    · exact ih

/-- So do the elements at any depth. -/
theorem Edit.filter_allDescendants (h : Edit ns ns') (hp : IsElementTest p) :
    List.Forall₂ Edited ((Node.allDescendants ns).filter p)
      ((Node.allDescendants ns').filter p) := by
  induction h with
  | comment content ns =>
    show List.Forall₂ Edited ((.comment content :: Node.allDescendants ns).filter p) _
    rw [hp.filter_cons_of_leaf rfl]
    exact edited_refl _
  | instruction target content ns =>
    show List.Forall₂ Edited ((.instruction target content :: Node.allDescendants ns).filter p) _
    rw [hp.filter_cons_of_leaf rfl]
    exact edited_refl _
  | text front back ns =>
    show List.Forall₂ Edited ((.text front :: .text back :: Node.allDescendants ns).filter p)
      ((.text (front ++ back) :: Node.allDescendants ns).filter p)
    rw [hp.filter_cons_of_leaf rfl, hp.filter_cons_of_leaf rfl, hp.filter_cons_of_leaf rfl]
    exact edited_refl _
  | @inside name attributes children children' ns h ih =>
    have hedited := Edited.inside name attributes h
    show List.Forall₂ Edited
      ((.element name attributes children ::
        (Node.allDescendants children ++ Node.allDescendants ns)).filter p)
      ((.element name attributes children' ::
        (Node.allDescendants children' ++ Node.allDescendants ns)).filter p)
    -- the element itself is kept or left out as before, and below it the change goes on
    have hbelow : List.Forall₂ Edited
        ((Node.allDescendants children ++ Node.allDescendants ns).filter p)
        ((Node.allDescendants children' ++ Node.allDescendants ns).filter p) := by
      rw [List.filter_append, List.filter_append]
      exact List.rel_append ih (edited_refl _)
    rw [List.filter_cons, List.filter_cons, ← hp.edited _ _ hedited]
    split
    · exact .cons hedited hbelow
    · exact hbelow
  | later n h ih =>
    rw [Node.allDescendants, Node.allDescendants, List.filter_append, List.filter_append]
    exact List.rel_append (edited_refl _) ih

/-! ## Text -/

/-- All text that is in some nodes stays the same. -/
theorem Edit.contents_eq (h : Edit ns ns') : Node.contents ns = Node.contents ns' := by
  induction h with
  | comment content ns => exact String.empty_append
  | instruction target content ns => exact String.empty_append
  | text front back ns => exact (String.append_assoc).symm
  | inside name attributes ns h ih =>
    exact congrArg (· ++ Node.contents ns) ih
  | later n h ih => exact congrArg (n.content ++ ·) ih

namespace Edited

/-- The text inside of a node is the same after a change. -/
theorem content_eq (h : Edited n n') : n.content = n'.content := by
  cases h with
  | same n => rfl
  | inside name attributes h => exact h.contents_eq

/-! ## What is looked up in an element -/

/-- The children of a name stand in the same order after a change, each perhaps changed inside. -/
theorem childrenNamed (h : Edited n n') (name : String) :
    List.Forall₂ Edited (n.childrenNamed name) (n'.childrenNamed name) := by
  cases h with
  | same n => exact edited_refl _
  | inside full attributes h => exact h.filter (isElementTest_isNamed name)

/-- The elements below a node that pass a test are the same ones after a change, each perhaps
changed inside. -/
theorem filter_descendants (h : Edited n n') (hp : IsElementTest p) :
    List.Forall₂ Edited (n.descendants.filter p) (n'.descendants.filter p) := by
  have hself : ∀ m : Node, Node.allDescendants [m] = m.descendants := fun m => List.append_nil _
  cases h with
  | same n => exact edited_refl _
  | inside name attributes h =>
    rw [← hself, ← hself]
    exact (Edit.inside name attributes [] h).filter_allDescendants hp

/-- A child that is looked up is there before and after, or neither before nor after. -/
theorem child? (h : Edited n n') (name : String) :
    (n.child? name = none ∧ n'.child? name = none) ∨
      ∃ c c', n.child? name = some c ∧ n'.child? name = some c' ∧ Edited c c' := by
  have hnamed := h.childrenNamed name
  rw [Documentation.child?_eq_head?, Documentation.child?_eq_head?]
  cases hbefore : n.childrenNamed name with
  | nil =>
    rw [hbefore, List.forall₂_nil_left_iff] at hnamed
    exact .inl ⟨rfl, by rw [hnamed]; rfl⟩
  | cons c cs =>
    rw [hbefore, List.forall₂_cons_left_iff] at hnamed
    obtain ⟨c', cs', hc, -, hafter⟩ := hnamed
    exact .inr ⟨c, c', rfl, by rw [hafter]; rfl, hc⟩

end Edited

end Xml

namespace Documentation

open Xml (Edit Edited IsElementTest SaysSame edited_refl isElementTest_isNamed)

variable {n n' : Node} {ns ns' : List Node} {tags : TagSettings}

/-! ## Lists of elements -/

section

variable {α : Type}

/-- What is read from each node of a list is the same after changes inside of them. -/
theorem map_eq_of_edited {f : Node → α} (hf : ∀ n n', Edited n n' → f n = f n')
    (h : List.Forall₂ Edited ns ns') : ns.map f = ns'.map f := by
  induction h with
  | nil => rfl
  | cons hn _ ih => rw [List.map_cons, List.map_cons, hf _ _ hn, ih]

/-- What is read from some nodes of a list is the same after changes inside of them. -/
theorem filterMap_eq_of_edited {f : Node → Option α} (hf : ∀ n n', Edited n n' → f n = f n')
    (h : List.Forall₂ Edited ns ns') : ns.filterMap f = ns'.filterMap f := by
  have hid : ∀ ms : List Node, ms.filterMap f = (ms.map f).filterMap id := fun ms => by
    rw [List.filterMap_map, Function.id_comp]
  rw [hid, hid, map_eq_of_edited hf h]

end

/-! ## Parts of a compound -/

/-- The text of the first child of a name is the same after a change. -/
theorem childText?_eq_of_edited (h : Edited n n') (name : String) :
    childText? n name = childText? n' name := by
  unfold childText?
  obtain ⟨hn, hn'⟩ | ⟨c, c', hn, hn', hc⟩ := h.child? name
  · rw [hn, hn']
  · rw [hn, hn', Option.bind_some, Option.bind_some, hc.content_eq]

/-- The file in which something is declared is the same after a change. -/
theorem location?_eq_of_edited (h : Edited n n') : location? n = location? n' := by
  unfold location?
  obtain ⟨hn, hn'⟩ | ⟨c, c', hn, hn', hc⟩ := h.child? "location"
  · rw [hn, hn']
  · rw [hn, hn', Option.bind_some, Option.bind_some, hc.attribute?_eq]

/-- A reference to a base is the same after a change. -/
theorem baseReference_eq_of_edited (h : Edited n n') : baseReference n = baseReference n' := by
  unfold baseReference
  obtain ⟨hn, hn'⟩ | ⟨c, c', hn, hn', hc⟩ := h.child? "basecompoundref"
  · rw [hn, hn']
  · rw [hn, hn']
    simp only [hc.attribute?_eq, hc.content_eq]

/-- The paragraphs of a description have the same texts after a change. -/
theorem paragraphs_eq_of_edited (h : Edited n n') : paragraphs n = paragraphs n' := by
  have hdescriptions : ∀ names : List String,
      List.Forall₂ Edited (names.filterMap n.child?) (names.filterMap n'.child?) := by
    intro names
    induction names with
    | nil => exact .nil
    | cons name names ih =>
      obtain ⟨hn, hn'⟩ | ⟨c, c', hn, hn', hc⟩ := h.child? name
      · rw [List.filterMap_cons_none hn, List.filterMap_cons_none hn']
        exact ih
      · rw [List.filterMap_cons_some hn, List.filterMap_cons_some hn']
        exact .cons hc ih
  refine map_eq_of_edited (fun _ _ hm => hm.content_eq) ?_
  exact List.rel_flatMap (hdescriptions _) fun _ _ hd => hd.childrenNamed "para"

/-! ## Enums -/

/-- Whether a node declares an enum is a matter of the element and its attributes. -/
theorem isElementTest_isEnumMember : IsElementTest isEnumMember where
  isElement n hn := by
    unfold isEnumMember at hn
    rw [Bool.and_eq_true] at hn
    exact (isElementTest_isNamed "memberdef").isElement n hn.1
  edited n n' h := by
    unfold isEnumMember
    rw [h.isNamed_eq, h.attribute?_eq]

/-- An enum is read in the same way after a change. -/
theorem enum?_eq_of_edited (scope : String) (h : Edited n n') : enum? scope n = enum? scope n' := by
  have hvalues : (n.childrenNamed "enumvalue").filterMap (fun v => childText? v "name") =
      (n'.childrenNamed "enumvalue").filterMap fun v => childText? v "name" :=
    filterMap_eq_of_edited (fun _ _ hv => childText?_eq_of_edited hv "name")
      (h.childrenNamed "enumvalue")
  unfold enum?
  rw [childText?_eq_of_edited h, location?_eq_of_edited h, hvalues, h.attribute?_eq,
    h.attribute?_eq]

/-- A compound declares the same enums after a change. -/
theorem enums_eq_of_edited (h : Edited n n') : enums n = enums n' := by
  have hmembers : ∀ scope, (n.descendants.filter isEnumMember).filterMap (enum? scope) =
      (n'.descendants.filter isEnumMember).filterMap (enum? scope) := fun scope =>
    filterMap_eq_of_edited (fun _ _ => enum?_eq_of_edited scope)
      (h.filter_descendants isElementTest_isEnumMember)
  unfold enums
  simp only [childText?_eq_of_edited h, hmembers]

/-! ## Classes -/

/-- What the type says about a property is the same after a change. -/
theorem withType_eq_of_edited (h : Edited n n') (p : Property) : withType n p = withType n' p := by
  unfold withType
  obtain ⟨hn, hn'⟩ | ⟨c, c', hn, hn', hc⟩ := h.child? "type"
  · rw [hn, hn']
  · rw [hn, hn']
    obtain ⟨hr, hr'⟩ | ⟨r, r', hr, hr', href⟩ := hc.child? "ref"
    · simp only [hc.content_eq, hr, hr']
    · simp only [hc.content_eq, hr, hr', Option.bind_some, href.attribute?_eq]

/-- A property is read in the same way after a change. -/
theorem property?_eq_of_edited (h : Edited n n') : property? tags n = property? tags n' := by
  unfold property?
  simp only [h.attribute?_eq, childText?_eq_of_edited h, paragraphs_eq_of_edited h,
    withType_eq_of_edited h]

/-- A class has the same members after a change, each perhaps changed inside. -/
theorem members_of_edited (h : Edited n n') : List.Forall₂ Edited (members n) (members n') :=
  List.rel_flatMap (h.childrenNamed "sectiondef") fun _ _ hs => hs.childrenNamed "memberdef"

/-- A class is read in the same way after a change. -/
theorem class?_eq_of_edited (kind : String) (h : Edited n n') :
    class? tags kind n = class? tags kind n' := by
  have htemplate : (n.child? "templateparamlist").isSome =
      (n'.child? "templateparamlist").isSome := by
    obtain ⟨hn, hn'⟩ | ⟨c, c', hn, hn', -⟩ := h.child? "templateparamlist"
    · rw [hn, hn']
    · rw [hn, hn', Option.isSome_some, Option.isSome_some]
  have hproperties : (members n).filterMap (property? tags) =
      (members n').filterMap (property? tags) :=
    filterMap_eq_of_edited (fun _ _ => property?_eq_of_edited) (members_of_edited h)
  have hinner : (n.childrenNamed "innerclass").filterMap (fun i => i.attribute? "refid") =
      (n'.childrenNamed "innerclass").filterMap fun i => i.attribute? "refid" :=
    filterMap_eq_of_edited (fun _ _ hi => hi.attribute?_eq "refid") (h.childrenNamed "innerclass")
  unfold class?
  simp only [h.attribute?_eq, childText?_eq_of_edited h, paragraphs_eq_of_edited h,
    location?_eq_of_edited h, baseReference_eq_of_edited h, htemplate, hproperties, hinner]

/-! ## Documents -/

/-- A compound declares the same, or is skipped for the same reason, after a change. -/
theorem compound_eq_of_edited (h : Edited n n') : compound tags n = compound tags n' := by
  unfold compound
  simp only [h.attribute?_eq, enums_eq_of_edited h, class?_eq_of_edited _ h]

/-- One change leaves what every compound declares, and what it lacks. -/
theorem map_compound_of_edit (h : Edit ns ns') :
    (compounds ns).map (compound tags) = (compounds ns').map (compound tags) :=
  map_eq_of_edited (fun _ _ => compound_eq_of_edited)
    (h.filter_allDescendants (isElementTest_isNamed "compounddef"))

/-- Documents that say the same have the same compounds in the same order: each one declares the same,
or lacks the same. -/
theorem compounds_of_saysSame (h : SaysSame ns ns') (tags : TagSettings) :
    (compounds ns).map (compound tags) = (compounds ns').map (compound tags) ∧
      declarations tags ns = declarations tags ns' := by
  have hcompounds : (compounds ns).map (compound tags) = (compounds ns').map (compound tags) := by
    induction h with
    | rel ns ns' h => exact map_compound_of_edit h
    | refl ns => rfl
    | symm ns ns' _ ih => exact ih.symm
    | trans ns ns' ns'' _ _ ih ih' => exact ih.trans ih'
  refine ⟨hcompounds, ?_⟩
  unfold declarations
  rw [hcompounds]

/-- A component whose name and whose marker are written in some pieces. -/
def componentDocument (name marker : List Node) : List Node :=
  [element "compounddef" [("kind", "class"), ("prot", "public"), ("id", "mesh")]
    [element "compoundname" [] name,
      element "detaileddescription" [] [element "para" [] marker]]]

/-- A change in the name of the component is one of its document. -/
theorem edit_name {name name' : List Node} (h : Edit name name') (marker : List Node) :
    Edit (componentDocument name marker) (componentDocument name' marker) :=
  .inside _ _ _ (.inside _ _ _ h)

/-- A change in the marker of the component is one of its document. -/
theorem edit_marker (name : List Node) {marker marker' : List Node} (h : Edit marker marker') :
    Edit (componentDocument name marker) (componentDocument name marker') :=
  .inside _ _ _ (.later _ (.inside _ _ _ (.inside _ _ _ h)))

/-- A name that is cut by a comment, and a marker that is cut by a comment and an instruction, are
recognised. -/
theorem compounds_cut_by_comments :
    let cut := componentDocument [.text "hect::Me", .comment "cut", .text "sh"]
      [.text "[compo", .comment "cut", .instruction "cut" "", .text "nent]"]
    SaysSame cut (componentDocument [.text "hect::Mesh"] [.text "[component]"]) ∧
      (declarations {} cut).result =
        [.classType
          { identifier := some "mesh", qualifiedName := "hect::Mesh", role := .component }] := by
  intro cut
  have hname : ∀ marker,
      SaysSame (componentDocument [.text "hect::Me", .comment "cut", .text "sh"] marker)
        (componentDocument [.text "hect::Mesh"] marker) := fun marker =>
    .trans _ _ _ (.rel _ _ (edit_name (.later _ (.comment "cut" [.text "sh"])) marker))
      (.rel _ _ (edit_name (.text "hect::Me" "sh" []) marker))
  have hmarker : ∀ name,
      SaysSame (componentDocument name
          [.text "[compo", .comment "cut", .instruction "cut" "", .text "nent]"])
        (componentDocument name [.text "[component]"]) := fun name =>
    .trans _ _ _ (.rel _ _ (edit_marker name (.later _ (.comment "cut" _))))
      (.trans _ _ _ (.rel _ _ (edit_marker name (.later _ (.instruction "cut" "" _))))
        (.rel _ _ (edit_marker name (.text "[compo" "nent]" []))))
  have hsame := Relation.EqvGen.trans _ _ _ (hname _) (hmarker _)
  refine ⟨hsame, ?_⟩
  rw [(compounds_of_saysSame hsame {}).2]
  decide

end Documentation

end Registrar
