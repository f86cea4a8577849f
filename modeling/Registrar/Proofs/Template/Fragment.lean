/-
# Templates as fragments

The text of a template is put together of plain texts and placeholders.  If it is, then so is what it
renders to, with a value in the place of each placeholder, whatever the values are.
-/
import Registrar.Proofs.Template.Reading
import Registrar.Proofs.Text.Lines
import Registrar.Template.Set

namespace Registrar

/-- A part of a line of a template: a plain text, or a placeholder. -/
inductive Fragment where
  | text (s : String)
  | key (k : String)
  deriving DecidableEq, Repr

namespace Fragment

/-- How a fragment is written in a template. -/
def source : Fragment → String
  | text s => s
  | key k => "$(" ++ k ++ ")"

/-- A plain text starts no placeholder, and a placeholder has a key. -/
def isPlain : Fragment → Bool
  | text s => s.toList.all (· ≠ '$')
  | key k => !k.toList.isEmpty && k.toList.all Template.isKeyPart

/-- What a fragment is read as. -/
def pieces : Fragment → List Template.Piece
  | text s => s.toList.map .literal
  | key k => [.placeholder k.toList]

/-- Whether the values have one for a fragment. -/
def hasValue (values : Values) : Fragment → Bool
  | text _ => true
  | key k => (values.lookup k).isSome

/-- What stands in the place of a fragment. -/
def fill (values : Values) : Fragment → String
  | text s => s
  | key k => (values.lookup k).getD ""

end Fragment

namespace Template

/-! ## How fragments are read -/

theorem pieces_append_of_notMem {cs : List Char} (hcs : '$' ∉ cs) (rest : List Char) :
    pieces (cs ++ rest) = cs.map .literal ++ pieces rest := by
  induction cs with
  | nil => rfl
  | cons c cs ih =>
    have hc : c ≠ '$' := fun h => hcs (h ▸ List.mem_cons_self)
    rw [List.cons_append, pieces_cons_of_ne hc, ih fun h => hcs (List.mem_cons_of_mem c h)]
    rfl

/-- A text of fragments is read fragment by fragment. -/
theorem pieces_fragments {fs : List Fragment} (hfs : ∀ f ∈ fs, f.isPlain = true) :
    pieces (fs.flatMap fun f => f.source.toList) = fs.flatMap Fragment.pieces := by
  induction fs with
  | nil =>
    rw [List.flatMap_nil, pieces_nil]
    rfl
  | cons f fs ih =>
    have hf := hfs f List.mem_cons_self
    rw [List.flatMap_cons, List.flatMap_cons, ← ih fun g hg => hfs g (List.mem_cons_of_mem f hg)]
    cases f with
    | text s =>
      have hs : '$' ∉ s.toList := fun h => by simpa using List.all_eq_true.1 hf '$' h
      exact pieces_append_of_notMem hs _
    | key k =>
      have hsource : (Fragment.key k).source.toList = opening ++ (k.toList ++ [')']) := by
        simp [Fragment.source, opening]
      rw [hsource, List.append_assoc, List.append_assoc]
      exact pieces_opening_of_some (key?_append ((isKey_iff k.toList).1 hf) _)


/-! ## What fragments render to -/

/-- Fragments that have values are filled fragment by fragment. -/
theorem fillPieces_fragments (name : String) {values : Values} {fs : List Fragment}
    (hfs : ∀ f ∈ fs, f.hasValue values = true) :
    fillPieces name values (fs.flatMap Fragment.pieces) =
      .ok (fs.flatMap fun f => (f.fill values).toList) := by
  induction fs with
  | nil => rfl
  | cons f fs ih =>
    have hrest := ih fun g hg => hfs g (List.mem_cons_of_mem f hg)
    have hf := hfs f List.mem_cons_self
    cases f with
    | text s =>
      show fillPieces name values (s.toList.map .literal ++ fs.flatMap Fragment.pieces) = _
      rw [fillPieces_literals_append, hrest]
      rfl
    | key k =>
      obtain ⟨v, hv⟩ := Option.isSome_iff_exists.1 hf
      have hlookup : values.lookup (String.ofList k.toList) = some v := by
        rw [String.ofList_toList, hv]
      show fillPieces name values (.placeholder k.toList :: fs.flatMap Fragment.pieces) = _
      rw [fillPieces_placeholder_of_some name values hlookup, hrest, List.flatMap_cons,
        Fragment.fill, hv]
      rfl

/-! ## Lines of fragments -/

/-- Lines of fragments with a line feed between each two of them. -/
def joinFragments (ls : List (List Fragment)) : List Fragment :=
  [Fragment.text "\n"].intercalate ls

/-- Writing joined lines of fragments is joining the written lines. -/
theorem flatMap_joinFragments {write : Fragment → String} (hwrite : write (.text "\n") = "\n")
    (ls : List (List Fragment)) :
    ((joinFragments ls).flatMap fun f => (write f).toList) =
      (Text.joinLines (ls.map fun l => String.join (l.map write))).toList := by
  rw [Text.toList_joinLines, List.map_map]
  induction ls with
  | nil => rfl
  | cons l ls ih =>
    have hl : (String.join (l.map write)).toList = l.flatMap fun f => (write f).toList := by
      rw [String.toList_join, List.flatMap_map]
    -- only between two lines there is a line feed
    cases ls with
    | nil =>
      rw [joinFragments, List.intercalate_singleton, List.map_singleton, Chars.joinLines_singleton]
      exact hl.symm
    | cons l' ls =>
      have hne : (l' :: ls).map (String.toList ∘ fun l => String.join (l.map write)) ≠ [] := by
        simp
      rw [joinFragments] at ih ⊢
      rw [List.intercalate_cons_cons, List.flatMap_append, List.flatMap_append, ih,
        List.map_cons (a := l), Chars.joinLines_cons hne, Function.comp_apply, hl,
        List.flatMap_singleton, hwrite]
      exact List.append_assoc _ _ _

theorem mem_joinFragments {ls : List (List Fragment)} {f : Fragment}
    (hf : f ∈ joinFragments ls) : f = .text "\n" ∨ ∃ l ∈ ls, f ∈ l := by
  induction ls with
  | nil => exact absurd hf (by simp [joinFragments])
  | cons l ls ih =>
    cases ls with
    | nil =>
      rw [joinFragments, List.intercalate_singleton] at hf
      exact .inr ⟨l, List.mem_cons_self, hf⟩
    | cons l' ls =>
      rw [joinFragments] at ih hf
      rw [List.intercalate_cons_cons, List.mem_append, List.mem_append,
        List.mem_singleton] at hf
      rcases hf with (hf | hf) | hf
      · exact .inr ⟨l, List.mem_cons_self, hf⟩
      · exact .inl hf
      · rcases ih hf with h | ⟨x, hx, hfx⟩
        · exact .inl h
        · exact .inr ⟨x, List.mem_cons_of_mem l hx, hfx⟩

/-- A template that is written as lines of fragments renders to these lines with a value in the place
of each placeholder, if there is a value for each of them. -/
theorem render_eq_joinLines {t : Template} {ls : List (List Fragment)} {values : Values}
    (ht : t.text = Text.joinLines (ls.map fun l => String.join (l.map Fragment.source)))
    (hplain : (ls.all fun l => l.all Fragment.isPlain) = true)
    (hvalue : (ls.all fun l => l.all (Fragment.hasValue values)) = true) :
    t.render values =
      .ok (Text.joinLines (ls.map fun l => String.join (l.map (Fragment.fill values)))) := by
  have hplain' : ∀ f ∈ joinFragments ls, f.isPlain = true := by
    intro f hf
    rcases mem_joinFragments hf with rfl | ⟨l, hl, hfl⟩
    · decide
    · exact List.all_eq_true.1 (List.all_eq_true.1 hplain l hl) f hfl
  have hvalue' : ∀ f ∈ joinFragments ls, f.hasValue values = true := by
    intro f hf
    rcases mem_joinFragments hf with rfl | ⟨l, hl, hfl⟩
    · rfl
    · exact List.all_eq_true.1 (List.all_eq_true.1 hvalue l hl) f hfl
  rw [render, renderText_eq_fillPieces, ht, ← flatMap_joinFragments rfl, pieces_fragments hplain',
    fillPieces_fragments t.name hvalue', flatMap_joinFragments rfl]
  exact congrArg Except.ok String.ofList_toList

end Template

namespace TemplateSet

/-- A template of a set that is written as lines of fragments renders to given lines if these are
what the fragments are filled to. -/
theorem render_eq_joinLines {s : TemplateSet} {name known text : String} {values : Values}
    {out : List String} (ls : List (List Fragment)) (hget : s.get name = .ok ⟨known, text⟩)
    (ht : text = Text.joinLines (ls.map fun l => String.join (l.map Fragment.source)))
    (hplain : (ls.all fun l => l.all Fragment.isPlain) = true)
    (hvalue : (ls.all fun l => l.all (Fragment.hasValue values)) = true)
    (hout : (ls.map fun l => String.join (l.map (Fragment.fill values))) = out) :
    s.render name values = .ok (Text.joinLines out) := by
  rw [render, hget, ← hout]
  show Template.render ⟨known, text⟩ values = _
  exact Template.render_eq_joinLines ht hplain hvalue

/-- The same of a template of one line. -/
theorem render_eq_line {s : TemplateSet} {name known text : String} {values : Values}
    {out : String} (l : List Fragment) (hget : s.get name = .ok ⟨known, text⟩)
    (ht : text = String.join (l.map Fragment.source)) (hplain : l.all Fragment.isPlain = true)
    (hvalue : l.all (Fragment.hasValue values) = true)
    (hout : String.join (l.map (Fragment.fill values)) = out) :
    s.render name values = .ok out := by
  have hlines : s.render name values = .ok (Text.joinLines [out]) :=
    render_eq_joinLines [l] hget (ht.trans (Text.joinLines_singleton _).symm)
      (by simpa using hplain) (by simpa using hvalue) (congrArg (fun x => [x]) hout)
  rwa [Text.joinLines_singleton] at hlines

end TemplateSet

end Registrar
