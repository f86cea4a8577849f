/-
# The spelling of a path

A path is spelled by its components with a slash between each two, and the spelling is read back as
these components: the root is a slash itself, so that two slashes stand in front of an absolute path
and count as one, a `.` at the front stays there, and no other component reads as a `.`.  A path
behind a base is spelled relative to it as if there were no base.
-/
import Registrar.Proofs.Path.Segments

namespace Registrar

namespace Component

theorem IsSegment.toList_spelling_ne {c : Component} (h : c.IsSegment) :
    c.spelling.toList ≠ [] ∧ c.spelling.toList ≠ ['.'] := by
  constructor
  · intro hempty
    have hmeans := h.2
    rw [hempty] at hmeans
    exact absurd hmeans (by simp [ofPiece?])
  · intro hdot
    have hmeans := h.2
    rw [hdot] at hmeans
    exact absurd hmeans (by simp [ofPiece?])

/-- Segments are read back piece by piece. -/
theorem filterMap_ofPiece?_spelling {cs : List Component} (h : ∀ c ∈ cs, c.IsSegment) :
    (cs.map fun c => c.spelling.toList).filterMap ofPiece? = cs := by
  induction cs with
  | nil => rfl
  | cons c cs ih =>
    rw [List.map_cons, List.filterMap_cons_some (h c List.mem_cons_self).2,
      ih fun d hd => h d (List.mem_cons_of_mem c hd)]

end Component

namespace Path

/-! ## What stands in front of the segments -/

/-- The root of an absolute path, or the `.` at the front of a relative one. -/
def lead (p : Path) : List Component :=
  if p.isAbsolute then [.root] else if p.pieces.head? = some ['.'] then [.current] else []

theorem components_eq (p : Path) : p.components = p.lead ++ p.segments := by
  unfold components lead segments
  split
  · rfl
  · split
    · next rest hpieces =>
      rw [hpieces]
      rfl
    · next hother =>
      have hhead : p.pieces.head? ≠ some ['.'] := by
        intro hdot
        obtain ⟨rest, hpieces⟩ := List.head?_eq_some_iff.1 hdot
        exact hother rest hpieces
      rw [if_neg hhead]
      rfl

/-- The steps of a path are its segments, behind the root if it is absolute. -/
theorem steps_eq (p : Path) :
    p.steps = (if p.isAbsolute then [.root] else []) ++ p.segments := by
  have hsegments : p.segments.filter (fun c => c ≠ .current) = p.segments := by
    rw [List.filter_eq_self]
    exact fun c hc => decide_eq_true (isSegment_of_mem_segments hc).ne_current
  rw [steps, components_eq, List.filter_append, hsegments]
  unfold lead
  split
  · rfl
  · split <;> rfl

theorem head?_pieces_of_isAbsolute {p : Path} (hp : p.isAbsolute = true) :
    p.pieces.head? = some [] := by
  obtain ⟨cs, hcs⟩ := List.head?_eq_some_iff.1 (of_decide_eq_true hp)
  rw [pieces, hcs, Chars.splitOn, if_pos rfl]
  rfl

/-- A path whose first piece is not empty is relative. -/
theorem lead_of_head?_pieces {p : Path} {piece : List Char} (h : p.pieces.head? = some piece)
    (hpiece : piece ≠ []) : p.lead = if piece = ['.'] then [.current] else [] := by
  have hp : p.isAbsolute ≠ true := by
    intro habsolute
    rw [head?_pieces_of_isAbsolute habsolute] at h
    exact hpiece (Option.some.inj h).symm
  rw [lead, if_neg hp, h]
  simp only [Option.some.injEq]

/-- The last piece of a path that is empty or ends in a slash is empty. -/
theorem getLast?_pieces_of_endsInSlash {p : Path}
    (hp : (p.text.isEmpty || p.endsInSlash) = true) : p.pieces.getLast? = some [] := by
  rcases Bool.or_eq_true_iff.1 hp with hempty | hslash
  · have htext : p.text.toList = [] := by simpa using hempty
    rw [pieces, htext]
    rfl
  · obtain ⟨cs, hcs⟩ := List.getLast?_eq_some_iff.1 (of_decide_eq_true hslash)
    rw [pieces, hcs, Chars.splitOn_append_cons]
    exact List.getLast?_concat

/-! ## Reading a spelling -/

theorem toList_includeSpelling (p : Path) :
    p.includeSpelling.toList =
      ['/'].intercalate ((p.lead ++ p.segments).map fun c => c.spelling.toList) := by
  rw [includeSpelling, String.toList_intercalate, components_eq, List.map_map]
  rfl

/-- The pieces of joined components are these components, as long as the root is not among them. -/
theorem splitOn_intercalate_spelling {cs : List Component} (hne : cs ≠ [])
    (h : ∀ c ∈ cs, '/' ∉ c.spelling.toList) :
    Chars.splitOn '/' (['/'].intercalate (cs.map fun c => c.spelling.toList)) =
      cs.map fun c => c.spelling.toList := by
  apply Chars.splitOn_intercalate (by simpa using hne)
  intro piece hpiece
  obtain ⟨c, hc, rfl⟩ := List.mem_map.1 hpiece
  exact h c hc

/-- The spelling of an absolute path begins at the root and has the same segments. -/
theorem components_includeSpelling_of_isAbsolute {p : Path} (hp : p.isAbsolute = true) :
    (⟨p.includeSpelling⟩ : Path).components = p.components := by
  have hlead : p.lead = [.root] := if_pos hp
  have htext := p.toList_includeSpelling
  rw [hlead, List.singleton_append, List.map_cons] at htext
  by_cases hsegments : p.segments = []
  · rw [hsegments, List.map_nil, List.intercalate_singleton] at htext
    have hroot : p.includeSpelling = "/" := String.toList_inj.1 htext
    rw [hroot, components_eq p, hlead, hsegments]
    rfl
  · rw [List.intercalate_cons_of_ne_nil (by simpa using hsegments)] at htext
    have habsolute : (⟨p.includeSpelling⟩ : Path).isAbsolute = true := by
      apply decide_eq_true
      rw [htext]
      rfl
    have hread : (⟨p.includeSpelling⟩ : Path).segments = p.segments := by
      have hslash : ∀ c ∈ p.segments, '/' ∉ c.spelling.toList := fun c hc =>
        (isSegment_of_mem_segments hc).1
      have hpieces : (⟨p.includeSpelling⟩ : Path).pieces =
          [] :: [] :: p.segments.map fun c => c.spelling.toList := by
        rw [pieces, htext, List.append_assoc, List.singleton_append,
          Chars.splitOn_append_cons, splitOn_intercalate_spelling hsegments hslash]
        rfl
      rw [segments, hpieces]
      exact Component.filterMap_ofPiece?_spelling fun c hc => isSegment_of_mem_segments hc
    rw [components_of_isAbsolute habsolute, components_of_isAbsolute hp, hread]

/-- The spelling of a relative path begins with a `.` if the path does, and has the same segments.
-/
theorem components_includeSpelling_of_relative {p : Path} (hp : p.isAbsolute = false) :
    (⟨p.includeSpelling⟩ : Path).components = p.components := by
  by_cases hempty : p.components = []
  · rw [includeSpelling, hempty]
    rfl
  · rw [components_eq] at hempty
    have hsegment : ∀ c ∈ p.segments, c.IsSegment := fun c hc => isSegment_of_mem_segments hc
    have hlead : p.lead = [.current] ∨ p.lead = [] := by
      rw [lead, hp, if_neg (by simp)]
      split
      · exact .inl rfl
      · exact .inr rfl
    have hslash : ∀ c ∈ p.lead ++ p.segments, '/' ∉ c.spelling.toList := by
      intro c hc
      rcases List.mem_append.1 hc with hc | hc
      · rcases hlead with hlead | hlead <;> rw [hlead] at hc
        · rw [List.mem_singleton.1 hc]
          decide
        · exact absurd hc List.not_mem_nil
      · exact (hsegment c hc).1
    have hpieces : (⟨p.includeSpelling⟩ : Path).pieces =
        (p.lead ++ p.segments).map fun c => c.spelling.toList := by
      rw [pieces, toList_includeSpelling, splitOn_intercalate_spelling hempty hslash]
    rw [components_eq, components_eq]
    -- the first piece is a `.` or else belongs to a segment: it is neither empty nor a further `.`
    rcases hlead with hlead | hlead <;> rw [hlead] at hpieces hempty ⊢
    · have hread : (⟨p.includeSpelling⟩ : Path).lead = [.current] :=
        lead_of_head?_pieces (by rw [hpieces]; rfl) (List.cons_ne_nil '.' [])
      rw [hread, segments, hpieces, List.map_append, List.filterMap_append,
        Component.filterMap_ofPiece?_spelling hsegment]
      rfl
    · rw [List.nil_append] at hpieces hempty
      obtain ⟨c, cs, hcs⟩ := List.exists_cons_of_ne_nil hempty
      obtain ⟨hne, hdot⟩ := (hsegment c (by rw [hcs]; exact List.mem_cons_self)).toList_spelling_ne
      have hread : (⟨p.includeSpelling⟩ : Path).lead = [] := by
        rw [lead_of_head?_pieces (by rw [hpieces, hcs]; rfl) hne, if_neg hdot]
      rw [hread, segments, hpieces, Component.filterMap_ofPiece?_spelling hsegment]

/-- The spelling of a path has the components of the path. -/
theorem components_includeSpelling (p : Path) :
    (⟨p.includeSpelling⟩ : Path).components = p.components := by
  cases hp : p.isAbsolute with
  | true => exact components_includeSpelling_of_isAbsolute hp
  | false => exact components_includeSpelling_of_relative hp

theorem includeSpelling_congr {p q : Path} (h : p.components = q.components) :
    p.includeSpelling = q.includeSpelling := by
  rw [includeSpelling, includeSpelling, h]

/-! ## A path behind a base -/

/-- Segments that are written one behind the other have a slash between each two. -/
theorem toList_text_ofComponents {cs : List Component} (h : ∀ c ∈ cs, c.IsSegment) :
    (ofComponents cs).text.toList = ['/'].intercalate (cs.map fun c => c.spelling.toList) := by
  induction cs using List.reverseRecOn with
  | nil => rfl
  | append_singleton cs c ih =>
    have hc : c.IsSegment := h c (by simp)
    have hcs : ∀ d ∈ cs, d.IsSegment := fun d hd => h d (List.mem_append_left [c] hd)
    have htext := ih hcs
    have hrelative : (⟨c.spelling⟩ : Path).isAbsolute ≠ true := by
      rw [isAbsolute_of_notMem hc.1]
      simp
    have hlast : ofComponents (cs ++ [c]) = (ofComponents cs).join ⟨c.spelling⟩ :=
      List.foldl_append
    rw [hlast, join, if_neg hrelative, List.map_append, List.map_singleton]
    rcases List.eq_nil_or_concat cs with rfl | ⟨front, d, hd⟩
    · show ("" ++ c.spelling).toList = _
      rw [String.empty_append, List.map_nil, List.nil_append, List.intercalate_singleton]
    · rw [List.concat_eq_append] at hd
      have hd' : d ∈ cs := by simp [hd]
      have hmap : (cs.map fun c => c.spelling.toList) ≠ [] := by simp [hd]
      have hpieces : (ofComponents cs).pieces = cs.map fun c => c.spelling.toList := by
        rw [pieces, htext, splitOn_intercalate_spelling (by simp [hd]) fun c hc => (hcs c hc).1]
      -- the last segment is not empty, so a slash is put behind it
      have hends : ¬ ((ofComponents cs).text.isEmpty || (ofComponents cs).endsInSlash) = true := by
        intro hends
        have hempty := getLast?_pieces_of_endsInSlash hends
        rw [hpieces, hd, List.map_append, List.map_singleton, List.getLast?_concat] at hempty
        exact (hcs d hd').toList_spelling_ne.1 (Option.some.inj hempty)
      rw [if_neg hends, String.toList_append, String.toList_append, htext,
        Chars.intercalate_concat '/' hmap, List.append_assoc]
      rfl

theorem dropCommon_append_self (xs ys : List Component) :
    dropCommon (xs ++ ys) xs = (ys, []) := by
  induction xs with
  | nil => cases ys <;> rfl
  | cons x xs ih =>
    rw [List.cons_append, dropCommon, if_pos rfl, ih]

/-- Relative to its base, a path behind the base consists of the segments that are written behind
it. -/
theorem relativeTo_join {r : Path} (hr : r.isAbsolute = false) (base : Path) :
    (base.join r).relativeTo base = ofComponents r.segments := by
  have hjoin : (base.join r).isAbsolute = base.isAbsolute ∧
      (base.join r).segments = base.segments ++ r.segments := by
    by_cases hbase : base.text = ""
    · obtain rfl : base = ⟨""⟩ := by
        cases base
        rw [← hbase]
      have hself : (⟨""⟩ : Path).join r = r := by
        rw [join, if_neg (by rw [hr]; simp), if_pos (by rfl), String.empty_append]
      rw [hself]
      exact ⟨hr, rfl⟩
    · exact ⟨isAbsolute_join_of_ne hbase hr, segments_join hbase hr⟩
  have hsteps : (base.join r).steps = base.steps ++ r.segments := by
    rw [steps_eq, steps_eq, hjoin.1, hjoin.2, List.append_assoc]
  rw [relativeTo, if_neg (by simp [hjoin.1]), hsteps, dropCommon_append_self]
  rfl

/-- A path behind a base is spelled relative to it as it is spelled itself. -/
theorem includeSpelling_relativeTo_join {r : Path} (hr : r.isAbsolute = false)
    (hcurrent : r.components.head? ≠ some .current) (base : Path) :
    ((base.join r).relativeTo base).includeSpelling = r.includeSpelling := by
  have hlead : r.lead = [] := by
    rw [components_eq] at hcurrent
    unfold lead at hcurrent ⊢
    rw [hr, if_neg (by simp)] at hcurrent ⊢
    split at hcurrent
    · exact absurd rfl hcurrent
    · next hdot => exact if_neg hdot
  have hsegments : ofComponents r.segments = ⟨r.includeSpelling⟩ := by
    have htext : (ofComponents r.segments).text = r.includeSpelling := by
      rw [← String.toList_inj, toList_includeSpelling, hlead, List.nil_append]
      exact toList_text_ofComponents fun c hc => isSegment_of_mem_segments hc
    rw [← htext]
  rw [relativeTo_join hr, hsegments]
  exact includeSpelling_congr (components_includeSpelling r)

/-- The spelling of a path is read back as the components of the path.  So two paths are spelled
alike exactly if they have the same components, and a spelling is its own spelling.  A relative path
that does not begin with a `.` is spelled the same as seen from any base that it is written behind.
-/
theorem includeSpelling_faithful :
    (∀ p : Path, (⟨p.includeSpelling⟩ : Path).components = p.components) ∧
      (∀ p q : Path, p.includeSpelling = q.includeSpelling ↔ p.components = q.components) ∧
      (∀ p : Path, (⟨p.includeSpelling⟩ : Path).includeSpelling = p.includeSpelling) ∧
      ∀ base r : Path, r.isAbsolute = false → r.components.head? ≠ some .current →
        ((base.join r).relativeTo base).includeSpelling = r.includeSpelling := by
  refine ⟨components_includeSpelling, fun p q => ⟨fun h => ?_, includeSpelling_congr⟩,
    fun p => includeSpelling_congr (components_includeSpelling p),
    fun base r hr hcurrent => includeSpelling_relativeTo_join hr hcurrent base⟩
  rw [← components_includeSpelling p, h, components_includeSpelling q]

/-- A `..` in the base or in the path is no obstacle. -/
theorem includeSpelling_faithful_parent :
    (⟨"../src//./a.h"⟩ : Path).isAbsolute = false ∧
      (⟨"../src//./a.h"⟩ : Path).components.head? ≠ some .current ∧
      (((⟨"./gen/../out/"⟩ : Path).join ⟨"../src//./a.h"⟩).relativeTo
        ⟨"./gen/../out/"⟩).includeSpelling = (⟨"../src//./a.h"⟩ : Path).includeSpelling :=
  ⟨by decide, by decide, includeSpelling_faithful.2.2.2 _ _ (by decide) (by decide)⟩

end Path

end Registrar
