/-
# The segments of a path

What the pieces of a path mean past its front.  A path that is joined from segments has these
segments, and a relative path behind an absolute one adds its segments to it.
-/
import Mathlib.Data.List.Induction
import Registrar.Path.Relative
import Registrar.Proofs.Path.Pieces

namespace Registrar

namespace Component

/-- A component that is read back from the way it is written wherever it stands in a path. -/
def IsSegment (c : Component) : Prop :=
  '/' ∉ c.spelling.toList ∧ ofPiece? c.spelling.toList = some c

theorem isSegment_parent : parent.IsSegment :=
  ⟨by decide, rfl⟩

/-- What a piece means is written as the piece is. -/
theorem toList_spelling {piece : List Char} {c : Component} (h : ofPiece? piece = some c) :
    c.spelling.toList = piece := by
  unfold ofPiece? at h
  split at h
  · exact absurd h (by simp)
  · split at h
    · exact absurd h (by simp)
    · split at h
      · next hparent =>
        rw [← Option.some.inj h, hparent]
        rfl
      · rw [← Option.some.inj h]
        exact String.toList_ofList

/-- What a piece without a slash means is read back from the way it is written. -/
theorem isSegment_of_ofPiece? {piece : List Char} {c : Component} (hslash : '/' ∉ piece)
    (h : ofPiece? piece = some c) : c.IsSegment := by
  have hpiece := toList_spelling h
  exact ⟨hpiece ▸ hslash, hpiece.symm ▸ h⟩

/-- No segment is the root. -/
theorem IsSegment.ne_root {c : Component} (h : c.IsSegment) : c ≠ root := by
  rintro rfl
  exact h.1 (by decide)

theorem IsSegment.ne_current {c : Component} (h : c.IsSegment) : c ≠ current := by
  rintro rfl
  exact absurd h.2 (by decide)

end Component

namespace Path

/-- What the pieces of a path mean past its front. -/
def segments (p : Path) : List Component :=
  p.pieces.filterMap Component.ofPiece?

/-- The segments of a path are segments. -/
theorem isSegment_of_mem_segments {p : Path} {c : Component} (h : c ∈ p.segments) :
    c.IsSegment := by
  obtain ⟨piece, hpiece, hc⟩ := List.mem_filterMap.1 h
  exact Component.isSegment_of_ofPiece? (Chars.notMem_of_mem_splitOn hpiece) hc

/-- What is written in a segment is written in the path. -/
theorem mem_text_of_mem_segments {p : Path} {c : Component} (hc : c ∈ p.segments) {a : Char}
    (ha : a ∈ c.spelling.toList) : a ∈ p.text.toList := by
  obtain ⟨piece, hpiece, hmeans⟩ := List.mem_filterMap.1 hc
  have hslash : a ≠ '/' := by
    rintro rfl
    exact (isSegment_of_mem_segments hc).1 ha
  rw [Component.toList_spelling hmeans] at ha
  exact (Chars.mem_iff_of_ne hslash _).2 ⟨piece, hpiece, ha⟩

/-- What is written in a path besides slashes and dots is written in its segments. -/
theorem exists_mem_segments {p : Path} {a : Char} (hslash : a ≠ '/') (hdot : a ≠ '.')
    (ha : a ∈ p.text.toList) : ∃ c ∈ p.segments, a ∈ c.spelling.toList := by
  obtain ⟨piece, hpiece, ha⟩ := (Chars.mem_iff_of_ne hslash _).1 ha
  have hmeans : Component.ofPiece? piece ≠ none := by
    unfold Component.ofPiece?
    rw [if_neg (List.ne_nil_of_mem ha), if_neg (by rintro rfl; simp [hdot] at ha)]
    split <;> simp
  obtain ⟨c, hc⟩ := Option.ne_none_iff_exists'.1 hmeans
  refine ⟨c, List.mem_filterMap.2 ⟨piece, hpiece, hc⟩, ?_⟩
  rw [Component.toList_spelling hc]
  exact ha

/-- The components of an absolute path are the root and its segments. -/
theorem components_of_isAbsolute {p : Path} (hp : p.isAbsolute = true) :
    p.components = .root :: p.segments :=
  if_pos hp

/-- The steps of an absolute path are all of its components. -/
theorem steps_of_isAbsolute {p : Path} (hp : p.isAbsolute = true) :
    p.steps = .root :: p.segments := by
  unfold steps
  rw [components_of_isAbsolute hp, List.filter_eq_self]
  intro c hc
  rcases List.mem_cons.1 hc with rfl | hc
  · rfl
  · exact decide_eq_true (isSegment_of_mem_segments hc).ne_current

/-! ## A path behind another one -/

theorem text_ne_of_isAbsolute {p : Path} (hp : p.isAbsolute = true) : p.text ≠ "" := by
  intro hempty
  unfold isAbsolute at hp
  rw [hempty] at hp
  exact absurd hp (by decide)

/-- What is written behind a path with a text has one. -/
theorem text_join_ne {p : Path} (hp : p.text ≠ "") (q : Path) : (p.join q).text ≠ "" := by
  unfold join
  split
  · next hq => exact text_ne_of_isAbsolute hq
  · split <;> simp [hp]

/-- A relative path behind a path that is not empty adds its segments. -/
theorem segments_join {p q : Path} (hp : p.text ≠ "") (hq : q.isAbsolute = false) :
    (p.join q).segments = p.segments ++ q.segments := by
  have hnone : List.filterMap Component.ofPiece? [[]] = [] := rfl
  obtain ⟨pieces, hpieces, hjoin⟩ := pieces_join hp hq
  unfold segments
  rw [hjoin, List.filterMap_append]
  rcases hpieces with hpieces | hpieces
  · rw [hpieces]
  · rw [hpieces, List.filterMap_append, hnone, List.append_nil]

/-- A relative path behind an absolute one gives an absolute path. -/
theorem isAbsolute_join {p : Path} (hp : p.isAbsolute = true) (q : Path) :
    (p.join q).isAbsolute = true :=
  isAbsolute_div hp q.text

/-! ## Joining segments -/

/-- A segment that is written behind a path comes last. -/
theorem segments_div (p : Path) {c : Component} (hc : c.IsSegment) :
    (p / c.spelling).segments = p.segments ++ [c] := by
  have hname : (⟨c.spelling⟩ : Path).segments = [c] := by
    show List.filterMap Component.ofPiece? (Chars.splitOn '/' c.spelling.toList) = [c]
    rw [Chars.splitOn_of_notMem hc.1]
    simp [hc.2]
  have hrelative : (⟨c.spelling⟩ : Path).isAbsolute = false := isAbsolute_of_notMem hc.1
  show (p.join ⟨c.spelling⟩).segments = _
  by_cases hp : p.text = ""
  · obtain rfl : p = ⟨""⟩ := by
      cases p
      rw [← hp]
    unfold join
    rw [if_neg (by rw [hrelative]; simp), if_pos (by rfl), String.empty_append, hname]
    rfl
  · rw [segments_join hp hrelative, hname]

/-- A path that begins with a segment is relative. -/
theorem isAbsolute_div_eq_false {p : Path} (hp : p.isAbsolute = false) {c : Component}
    (hc : c.IsSegment) : (p / c.spelling).isAbsolute = false := by
  by_cases hempty : p.text = ""
  · obtain rfl : p = ⟨""⟩ := by
      cases p
      rw [← hempty]
    show ((⟨""⟩ : Path).join ⟨c.spelling⟩).isAbsolute = false
    have hrelative : (⟨c.spelling⟩ : Path).isAbsolute = false := isAbsolute_of_notMem hc.1
    unfold join
    rw [if_neg (by rw [hrelative]; simp), if_pos (by rfl), String.empty_append]
    exact hrelative
  · rw [isAbsolute_div_of_ne hempty hc.1]
    exact hp

/-- A path that is joined from segments is relative and has just these segments. -/
theorem segments_ofComponents {cs : List Component} (h : ∀ c ∈ cs, c.IsSegment) :
    (ofComponents cs).isAbsolute = false ∧ (ofComponents cs).segments = cs := by
  induction cs using List.reverseRecOn with
  | nil => exact ⟨rfl, rfl⟩
  | append_singleton cs c ih =>
    have hc : c.IsSegment := h c (by simp)
    obtain ⟨hrelative, hsegments⟩ := ih fun d hd => h d (List.mem_append_left [c] hd)
    have hlast : ofComponents (cs ++ [c]) = ofComponents cs / c.spelling :=
      List.foldl_append
    rw [hlast]
    refine ⟨isAbsolute_div_eq_false hrelative hc, ?_⟩
    rw [segments_div _ hc, hsegments]

end Path

end Registrar
