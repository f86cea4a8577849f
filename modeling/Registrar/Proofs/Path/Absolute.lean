/-
# Paths as seen from the root

A path as seen from an absolute directory is absolute.  It has the segments of the path, behind
those of the directory if the path is relative.
-/
import Registrar.Proofs.Path.Segments

namespace Registrar

namespace Path

/-! ## A name behind a path -/

/-- An absolute name stands for itself behind any path. -/
theorem div_of_isAbsolute (p : Path) {name : String} (h : (⟨name⟩ : Path).isAbsolute = true) :
    p / name = ⟨name⟩ :=
  if_pos h

/-- A relative name behind a path adds its segments. -/
theorem segments_div_of_relative {p : Path} (hp : p.text ≠ "") {name : String}
    (h : (⟨name⟩ : Path).isAbsolute = false) :
    (p / name).segments = p.segments ++ (⟨name⟩ : Path).segments :=
  segments_join hp h

theorem segments_foldl_div (p : Path) {cs : List Component} (h : ∀ c ∈ cs, c.IsSegment) :
    (cs.foldl (fun q c => q / c.spelling) p).segments = p.segments ++ cs := by
  induction cs generalizing p with
  | nil => exact (List.append_nil _).symm
  | cons c cs ih =>
    rw [List.foldl_cons, ih _ fun d hd => h d (List.mem_cons_of_mem c hd),
      segments_div p (h c List.mem_cons_self), List.append_assoc]
    rfl

/-- A slash behind a path adds no segment. -/
theorem segments_div_empty {p : Path} (hp : p.text ≠ "") : (p / "").segments = p.segments :=
  (segments_div_of_relative hp rfl).trans (List.append_nil _)

/-! ## A path behind an absolute one -/

/-- The components of a path are its segments, apart from what stands at the front. -/
theorem filter_components (p : Path) :
    p.components.filter (fun c => c ≠ .root ∧ c ≠ .current) = p.segments := by
  have hsegments : p.segments.filter (fun c => c ≠ .root ∧ c ≠ .current) = p.segments := by
    rw [List.filter_eq_self]
    intro c hc
    have hsegment := isSegment_of_mem_segments hc
    exact decide_eq_true ⟨hsegment.ne_root, hsegment.ne_current⟩
  cases hp : p.isAbsolute with
  | true =>
    rw [components_of_isAbsolute hp, List.filter_cons_of_neg (by simp)]
    exact hsegments
  | false =>
    unfold components
    rw [hp, if_neg (by simp)]
    split
    · next rest hpieces =>
      have hrest : p.segments = rest.filterMap Component.ofPiece? := by
        unfold segments
        rw [hpieces]
        rfl
      rw [List.filter_cons_of_neg (by simp), ← hrest]
      exact hsegments
    · exact hsegments

theorem isAbsolute_foldl_div {p : Path} (hp : p.isAbsolute = true) (cs : List Component) :
    (cs.foldl (fun q c => q / c.spelling) p).isAbsolute = true := by
  induction cs generalizing p with
  | nil => exact hp
  | cons c cs ih => exact ih (isAbsolute_div hp c.spelling)

/-- A path as seen from an absolute directory begins there, or at the root if it is absolute, and
goes on with its segments. -/
theorem exists_start_of_absolute? {base p q : Path} (hbase : base.isAbsolute = true)
    (h : absolute? base p = some q) :
    ∃ start : Path, start.isAbsolute = true ∧
      start.segments = (if p.isAbsolute then [] else base.segments) ∧
      (q = p.segments.foldl (fun q c => q / c.spelling) start ∨
        q = p.segments.foldl (fun q c => q / c.spelling) start / "") := by
  have hends : ∀ start : Path,
      q = (if p.endsInSlash then p.segments.foldl (fun q c => q / c.spelling) start / ""
        else p.segments.foldl (fun q c => q / c.spelling) start) →
      (q = p.segments.foldl (fun q c => q / c.spelling) start ∨
        q = p.segments.foldl (fun q c => q / c.spelling) start / "") := by
    intro start hq
    split at hq
    · exact .inr hq
    · exact .inl hq
  unfold absolute? at h
  split at h
  · exact absurd h (by simp)
  · simp only [filter_components, Option.some.injEq] at h
    refine ⟨_, ?_, ?_, hends _ h.symm⟩
    · repeat' split
      all_goals first | exact hbase | rfl
    · -- one slash or two at the front make no segment
      cases p.isAbsolute with
      | false => rfl
      | true =>
        rw [if_neg (by simp), if_pos rfl]
        repeat' split
        all_goals rfl

theorem isAbsolute_of_absolute? {base p q : Path} (hbase : base.isAbsolute = true)
    (h : absolute? base p = some q) : q.isAbsolute = true := by
  obtain ⟨start, hstart, -, rfl | rfl⟩ := exists_start_of_absolute? hbase h
  · exact isAbsolute_foldl_div hstart _
  · exact isAbsolute_div (isAbsolute_foldl_div hstart _) ""

theorem segments_of_absolute? {base p q : Path} (hbase : base.isAbsolute = true)
    (h : absolute? base p = some q) :
    q.segments = (if p.isAbsolute then [] else base.segments) ++ p.segments := by
  obtain ⟨start, hstart, hsegments, hq⟩ := exists_start_of_absolute? hbase h
  have hfold := segments_foldl_div start fun c (hc : c ∈ p.segments) => isSegment_of_mem_segments hc
  rw [← hsegments, ← hfold]
  rcases hq with rfl | rfl
  · rfl
  · exact segments_div_empty (text_ne_of_isAbsolute (isAbsolute_foldl_div hstart _))

end Path

end Registrar
