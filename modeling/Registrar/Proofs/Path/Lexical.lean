/-
# The lexical place of a path

The place that an absolute path names when only its text is read: a `.` stays, a `..` takes back
the name before it and stays at the root.  A path that is written relative to a base leads from the
base back to its own place unless a `..` stands in the base behind the front that the two have in
common: going up once for every component of the base then goes above that front.
-/
import Registrar.Proofs.Path.Segments

namespace Registrar

namespace Component

/-- The place that one reaches from another one by a component, the root being the empty list. -/
def advance : List String → Component → List String
  | _, root => []
  | place, current => place
  | place, parent => place.dropLast
  | place, name text => place ++ [text]

end Component

open Component (advance)

namespace Path

/-- The place that an absolute path names, as far as its text tells. -/
def lexical (p : Path) : List String :=
  p.components.foldl advance []

/-! ## What components do to a place -/

/-- What a list of components does to the place that it starts at. -/
structure Drift where
  /-- How many names of the start are taken away. -/
  up : Nat
  /-- The names that are written behind what is left of it. -/
  down : List String
  deriving DecidableEq, Repr

namespace Drift

/-- A further component: a `..` takes back a name of the list itself as long as there is one. -/
def push (d : Drift) : Component → Drift
  | .root => d
  | .current => d
  | .parent => if d.down = [] then { d with up := d.up + 1 } else { d with down := d.down.dropLast }
  | .name text => { d with down := d.down ++ [text] }

/-- What components do, one after the other. -/
def ofList (cs : List Component) : Drift :=
  cs.foldl push ⟨0, []⟩

/-- The place that a drift leads to. -/
def apply (d : Drift) (place : List String) : List String :=
  place.take (place.length - d.up) ++ d.down

theorem ofList_append_singleton (cs : List Component) (c : Component) :
    ofList (cs ++ [c]) = (ofList cs).push c :=
  List.foldl_append

/-- A `..` takes back the last name that is left, or else one more name of the start. -/
theorem push_parent (d : Drift) : d.push .parent =
    if d.down = [] then { d with up := d.up + 1 } else { d with down := d.down.dropLast } :=
  rfl

theorem apply_push (d : Drift) (place : List String) {c : Component} (hc : c ≠ .root) :
    (d.push c).apply place = advance (d.apply place) c := by
  cases c with
  | root => exact absurd rfl hc
  | current => rfl
  | parent =>
    rw [push_parent]
    split
    · next hdown =>
      have hleft : (place.take (place.length - d.up)).dropLast =
          place.take (place.length - (d.up + 1)) := by
        rw [List.dropLast_eq_take, List.length_take, List.take_take]
        congr 1
        omega
      show place.take (place.length - (d.up + 1)) ++ d.down =
        (place.take (place.length - d.up) ++ d.down).dropLast
      rw [hdown, List.append_nil, List.append_nil, hleft]
    · next hdown => exact (List.dropLast_append_of_ne_nil hdown).symm
  | name text => exact (List.append_assoc ..).symm

/-- Following components that do not go back to the root is what their drift says. -/
theorem foldl_advance {cs : List Component} (h : ∀ c ∈ cs, c ≠ .root) (place : List String) :
    cs.foldl advance place = (ofList cs).apply place := by
  induction cs using List.reverseRecOn with
  | nil =>
    show place = place.take (place.length - 0) ++ []
    rw [Nat.sub_zero, List.take_length, List.append_nil]
  | append_singleton cs c ih =>
    have hcs := ih fun d hd => h d (List.mem_append_left [c] hd)
    have hc : c ≠ .root := h c (by simp)
    rw [List.foldl_append, hcs, ofList_append_singleton, apply_push _ _ hc]
    rfl

/-- Taking fewer names away leaves more of the place, up to the point where nothing is left. -/
theorem apply_take_eq_iff (d : Drift) (place : List String) (k : Nat) :
    d.apply (place.take (place.length - k)) = d.apply place ↔ k = 0 ∨ place.length ≤ d.up := by
  unfold apply
  rw [List.append_cancel_right_eq, List.length_take, List.take_take]
  constructor
  · intro h
    have hlength := congrArg List.length h
    rw [List.length_take, List.length_take] at hlength
    omega
  · intro h
    congr 1
    omega

/-! ## Going down and up again -/

/-- Every name that a list of components leaves behind is one of its components. -/
theorem length_down_le (cs : List Component) : (ofList cs).down.length ≤ cs.length := by
  induction cs using List.reverseRecOn with
  | nil => exact Nat.le_refl 0
  | append_singleton cs c ih =>
    rw [ofList_append_singleton, List.length_append, List.length_singleton]
    cases c with
    | root => exact Nat.le_succ_of_le ih
    | current => exact Nat.le_succ_of_le ih
    | parent =>
      rw [push_parent]
      split
      · exact Nat.le_succ_of_le ih
      · rw [List.length_dropLast]
        omega
    | name text =>
      show ((ofList cs).down ++ [text]).length ≤ cs.length + 1
      rw [List.length_append, List.length_singleton]
      omega

/-- A list of components leaves as many names as it has components only if it takes none back, and
then it takes nothing of its start away either. -/
theorem length_down_eq_iff {cs : List Component} (h : ∀ c ∈ cs, c.IsSegment) :
    (ofList cs).down.length = cs.length ∧ (ofList cs).up = 0 ↔ .parent ∉ cs := by
  -- from the end, since a `..` takes back what was left before it
  induction cs using List.reverseRecOn with
  | nil => exact ⟨fun _ => List.not_mem_nil, fun _ => ⟨rfl, rfl⟩⟩
  | append_singleton cs c ih =>
    have hcs := ih fun d hd => h d (List.mem_append_left [c] hd)
    have hle := length_down_le cs
    have hsegment : c.IsSegment := h c (by simp)
    rw [ofList_append_singleton, List.length_append, List.length_singleton, List.mem_append,
      not_or, ← hcs, List.mem_singleton]
    cases c with
    | root => exact absurd rfl hsegment.ne_root
    | current => exact absurd rfl hsegment.ne_current
    | parent =>
      have hshort : ((ofList cs).push .parent).down.length ≤ (ofList cs).down.length := by
        rw [push_parent]
        split
        · exact Nat.le_refl _
        · rw [List.length_dropLast]
          omega
      constructor
      · rintro ⟨hlength, -⟩
        omega
      · rintro ⟨-, hne⟩
        exact absurd rfl hne
    | name text =>
      show ((ofList cs).down ++ [text]).length = cs.length + 1 ∧ (ofList cs).up = 0 ↔ _
      rw [List.length_append, List.length_singleton, Nat.add_right_cancel_iff]
      exact ⟨fun hboth => ⟨hboth, by simp⟩, fun hboth => hboth.1⟩

/-- Going up `k` times takes back what the components have left, and what remains of the way up
takes names of the start away. -/
theorem ofList_append_parents (cs : List Component) (k : Nat) :
    ofList (cs ++ List.replicate k .parent) =
      ⟨(ofList cs).up + (k - (ofList cs).down.length),
        (ofList cs).down.take ((ofList cs).down.length - k)⟩ := by
  induction k with
  | zero =>
    rw [List.replicate_zero, List.append_nil, Nat.zero_sub, Nat.sub_zero, List.take_length]
    rfl
  | succ k ih =>
    rw [List.replicate_succ', ← List.append_assoc, ofList_append_singleton, ih]
    -- as long as there are names left, a `..` takes one of them, and then names of the start
    rw [push_parent]
    split
    · next hdown =>
      have hshort : (ofList cs).down.length ≤ k := by
        have hlength := congrArg List.length hdown
        rw [List.length_take, List.length_nil] at hlength
        omega
      have hnone : (ofList cs).down.length - (k + 1) = (ofList cs).down.length - k := by omega
      have hmore : k + 1 - (ofList cs).down.length = k - (ofList cs).down.length + 1 := by omega
      rw [hnone, hmore]
      rfl
    · next hdown =>
      have hlong : k < (ofList cs).down.length := by
        by_contra hle
        have hzero : (ofList cs).down.length - k = 0 := by omega
        rw [hzero] at hdown
        exact hdown rfl
      have hfew : k + 1 - (ofList cs).down.length = k - (ofList cs).down.length := by omega
      rw [hfew, List.dropLast_eq_take, List.length_take, List.take_take]
      congr 2
      omega

/-- Going down by some components and up once for each of them takes nothing from the start exactly
if no `..` is among them, and leaves no name behind. -/
theorem exists_ofList_append_parents {cs : List Component} (h : ∀ c ∈ cs, c.IsSegment) :
    ∃ k, ofList (cs ++ List.replicate cs.length .parent) = ⟨k, []⟩ ∧
      (k = 0 ↔ .parent ∉ cs) := by
  have hle := length_down_le cs
  have hzero : (ofList cs).down.length - cs.length = 0 := by omega
  refine ⟨(ofList cs).up + (cs.length - (ofList cs).down.length), ?_, ?_⟩
  · rw [ofList_append_parents, hzero]
    rfl
  · rw [← length_down_eq_iff h]
    omega

end Drift

/-! ## The way from a base -/

/-- The front that two lists of components have in common. -/
def commonFront : List Component → List Component → List Component
  | a :: as, b :: bs => if a = b then a :: commonFront as bs else []
  | _, _ => []

/-- The common front is what `dropCommon` takes away. -/
theorem commonFront_append (as bs : List Component) :
    commonFront as bs ++ (dropCommon as bs).1 = as ∧
      commonFront as bs ++ (dropCommon as bs).2 = bs := by
  fun_induction dropCommon as bs with
  | case1 a as bs ih =>
    obtain ⟨hleft, hright⟩ := ih
    rw [commonFront, if_pos rfl, List.cons_append, List.cons_append, hleft, hright]
    exact ⟨rfl, rfl⟩
  | case2 a as b bs hne =>
    rw [commonFront, if_neg hne]
    exact ⟨rfl, rfl⟩
  | case3 as bs hnil =>
    have hempty : commonFront as bs = [] := by
      cases as with
      | nil => rfl
      | cons a as =>
        cases bs with
        | nil => rfl
        | cons b bs => exact absurd rfl (hnil a as b bs rfl)
    rw [hempty]
    exact ⟨rfl, rfl⟩

/-- What two paths do not share consists of segments. -/
theorem isSegment_of_mem_dropCommon (p q : Path) :
    (∀ c ∈ (dropCommon p.segments q.segments).1, c.IsSegment) ∧
      ∀ c ∈ (dropCommon p.segments q.segments).2, c.IsSegment := by
  obtain ⟨hleft, hright⟩ := commonFront_append p.segments q.segments
  constructor
  · intro c hc
    refine isSegment_of_mem_segments (p := p) ?_
    rw [← hleft]
    exact List.mem_append_right _ hc
  · intro c hc
    refine isSegment_of_mem_segments (p := q) ?_
    rw [← hright]
    exact List.mem_append_right _ hc

/-- The components that two absolute paths do not share stand behind their roots. -/
theorem dropCommon_steps {p q : Path} (hp : p.isAbsolute = true) (hq : q.isAbsolute = true) :
    dropCommon p.steps q.steps = dropCommon p.segments q.segments := by
  rw [steps_of_isAbsolute hp, steps_of_isAbsolute hq]
  exact if_pos rfl

theorem lexical_of_isAbsolute {p : Path} (hp : p.isAbsolute = true) :
    p.lexical = p.segments.foldl advance [] := by
  unfold lexical
  rw [components_of_isAbsolute hp]
  rfl

/-- The segments of a relative path: once up for every component of the base behind the common
front, then down to the path. -/
theorem segments_relativeTo {p base : Path} (hp : p.isAbsolute = true)
    (hbase : base.isAbsolute = true) :
    (p.relativeTo base).isAbsolute = false ∧ (p.relativeTo base).segments =
      List.replicate (dropCommon p.segments base.segments).2.length .parent ++
        (dropCommon p.segments base.segments).1 := by
  have hrelative : p.relativeTo base = ofComponents
      (List.replicate (dropCommon p.segments base.segments).2.length .parent ++
        (dropCommon p.segments base.segments).1) := by
    unfold relativeTo
    rw [if_neg (by rw [hp, hbase]; simp), dropCommon_steps hp hbase]
    simp only [List.map_const']
  rw [hrelative]
  refine segments_ofComponents fun c hc => ?_
  rcases List.mem_append.1 hc with hc | hc
  · rw [List.eq_of_mem_replicate hc]
    exact Component.isSegment_parent
  · exact (isSegment_of_mem_dropCommon p base).1 c hc

/-- Behind the base, the relative path leads to where the components of the path that are not shared
lead from the shared place, or from a place above it if a `..` is among the components of the base
that are not shared. -/
theorem exists_lexical_join_relativeTo {p base : Path} (hp : p.isAbsolute = true)
    (hbase : base.isAbsolute = true) :
    ∃ k, (k = 0 ↔ .parent ∉ (dropCommon p.segments base.segments).2) ∧
      ∀ place, (commonFront p.segments base.segments).foldl advance [] = place →
        (base.join (p.relativeTo base)).lexical =
          (Drift.ofList (dropCommon p.segments base.segments).1).apply
            (place.take (place.length - k)) := by
  obtain ⟨hpathParts, hbaseParts⟩ := commonFront_append p.segments base.segments
  obtain ⟨hdownSegments, hupSegments⟩ := isSegment_of_mem_dropCommon p base
  obtain ⟨hrelative, hsegments⟩ := segments_relativeTo hp hbase
  generalize commonFront p.segments base.segments = front at hpathParts hbaseParts ⊢
  generalize (dropCommon p.segments base.segments).1 = down at *
  generalize (dropCommon p.segments base.segments).2 = up at *
  obtain ⟨k, hlift, hk⟩ := Drift.exists_ofList_append_parents hupSegments
  refine ⟨k, hk, fun place hplace => ?_⟩
  have hback : ∀ c ∈ up ++ List.replicate up.length .parent, c ≠ .root := by
    intro c hc
    rcases List.mem_append.1 hc with hc | hc
    · exact (hupSegments c hc).ne_root
    · rw [List.eq_of_mem_replicate hc]
      exact Component.isSegment_parent.ne_root
  rw [lexical_of_isAbsolute (isAbsolute_join hbase _),
    segments_join (text_ne_of_isAbsolute hbase) hrelative, hsegments, ← hbaseParts]
  -- the way goes down the rest of the base, back up, and down the rest of the path
  have hway : front ++ up ++ (List.replicate up.length .parent ++ down) =
      front ++ ((up ++ List.replicate up.length .parent) ++ down) := by
    simp only [List.append_assoc]
  rw [hway, List.foldl_append, List.foldl_append, hplace, Drift.foldl_advance hback, hlift,
    Drift.foldl_advance fun c hc => (hdownSegments c hc).ne_root]
  congr 1
  exact List.append_nil _

/-- A path that is written relative to a base leads from the base to the place that the path itself
names if no `..` stands in the base behind the front that they have in common, or if the path goes
up to the root behind that front, and in no other case. -/
theorem lexical_join_relativeTo_iff {p base : Path} (hp : p.isAbsolute = true)
    (hbase : base.isAbsolute = true) :
    (base.join (p.relativeTo base)).lexical = p.lexical ↔
      .parent ∉ (dropCommon p.segments base.segments).2 ∨
        ((commonFront p.segments base.segments).foldl advance []).length ≤
          (Drift.ofList (dropCommon p.segments base.segments).1).up := by
  obtain ⟨k, hk, hjoin⟩ := exists_lexical_join_relativeTo hp hbase
  have hparts := (commonFront_append p.segments base.segments).1
  have hroot : ∀ c ∈ (dropCommon p.segments base.segments).1, c ≠ .root :=
    fun c hc => ((isSegment_of_mem_dropCommon p base).1 c hc).ne_root
  have hself : p.lexical = (Drift.ofList (dropCommon p.segments base.segments).1).apply
      ((commonFront p.segments base.segments).foldl advance []) := by
    rw [lexical_of_isAbsolute hp, ← Drift.foldl_advance hroot, ← List.foldl_append, hparts]
  rw [hjoin _ rfl, hself, Drift.apply_take_eq_iff, hk]

/-- A `..` in the front that a path and its base have in common is no obstacle. -/
theorem lexical_join_relativeTo_shared_parent :
    (⟨"/c/../lib//src/./a.h"⟩ : Path).isAbsolute = true ∧
      (⟨"/c/../lib/out/./gen/"⟩ : Path).isAbsolute = true ∧
      ((⟨"/c/../lib/out/./gen/"⟩ : Path).join
        (relativeTo ⟨"/c/../lib//src/./a.h"⟩ ⟨"/c/../lib/out/./gen/"⟩)).lexical =
          (⟨"/c/../lib//src/./a.h"⟩ : Path).lexical :=
  ⟨by decide, by decide,
    (lexical_join_relativeTo_iff (by decide) (by decide)).2 (Or.inl (by decide))⟩

/-- A `..` behind the common front is one: `../../a.h` leads from `/c/x/..` to `/a.h`. -/
theorem lexical_join_relativeTo_ne :
    (⟨"/c/a.h"⟩ : Path).isAbsolute = true ∧ (⟨"/c/x/.."⟩ : Path).isAbsolute = true ∧
      relativeTo ⟨"/c/a.h"⟩ ⟨"/c/x/.."⟩ = ⟨"../../a.h"⟩ ∧
      ((⟨"/c/x/.."⟩ : Path).join (relativeTo ⟨"/c/a.h"⟩ ⟨"/c/x/.."⟩)).lexical ≠
        (⟨"/c/a.h"⟩ : Path).lexical := by
  decide

end Path

end Registrar
