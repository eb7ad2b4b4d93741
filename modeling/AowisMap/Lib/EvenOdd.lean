/-
The even-odd rule: whether a point is inside a closed chain of segments,
by the parity of the segments that a ray to the east of it crosses.

# What moves change

A point that moves without meeting the chain stays on its side. To the
east or west no crossing changes (`crossesRay_horizontal`). To the north
or south the crossings of one segment change with the ends that lie east
of the way and beside it (`crossesRay_vertical`), and around a closed
chain each vertex ends two segments (`parity_vertices`).
-/
import Mathlib.Data.List.Zip
import AowisMap.Lib.Segments

namespace AowisMap.Lib.EvenOdd

open Segments

variable {K P : Type*} [Field K] [LinearOrder K]

-- ============================================================= the rule

/-- Whether the ray to the east of a point crosses a segment. -/
def crossesRay (x y : P → K) (u v : K) (a b : P) : Bool :=
  (decide (v < y a) != decide (v < y b)) &&
    decide (u < (x b - x a) * (v - y a) / (y b - y a) + x a)

/-- Whether an odd number of segments has a property. -/
def parity (f : P → P → Bool) (edges : List (P × P)) : Bool :=
  edges.foldl (fun odd edge => if f edge.1 edge.2 then !odd else odd) false

/-- The segments of a closed chain: each vertex with the one before it,
the first one with the last one. -/
def cycle (ring : List P) : List (P × P) :=
  match ring.getLast? with
  | some last => ring.zip (last :: ring)
  | none => []

/-- The even-odd rule. -/
def inside (x y : P → K) (ring : List P) (u v : K) : Bool :=
  parity (crossesRay x y u v) (cycle ring)

-- ============================================================== parities

section

variable {f g : P → P → Bool} {edges : List (P × P)}

omit [Field K] [LinearOrder K] in
theorem foldl_parity {odd : Bool} :
    edges.foldl (fun odd edge => if f edge.1 edge.2 then !odd else odd) odd
      = (odd ^^ parity f edges) := by
  induction edges generalizing odd with
  | nil => exact (Bool.xor_false odd).symm
  | cons edge rest ih =>
      unfold parity
      rw [List.foldl_cons, List.foldl_cons, ih, ih]
      cases f edge.1 edge.2 with
      | true =>
          simp only [if_true, Bool.not_false, Bool.true_xor]
          cases odd with
          | true => simp
          | false => simp
      | false => simp

omit [Field K] [LinearOrder K] in
theorem parity_cons (edge : P × P) :
    parity f (edge :: edges) = (f edge.1 edge.2 ^^ parity f edges) := by
  unfold parity
  rw [List.foldl_cons, foldl_parity]
  cases f edge.1 edge.2 with
  | true => rfl
  | false => rfl

omit [Field K] [LinearOrder K] in
theorem parity_congr
    (h : ∀ edge ∈ edges, f edge.1 edge.2 = g edge.1 edge.2) :
    parity f edges = parity g edges := by
  induction edges with
  | nil => rfl
  | cons edge rest ih =>
      rw [parity_cons, parity_cons, h edge List.mem_cons_self,
        ih fun other hmem => h other (List.mem_cons_of_mem _ hmem)]

omit [Field K] [LinearOrder K] in
theorem parity_xor :
    parity (fun a b => f a b ^^ g a b) edges
      = (parity f edges ^^ parity g edges) := by
  induction edges with
  | nil => rfl
  | cons edge rest ih =>
      rw [parity_cons, parity_cons, parity_cons, ih]
      cases f edge.1 edge.2 with
      | true => cases g edge.1 edge.2 with
        | true => simp
        | false => simp
      | false => cases g edge.1 edge.2 with
        | true => simp
        | false => simp

omit [Field K] [LinearOrder K] in
theorem parity_none (h : ∀ edge ∈ edges, f edge.1 edge.2 = false) :
    parity f edges = false := by
  induction edges with
  | nil => rfl
  | cons edge rest ih =>
      rw [parity_cons, h edge List.mem_cons_self,
        ih fun other hmem => h other (List.mem_cons_of_mem _ hmem)]
      rfl

theorem xor_telescope (p q r : Bool) :
    ((p ^^ q) ^^ (r ^^ p)) = (r ^^ q) := by
  revert p q r
  decide

omit [Field K] [LinearOrder K] in
/-- A property of vertices is had twice around a closed chain. -/
theorem parity_vertices (w : P → Bool) (ring : List P) :
    parity (fun a b => w a ^^ w b) (cycle ring) = false := by
  have hchain : ∀ (rest : List P) (before : P),
      parity (fun a b => w a ^^ w b) (rest.zip (before :: rest))
        = (w ((before :: rest).getLast (List.cons_ne_nil _ _))
          ^^ w before) := by
    intro rest
    induction rest with
    | nil =>
        intro before
        exact (Bool.xor_self _).symm
    | cons first rest ih =>
        intro before
        rw [List.zip_cons_cons, parity_cons, ih first,
          List.getLast_cons_cons]
        exact xor_telescope _ _ _
  unfold cycle
  split
  · rename_i last hlast
    rw [hchain ring last]
    cases ring with
    | nil => cases hlast
    | cons first rest =>
        rw [List.getLast_cons_cons]
        rw [List.getLast?_eq_some_getLast (List.cons_ne_nil _ _)] at hlast
        rw [Option.some.inj hlast, Bool.xor_self]
  · rfl

end

-- =========================================================== one segment

section

variable [IsStrictOrderedRing K] {x y : P → K} {a b : P} {u v w : K}

/-- The point at which a segment has a height between those of its ends.
-/
theorem on_crossing (h : (decide (v < y a) != decide (v < y b)) = true) :
    On x y a b ((x b - x a) * (v - y a) / (y b - y a) + x a) v := by
  have hne : y b - y a ≠ 0 := by
    intro hzero
    have hsame : y b = y a := by linarith
    rw [hsame] at h
    simp at h
  have hsteps : ∀ {low high : K}, low ≤ v → v < high →
      0 ≤ (v - low) / (high - low) ∧ (v - low) / (high - low) ≤ 1 := by
    intro low high hlow hhigh
    have hpos : 0 < high - low := by linarith
    exact ⟨div_nonneg (by linarith) hpos.le, (div_le_one hpos).2 (by linarith)⟩
  refine ⟨(v - y a) / (y b - y a), ?_, ?_, by ring, ?_⟩
  · rcases lt_or_ge v (y a) with hbelow | habove
    · have hb : y b ≤ v := by
        by_contra hcontra
        simp [hbelow, not_le.1 hcontra] at h
      rw [← neg_div_neg_eq]
      exact div_nonneg (by linarith) (by linarith)
    · have hb : v < y b := by
        by_contra hcontra
        simp [not_lt.2 habove, hcontra] at h
      exact (hsteps habove hb).1
  · rcases lt_or_ge v (y a) with hbelow | habove
    · have hb : y b ≤ v := by
        by_contra hcontra
        simp [hbelow, not_le.1 hcontra] at h
      rw [← neg_div_neg_eq, div_le_one (by linarith)]
      linarith
    · have hb : v < y b := by
        by_contra hcontra
        simp [not_lt.2 habove, hcontra] at h
      exact (hsteps habove hb).2
  · rw [div_mul_cancel₀ _ hne]
    ring

omit [IsStrictOrderedRing K] in
/-- A segment that begins where it ends is never crossed. -/
theorem crossesRay_self : crossesRay x y u v a a = false := by
  unfold crossesRay
  rw [bne_self_eq_false, Bool.false_and]

/-- The direction of a segment does not matter. -/
theorem crossesRay_comm :
    crossesRay x y u v a b = crossesRay x y u v b a := by
  unfold crossesRay
  rw [bne_comm]
  cases hspan : (decide (v < y b) != decide (v < y a)) with
  | false => rfl
  | true =>
      have hne : y b - y a ≠ 0 := by
        intro hzero
        have hsame : y b = y a := by linarith
        rw [hsame] at hspan
        simp at hspan
      have hne' : y a - y b ≠ 0 := fun hzero => hne (by linarith)
      have hsame : (x b - x a) * (v - y a) / (y b - y a) + x a
          = (x a - x b) * (v - y b) / (y a - y b) + x b := by
        field_simp
        ring
      rw [hsame]

/-- Moving to the east without meeting a segment. -/
theorem crossesRay_horizontal {u' : K} (hle : u ≤ u')
    (hfree : ∀ s, u ≤ s → s ≤ u' → ¬ On x y a b s v) :
    crossesRay x y u v a b = crossesRay x y u' v a b := by
  unfold crossesRay
  cases hspan : (decide (v < y a) != decide (v < y b)) with
  | false => rfl
  | true =>
      rw [Bool.true_and, Bool.true_and, decide_eq_decide]
      have hon := on_crossing (x := x) hspan
      constructor
      · intro hlt
        by_contra hcontra
        exact hfree _ hlt.le (not_lt.1 hcontra) hon
      · exact fun hlt => lt_of_le_of_lt hle hlt

/-- A segment east of a point is crossed if the point's height is between
those of its ends. -/
theorem crossesRay_east (ha : u < x a) (hb : u < x b) :
    crossesRay x y u v a b = (decide (v < y a) != decide (v < y b)) := by
  unfold crossesRay
  cases hspan : (decide (v < y a) != decide (v < y b)) with
  | false => rfl
  | true =>
      obtain ⟨t, hlow, hhigh, hu, -⟩ := on_crossing (x := x) hspan
      rw [Bool.true_and, decide_eq_true_eq, hu]
      rcases lt_or_eq_of_le hlow with hpos | rfl
      · have h₁ : t * u < t * x b := mul_lt_mul_of_pos_left hb hpos
        have h₂ : (1 - t) * u ≤ (1 - t) * x a :=
          mul_le_mul_of_nonneg_left ha.le (by linarith)
        linarith
      · linarith

/-- A segment that is not east of a point is not crossed. -/
theorem crossesRay_west (ha : x a ≤ u) (hb : x b ≤ u) :
    crossesRay x y u v a b = false := by
  unfold crossesRay
  cases hspan : (decide (v < y a) != decide (v < y b)) with
  | false => rfl
  | true =>
      obtain ⟨t, hlow, hhigh, hu, -⟩ := on_crossing (x := x) hspan
      rw [Bool.true_and, decide_eq_false_iff_not, hu, not_lt]
      have h₁ : t * x b ≤ t * u := mul_le_mul_of_nonneg_left hb hlow
      have h₂ : (1 - t) * x a ≤ (1 - t) * u :=
        mul_le_mul_of_nonneg_left ha (by linarith)
      linarith

/-- The height of a segment that goes to the east, at a point's longitude:
below it, the segment is crossed if its eastern end is not above. -/
theorem crossesRay_through (ha : x a ≤ u) (hb : u < x b) :
    ∃ height, On x y a b u height ∧
      (v < height → crossesRay x y u v a b = !decide (v < y b)) ∧
      (height < v → crossesRay x y u v a b = decide (v < y b)) := by
  have hpos : 0 < x b - x a := by linarith
  have hne : x b - x a ≠ 0 := hpos.ne'
  obtain ⟨t, ht⟩ : ∃ t, t = (u - x a) / (x b - x a) := ⟨_, rfl⟩
  have hlow : 0 ≤ t := ht ▸ div_nonneg (by linarith) hpos.le
  have hhigh : t < 1 := ht ▸ (div_lt_one hpos).2 (by linarith)
  have hu : u = x a + t * (x b - x a) := by
    rw [ht, div_mul_cancel₀ _ hne]
    ring
  -- the height, and what is left of the rise behind it
  have hrest : ∀ {height}, height = y a + t * (y b - y a) →
      y b - height = (1 - t) * (y b - y a) := by
    intro height hheight
    rw [hheight]
    ring
  -- the sign of what decides the crossing
  have hsign : ∀ {height}, height = y a + t * (y b - y a) →
      y b - y a ≠ 0 →
      (x b - x a) * (v - y a) / (y b - y a) + x a - u
        = (x b - x a) * ((v - height) / (y b - y a)) := by
    intro height hheight hrise
    rw [hu, hheight]
    field_simp
    ring
  refine ⟨y a + t * (y b - y a), ⟨t, hlow, hhigh.le, hu, rfl⟩, ?_, ?_⟩
  · intro hbelow
    generalize hheight : y a + t * (y b - y a) = height at hbelow
    have hrest := hrest hheight.symm
    have hsign := hsign hheight.symm
    unfold crossesRay
    by_cases hvb : v < y b
    · rw [decide_eq_true hvb, Bool.not_true, Bool.and_eq_false_iff]
      by_cases hva : v < y a
      · exact Or.inl (by rw [decide_eq_true hva]; rfl)
      · right
        have hrise : 0 < y b - y a := by linarith
        have hquot : (v - height) / (y b - y a) ≤ 0 :=
          div_nonpos_of_nonpos_of_nonneg (by linarith) hrise.le
        have hprod := mul_nonpos_of_nonneg_of_nonpos hpos.le hquot
        rw [decide_eq_false_iff_not, not_lt]
        have hsign := hsign hrise.ne'
        linarith
    · rw [decide_eq_false hvb, Bool.not_false, Bool.and_eq_true]
      have hfall : y b - y a < 0 := by
        by_contra hcontra
        have hprod : 0 ≤ (1 - t) * (y b - y a) :=
          mul_nonneg (by linarith) (not_lt.1 hcontra)
        linarith
      have hva : v < y a := by
        have hstep := mul_nonpos_of_nonneg_of_nonpos hlow hfall.le
        linarith
      refine ⟨by rw [decide_eq_true hva]; rfl, ?_⟩
      have hquot : 0 < (v - height) / (y b - y a) :=
        div_pos_of_neg_of_neg (by linarith) hfall
      have hprod := mul_pos hpos hquot
      have hsign := hsign hfall.ne
      rw [decide_eq_true_eq]
      linarith
  · intro habove
    generalize hheight : y a + t * (y b - y a) = height at habove
    have hrest := hrest hheight.symm
    have hsign := hsign hheight.symm
    unfold crossesRay
    by_cases hvb : v < y b
    · rw [decide_eq_true hvb, Bool.and_eq_true]
      have hrise : 0 < y b - y a := by
        by_contra hcontra
        have hprod : (1 - t) * (y b - y a) ≤ 0 :=
          mul_nonpos_of_nonneg_of_nonpos (by linarith) (not_lt.1 hcontra)
        linarith
      have hva : ¬ v < y a := by
        have hstep := mul_nonneg hlow hrise.le
        linarith
      refine ⟨by rw [decide_eq_false hva]; rfl, ?_⟩
      have hquot : 0 < (v - height) / (y b - y a) :=
        div_pos (by linarith) hrise
      have hprod := mul_pos hpos hquot
      have hsign := hsign hrise.ne'
      rw [decide_eq_true_eq]
      linarith
    · rw [decide_eq_false hvb, Bool.and_eq_false_iff]
      by_cases hva : v < y a
      · right
        have hfall : y b - y a < 0 := by linarith
        have hquot : (v - height) / (y b - y a) ≤ 0 :=
          div_nonpos_of_nonneg_of_nonpos (by linarith) hfall.le
        have hprod := mul_nonpos_of_nonneg_of_nonpos hpos.le hquot
        rw [decide_eq_false_iff_not, not_lt]
        have hsign := hsign hfall.ne
        linarith
      · exact Or.inl (by rw [decide_eq_false hva]; rfl)

/-- Whether a vertex is east of a way to the north, and beside it. -/
def beside (x y : P → K) (u v v' : K) (p : P) : Bool :=
  decide (u < x p) && (decide (v < y p) ^^ decide (v' < y p))

/-- Moving to the north without meeting a segment. -/
theorem crossesRay_vertical {v' : K} (hle : v ≤ v')
    (hfree : ∀ s, v ≤ s → s ≤ v' → ¬ On x y a b u s) :
    (crossesRay x y u v a b ^^ crossesRay x y u v' a b)
      = (beside x y u v v' a ^^ beside x y u v v' b) := by
  -- a segment that passes the way's longitude, to the east
  have hthrough : ∀ {a b : P}, x a ≤ u → u < x b →
      (∀ s, v ≤ s → s ≤ v' → ¬ On x y a b u s) →
      (crossesRay x y u v a b ^^ crossesRay x y u v' a b)
        = (beside x y u v v' a ^^ beside x y u v v' b) := by
    intro a b ha hb hfree
    have hbeside : (beside x y u v v' a ^^ beside x y u v v' b)
        = (decide (v < y b) ^^ decide (v' < y b)) := by
      unfold beside
      rw [decide_eq_false (not_lt.2 ha), decide_eq_true hb, Bool.false_and,
        Bool.true_and, Bool.false_xor]
    rw [hbeside]
    obtain ⟨height, hon, -, -⟩ := crossesRay_through (v := v) ha hb
    have hsame : ∀ {s other : K}, On x y a b u s → On x y a b u other →
        s = other := by
      rintro s other ⟨t, -, -, hu, rfl⟩ ⟨t', -, -, hu', rfl⟩
      have hpos : 0 < x b - x a := by linarith
      have ht : t = t' := by
        apply mul_right_cancel₀ hpos.ne'
        linarith
      rw [ht]
    have hcrosses : ∀ w, (w < height → crossesRay x y u w a b
          = !decide (w < y b)) ∧
        (height < w → crossesRay x y u w a b = decide (w < y b)) := by
      intro w
      obtain ⟨other, hother, hbelow, habove⟩ :=
        crossesRay_through (y := y) (v := w) ha hb
      rw [hsame hon hother]
      exact ⟨hbelow, habove⟩
    rcases lt_or_ge height v with hlow | hhigh
    · rw [(hcrosses v).2 hlow, (hcrosses v').2 (lt_of_lt_of_le hlow hle)]
    · have hfar : v' < height :=
        not_le.1 fun hnear => hfree height hhigh hnear hon
      rw [(hcrosses v).1 (lt_of_le_of_lt hle hfar), (hcrosses v').1 hfar,
        Bool.not_xor_not]
  rcases le_or_gt (x a) u with ha | ha
  · rcases le_or_gt (x b) u with hb | hb
    · rw [crossesRay_west ha hb, crossesRay_west ha hb]
      unfold beside
      rw [decide_eq_false (not_lt.2 ha), decide_eq_false (not_lt.2 hb)]
      rfl
    · exact hthrough ha hb hfree
  · rcases le_or_gt (x b) u with hb | hb
    · rw [crossesRay_comm, crossesRay_comm (v := v'), Bool.xor_comm
        (beside x y u v v' a)]
      exact hthrough hb ha fun s hlow hhigh hon =>
        hfree s hlow hhigh hon.symm
    · rw [crossesRay_east ha hb, crossesRay_east ha hb]
      unfold beside
      rw [decide_eq_true ha, decide_eq_true hb]
      generalize decide (v < y a) = p
      generalize decide (v < y b) = q
      generalize decide (v' < y a) = p'
      generalize decide (v' < y b) = q'
      revert p q p' q'
      decide

end

-- ======================================================= a closed chain

section

variable {x y : P → K} {ring : List P} {u v u' v' : K} {box : Box K}

omit [Field K] [LinearOrder K] in
/-- The segments of a closed chain are its sides, and one that begins
where it ends. -/
theorem mem_cycle (hclosed : ring.head? = ring.getLast?) {edge : P × P}
    (h : edge ∈ cycle ring) :
    edge.1 = edge.2 ∨ (edge.2, edge.1) ∈ sides ring := by
  unfold cycle at h
  cases ring with
  | nil => cases h
  | cons first rest =>
      rw [← hclosed, List.head?_cons] at h
      dsimp only at h
      rw [List.zip_cons_cons] at h
      rcases List.mem_cons.1 h with rfl | hrest
      · exact Or.inl rfl
      · right
        unfold sides
        rw [List.tail_cons, ← List.zip_swap]
        exact List.mem_map.2 ⟨edge, hrest, rfl⟩

omit [Field K] [LinearOrder K] in
theorem mem_of_mem_cycle {edge : P × P} (h : edge ∈ cycle ring) :
    edge.1 ∈ ring ∧ edge.2 ∈ ring := by
  unfold cycle at h
  split at h
  · rename_i last hlast
    obtain ⟨hfirst, hsecond⟩ := List.of_mem_zip h
    refine ⟨hfirst, ?_⟩
    rcases List.mem_cons.1 hsecond with hlast' | hmem
    · rw [hlast']
      exact List.mem_of_getLast? hlast
    · exact hmem
  · cases h

variable [IsStrictOrderedRing K]

/-- The side of a closed chain is the same all over a box without a point
of it. -/
theorem inside_free (hclosed : ring.head? = ring.getLast?)
    (hfree : ∀ side ∈ sides ring, Free x y box side.1 side.2)
    (h : box.Has u v) (h' : box.Has u' v') :
    inside x y ring u v = inside x y ring u' v' := by
  have hsegment : ∀ edge ∈ cycle ring, edge.1 = edge.2 ∨
      ∀ s t, box.Has s t → ¬ On x y edge.1 edge.2 s t := by
    intro edge hedge
    rcases mem_cycle hclosed hedge with hpoint | hside
    · exact Or.inl hpoint
    · exact Or.inr fun s t hhas hon => hfree _ hside s t hon.symm hhas
  have heast : ∀ {u u' v : K}, u ≤ u' → box.Has u v → box.Has u' v →
      inside x y ring u v = inside x y ring u' v := by
    intro u u' v hle h h'
    refine parity_congr fun edge hedge => ?_
    rcases hsegment edge hedge with hpoint | hoff
    · rw [hpoint, crossesRay_self, crossesRay_self]
    · refine crossesRay_horizontal hle fun s hlow hhigh => hoff s v ?_
      exact ⟨h.west_le.trans hlow, hhigh.trans h'.le_east, h.south_le,
        h.le_north⟩
  have hnorth : ∀ {u v v' : K}, v ≤ v' → box.Has u v → box.Has u v' →
      inside x y ring u v = inside x y ring u v' := by
    intro u v v' hle h h'
    have hzero : (inside x y ring u v ^^ inside x y ring u v') = false := by
      unfold inside
      rw [← parity_xor, ← parity_vertices (beside x y u v v') ring]
      refine parity_congr fun edge hedge => ?_
      rcases hsegment edge hedge with hpoint | hoff
      · rw [hpoint, crossesRay_self, crossesRay_self, Bool.xor_self,
          Bool.xor_self]
      · refine crossesRay_vertical hle fun s hlow hhigh => hoff u s ?_
        exact ⟨h.west_le, h.le_east, h.south_le.trans hlow,
          hhigh.trans h'.le_north⟩
    exact bne_eq_false_iff_eq.1 hzero
  have hcorner : box.Has u' v :=
    ⟨h'.west_le, h'.le_east, h.south_le, h.le_north⟩
  have hfirst : inside x y ring u v = inside x y ring u' v := by
    rcases le_total u u' with hle | hle
    · exact heast hle h hcorner
    · exact (heast hle hcorner h).symm
  have hsecond : inside x y ring u' v = inside x y ring u' v' := by
    rcases le_total v v' with hle | hle
    · exact hnorth hle hcorner h'
    · exact (hnorth hle h' hcorner).symm
  exact hfirst.trans hsecond

/-- A point inside a chain has vertices on all sides. -/
theorem vertices_around (h : inside x y ring u v = true) :
    (∃ p ∈ ring, x p ≤ u) ∧ (∃ p ∈ ring, u < x p) ∧
      (∃ p ∈ ring, y p ≤ v) ∧ ∃ p ∈ ring, v < y p := by
  have hnone : ∀ {f : P → P → Bool},
      (∀ edge ∈ cycle ring, crossesRay x y u v edge.1 edge.2
        = f edge.1 edge.2) → parity f (cycle ring) = false → False := by
    intro f hsame hf
    unfold inside at h
    rw [parity_congr hsame, hf] at h
    cases h
  have hspan : ∀ {a b : P}, decide (v < y a) = decide (v < y b) →
      crossesRay x y u v a b = false := by
    intro a b hsame
    unfold crossesRay
    rw [hsame, bne_self_eq_false, Bool.false_and]
  refine ⟨?_, ?_, ?_, ?_⟩
  · by_contra hcontra
    have heast : ∀ p ∈ ring, u < x p :=
      fun p hmem => not_le.1 fun hle => hcontra ⟨p, hmem, hle⟩
    refine hnone (f := fun a b => decide (v < y a) ^^ decide (v < y b))
      (fun edge hedge => ?_) (parity_vertices _ ring)
    obtain ⟨ha, hb⟩ := mem_of_mem_cycle hedge
    exact crossesRay_east (heast _ ha) (heast _ hb)
  · by_contra hcontra
    have hwest : ∀ p ∈ ring, x p ≤ u :=
      fun p hmem => not_lt.1 fun hlt => hcontra ⟨p, hmem, hlt⟩
    refine hnone (f := fun _ _ => false) (fun edge hedge => ?_)
      (parity_none fun _ _ => rfl)
    obtain ⟨ha, hb⟩ := mem_of_mem_cycle hedge
    exact crossesRay_west (hwest _ ha) (hwest _ hb)
  · by_contra hcontra
    have hbelow : ∀ p ∈ ring, v < y p :=
      fun p hmem => not_le.1 fun hle => hcontra ⟨p, hmem, hle⟩
    refine hnone (f := fun _ _ => false) (fun edge hedge => ?_)
      (parity_none fun _ _ => rfl)
    obtain ⟨ha, hb⟩ := mem_of_mem_cycle hedge
    apply hspan
    rw [decide_eq_true (hbelow _ ha), decide_eq_true (hbelow _ hb)]
  · by_contra hcontra
    have habove : ∀ p ∈ ring, ¬ v < y p :=
      fun p hmem hlt => hcontra ⟨p, hmem, hlt⟩
    refine hnone (f := fun _ _ => false) (fun edge hedge => ?_)
      (parity_none fun _ _ => rfl)
    obtain ⟨ha, hb⟩ := mem_of_mem_cycle hedge
    apply hspan
    rw [decide_eq_false (habove _ ha), decide_eq_false (habove _ hb)]

end

end AowisMap.Lib.EvenOdd
