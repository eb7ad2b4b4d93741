/-
Which polygons an area intersects.

# What is found

An area that holds a point of a polygon, by the even-odd rule over closed
rings, is found (`intersectsPolygon_complete`): if no side of a ring meets
the area's border, each ring is inside the area or away from it, and one
that is away has the whole area on one side. The exception is an exterior
inside the area. It is found by its own vertices only, and a vertex is not
always on the inner side of its ring.

# What is not found

Where an area is found there is a point of the polygon in it, or a side
of a ring next to it (`intersectsPolygon_sound`): the tolerances of the
comparison bound how far apart the two can be.
-/
import Mathlib.Algebra.Order.AbsoluteValue.Basic
import Mathlib.Tactic.LinearCombination
import Mathlib.Tactic.NormNum
import AowisMap.Lib.EvenOdd
import AowisMap.Server.Proofs.Coverage

namespace AowisMap.Server

open Lib Lib.Segments

-- =========================================================== the library

/-- An area as a box. -/
def Bounds.box (b : Bounds) : Box Rat := ⟨b.west, b.south, b.east, b.north⟩

/-- The even-odd rule of a ring. -/
theorem ringContains_eq (ring : List Point) (x y : Rat) :
    ringContains ring x y = EvenOdd.inside Point.lon Point.lat ring x y := by
  unfold ringContains ringEdges EvenOdd.inside EvenOdd.parity EvenOdd.cycle
  congr 1
  cases ring.getLast? with
  | none => rfl
  | some last => rfl

/-- Whether a polygon has a point: its exterior does, and no hole. -/
def Polygon.has (polygon : Polygon) (x y : Rat) : Bool :=
  match polygon.rings with
  | [] => false
  | exterior :: holes =>
      ringContains exterior x y && !holes.any (ringContains · x y)

-- ============================================================== segments

section

variable {a b c d p : Point} {u v : Rat}

/-- A point of a segment. -/
abbrev Point.On (a b : Point) (u v : Rat) : Prop :=
  Segments.On Point.lon Point.lat a b u v

theorem epsilon_pos : 0 < epsilon := by
  unfold epsilon
  norm_num

/-- A point on a segment has no side. -/
theorem cross_of_on (h : Point.On a b p.lon p.lat) : cross a b p = 0 := by
  obtain ⟨t, -, -, hu, hv⟩ := h
  unfold cross
  rw [hu, hv]
  ring

theorem onSegment_of_on (h : Point.On a b p.lon p.lat) :
    onSegment p a b = true := by
  have hzero := cross_of_on h
  have hpos := epsilon_pos
  obtain ⟨t, hlow, hhigh, hu, hv⟩ := h
  -- between the ends, in each coordinate
  have hbetween : ∀ {low high w : Rat}, w = low + t * (high - low) →
      min low high - epsilon ≤ w ∧ w ≤ max low high + epsilon := by
    intro low high w hw
    rcases le_total low high with hle | hle
    · have hstep : 0 ≤ t * (high - low) := mul_nonneg hlow (by linarith)
      have hstep' : 0 ≤ (1 - t) * (high - low) :=
        mul_nonneg (by linarith) (by linarith)
      rw [min_eq_left hle, max_eq_right hle]
      constructor
      · linarith
      · linarith
    · have hstep : 0 ≤ t * (low - high) := mul_nonneg hlow (by linarith)
      have hstep' : 0 ≤ (1 - t) * (low - high) :=
        mul_nonneg (by linarith) (by linarith)
      rw [min_eq_right hle, max_eq_left hle]
      constructor
      · linarith
      · linarith
  have hlon := hbetween hu
  have hlat := hbetween hv
  unfold onSegment
  unfold cross at hzero
  rw [hzero, abs_zero]
  simp only [Bool.and_eq_true, decide_eq_true_eq]
  exact ⟨⟨⟨⟨hpos, hlon.1⟩, hlon.2⟩, hlat.1⟩, hlat.2⟩

/-- An end of one segment on the other one is found. -/
theorem segmentsIntersect_of_end
    (h : Point.On a b c.lon c.lat ∨ Point.On a b d.lon d.lat ∨
      Point.On c d a.lon a.lat ∨ Point.On c d b.lon b.lat) :
    segmentsIntersect a b c d = true := by
  have hend : ∀ {a b p : Point}, Point.On a b p.lon p.lat →
      (decide (|cross a b p| < epsilon) && onSegment p a b) = true := by
    intro a b p hon
    rw [cross_of_on hon, abs_zero, decide_eq_true epsilon_pos,
      onSegment_of_on hon]
    rfl
  unfold segmentsIntersect
  dsimp only
  split
  · rfl
  · rw [Bool.or_eq_true, Bool.or_eq_true, Bool.or_eq_true]
    rcases h with h | h | h | h
    · exact Or.inl (Or.inl (Or.inl (hend h)))
    · exact Or.inl (Or.inl (Or.inr (hend h)))
    · exact Or.inl (Or.inr (hend h))
    · exact Or.inr (hend h)

/-- A point on the line of two others that differ. -/
theorem exists_of_cross (hne : a.lon ≠ b.lon ∨ a.lat ≠ b.lat)
    (h : cross a b c = 0) :
    ∃ γ, c.lon = a.lon + γ * (b.lon - a.lon) ∧
      c.lat = a.lat + γ * (b.lat - a.lat) := by
  unfold cross at h
  generalize hdx : b.lon - a.lon = dx at h
  generalize hdy : b.lat - a.lat = dy at h
  have hpos : 0 < dx * dx + dy * dy := by
    rcases hne with hlon | hlat
    · have hdx : dx ≠ 0 := fun hzero => hlon (by linarith)
      have hsquare := mul_self_pos.2 hdx
      have hother := mul_self_nonneg dy
      linarith
    · have hdy : dy ≠ 0 := fun hzero => hlat (by linarith)
      have hsquare := mul_self_pos.2 hdy
      have hother := mul_self_nonneg dx
      linarith
  refine ⟨((c.lon - a.lon) * dx + (c.lat - a.lat) * dy)
    / (dx * dx + dy * dy), ?_, ?_⟩
  · have hvalue : ((c.lon - a.lon) * dx + (c.lat - a.lat) * dy)
        / (dx * dx + dy * dy) * dx = c.lon - a.lon := by
      rw [div_mul_eq_mul_div, div_eq_iff hpos.ne']
      linear_combination dy * h
    rw [hvalue]
    ring
  · have hvalue : ((c.lon - a.lon) * dx + (c.lat - a.lat) * dy)
        / (dx * dx + dy * dy) * dy = c.lat - a.lat := by
      rw [div_mul_eq_mul_div, div_eq_iff hpos.ne']
      linear_combination -dx * h
    rw [hvalue]
    ring

/-- Of segments on one line that share a point, one has an end of the
other. -/
theorem end_of_collinear (h : Point.On a b u v) (h' : Point.On c d u v)
    (hc : cross a b c = 0) (hd : cross a b d = 0) :
    Point.On a b c.lon c.lat ∨ Point.On a b d.lon d.lat ∨
      Point.On c d a.lon a.lat := by
  obtain ⟨t, htlow, hthigh, hu, hv⟩ := h
  by_cases hne : a.lon ≠ b.lon ∨ a.lat ≠ b.lat
  · obtain ⟨γ, hclon, hclat⟩ := exists_of_cross hne hc
    obtain ⟨δ, hdlon, hdlat⟩ := exists_of_cross hne hd
    obtain ⟨s, hslow, hshigh, hu', hv'⟩ := h'
    -- where the shared point lies between the ends of the second segment
    have ht : t = γ + s * (δ - γ) := by
      have hline : (t - (γ + s * (δ - γ))) * (b.lon - a.lon) = 0 ∧
          (t - (γ + s * (δ - γ))) * (b.lat - a.lat) = 0 := by
        constructor
        · rw [hu, hclon, hdlon] at hu'
          linear_combination hu'
        · rw [hv, hclat, hdlat] at hv'
          linear_combination hv'
      rcases hne with hlon | hlat
      · rcases mul_eq_zero.1 hline.1 with hzero | hzero
        · linarith
        · exact absurd (by linarith) hlon
      · rcases mul_eq_zero.1 hline.2 with hzero | hzero
        · linarith
        · exact absurd (by linarith) hlat
    by_cases hin : 0 ≤ γ ∧ γ ≤ 1
    · exact Or.inl ⟨γ, hin.1, hin.2, hclon, hclat⟩
    by_cases hin' : 0 ≤ δ ∧ δ ≤ 1
    · exact Or.inr (Or.inl ⟨δ, hin'.1, hin'.2, hdlon, hdlat⟩)
    right
    right
    -- the first segment lies between the ends of the second one
    have hbetween : γ < 0 ∧ 0 < δ ∨ 0 < γ ∧ δ < 0 := by
      have hmix : t = (1 - s) * γ + s * δ := by
        rw [ht]
        ring
      have hs' : 0 ≤ 1 - s := by linarith
      rcases lt_or_ge γ 0 with hγ | hγ
      · rcases lt_or_ge δ 0 with hδ | hδ
        · exfalso
          have h₁ := mul_nonpos_of_nonneg_of_nonpos hs' hγ.le
          have h₂ := mul_nonpos_of_nonneg_of_nonpos hslow hδ.le
          have hzero : s * δ = 0 ∧ (1 - s) * γ = 0 := by
            constructor
            · linarith
            · linarith
          rcases mul_eq_zero.1 hzero.1 with hs | hδ'
          · rw [hs, sub_zero, one_mul] at hzero
            linarith [hzero.2]
          · linarith
        · exact Or.inl ⟨hγ, lt_of_le_of_ne hδ fun hzero =>
            hin' ⟨hδ, by rw [← hzero]; exact zero_le_one⟩⟩
      · have hγ1 : 1 < γ := not_le.1 fun hle => hin ⟨hγ, hle⟩
        rcases lt_or_ge δ 0 with hδ | hδ
        · exact Or.inr ⟨by linarith, hδ⟩
        · exfalso
          have hδ1 : 1 < δ := not_le.1 fun hle => hin' ⟨hδ, hle⟩
          have h₁ : 0 ≤ (1 - s) * (γ - 1) :=
            mul_nonneg hs' (by linarith)
          have h₂ : 0 ≤ s * (δ - 1) := mul_nonneg hslow (by linarith)
          have hzero : s * (δ - 1) = 0 ∧ (1 - s) * (γ - 1) = 0 := by
            constructor
            · linarith
            · linarith
          rcases mul_eq_zero.1 hzero.1 with hs | hδ'
          · rw [hs, sub_zero, one_mul] at hzero
            linarith [hzero.2]
          · linarith
    have hne' : γ - δ ≠ 0 := by
      rcases hbetween with ⟨h₁, h₂⟩ | ⟨h₁, h₂⟩
      · exact (by linarith : γ - δ < 0).ne
      · exact (by linarith : 0 < γ - δ).ne'
    have hzero : γ + γ / (γ - δ) * (δ - γ) = 0 := by
      field_simp
      ring
    refine ⟨γ / (γ - δ), ?_, ?_, ?_, ?_⟩
    · rcases hbetween with ⟨h₁, h₂⟩ | ⟨h₁, h₂⟩
      · exact (div_pos_of_neg_of_neg h₁ (by linarith)).le
      · exact (div_pos h₁ (by linarith)).le
    · rcases hbetween with ⟨h₁, h₂⟩ | ⟨h₁, h₂⟩
      · rw [div_le_one_of_neg (by linarith)]
        linarith
      · rw [div_le_one (by linarith)]
        linarith
    · rw [hclon, hdlon]
      linear_combination -(b.lon - a.lon) * hzero
    · rw [hclat, hdlat]
      linear_combination -(b.lat - a.lat) * hzero
  · rw [not_or, not_not, not_not] at hne
    rw [← hne.1, sub_self, mul_zero, add_zero] at hu
    rw [← hne.2, sub_self, mul_zero, add_zero] at hv
    rw [hu, hv] at h'
    exact Or.inr (Or.inr h')

/-- A shared point is a mean of no sides. -/
theorem mean_cross (h : Point.On a b u v) {s : Rat}
    (hu : u = c.lon + s * (d.lon - c.lon))
    (hv : v = c.lat + s * (d.lat - c.lat)) :
    (1 - s) * cross a b c + s * cross a b d = 0 := by
  obtain ⟨t, -, -, hu', hv'⟩ := h
  have hlon : c.lon + s * (d.lon - c.lon) = a.lon + t * (b.lon - a.lon) := by
    rw [← hu, hu']
  have hlat : c.lat + s * (d.lat - c.lat) = a.lat + t * (b.lat - a.lat) := by
    rw [← hv, hv']
  unfold cross
  linear_combination (b.lon - a.lon) * hlat - (b.lat - a.lat) * hlon

/-- A mean that is nothing, of two quantities. -/
theorem opposite_of_mean {s o o' : Rat} (hlow : 0 < s) (hhigh : s < 1)
    (h : (1 - s) * o + s * o' = 0) :
    (o = 0 ∧ o' = 0) ∨ (0 < o ∧ o' < 0) ∨ (o < 0 ∧ 0 < o') := by
  have hs' : 0 < 1 - s := by linarith
  rcases lt_trichotomy o 0 with ho | ho | ho
  · right
    right
    refine ⟨ho, ?_⟩
    have hprod := mul_neg_of_pos_of_neg hs' ho
    by_contra hcontra
    have hprod' := mul_nonpos_of_nonneg_of_nonpos hlow.le (not_lt.1 hcontra)
    linarith
  · left
    rw [ho, mul_zero, zero_add] at h
    exact ⟨ho, (mul_eq_zero.1 h).resolve_left hlow.ne'⟩
  · right
    left
    refine ⟨ho, ?_⟩
    have hprod := mul_pos hs' ho
    by_contra hcontra
    have hprod' := mul_nonneg hlow.le (not_lt.1 hcontra)
    linarith

/-- Segments that share a point are found. -/
theorem segmentsIntersect_of_shared (h : Point.On a b u v)
    (h' : Point.On c d u v) : segmentsIntersect a b c d = true := by
  obtain ⟨t, htlow, hthigh, hu, hv⟩ := id h
  obtain ⟨s, hslow, hshigh, hu', hv'⟩ := id h'
  have hsides := mean_cross h hu' hv'
  have hsides' := mean_cross h' hu hv
  rcases lt_or_eq_of_le hslow with hs0 | hs0
  swap
  · rw [← hs0, zero_mul, add_zero] at hu' hv'
    exact segmentsIntersect_of_end (Or.inl (hu' ▸ hv' ▸ h))
  rcases lt_or_eq_of_le hshigh with hs1 | hs1
  swap
  · rw [hs1, one_mul, add_sub_cancel] at hu' hv'
    exact segmentsIntersect_of_end (Or.inr (Or.inl (hu' ▸ hv' ▸ h)))
  rcases lt_or_eq_of_le htlow with ht0 | ht0
  swap
  · rw [← ht0, zero_mul, add_zero] at hu hv
    exact segmentsIntersect_of_end (Or.inr (Or.inr (Or.inl
      (hu ▸ hv ▸ h'))))
  rcases lt_or_eq_of_le hthigh with ht1 | ht1
  swap
  · rw [ht1, one_mul, add_sub_cancel] at hu hv
    exact segmentsIntersect_of_end (Or.inr (Or.inr (Or.inr
      (hu ▸ hv ▸ h'))))
  rcases opposite_of_mean hs0 hs1 hsides with ⟨hc, hd⟩ | hopposite
  · rcases end_of_collinear h h' hc hd with hend | hend | hend
    · exact segmentsIntersect_of_end (Or.inl hend)
    · exact segmentsIntersect_of_end (Or.inr (Or.inl hend))
    · exact segmentsIntersect_of_end (Or.inr (Or.inr (Or.inl hend)))
  rcases opposite_of_mean ht0 ht1 hsides' with ⟨ha, hb⟩ | hopposite'
  · rcases end_of_collinear h' h ha hb with hend | hend | hend
    · exact segmentsIntersect_of_end (Or.inr (Or.inr (Or.inl hend)))
    · exact segmentsIntersect_of_end (Or.inr (Or.inr (Or.inr hend)))
    · exact segmentsIntersect_of_end (Or.inl hend)
  unfold segmentsIntersect
  dsimp only
  rw [if_pos ⟨hopposite, hopposite'⟩]

end

-- ================================================================ areas

section

variable {tile : Bounds} {polygon : Polygon} {exterior : List Point}
  {holes : List (List Point)}

/-- A point of an area's border is on one of its edges. -/
theorem exists_boundsEdge {u v : Rat} (h : tile.box.Border u v) :
    ∃ edge ∈ boundsEdges tile, Point.On edge.1 edge.2 u v := by
  obtain ⟨hwest, heast, hsouth, hnorth⟩ := h.1
  have hbetween : ∀ {low high w : Rat}, low ≤ w → w ≤ high →
      ∃ t, 0 ≤ t ∧ t ≤ 1 ∧ w = low + t * (high - low) := by
    intro low high w hlow hhigh
    rcases lt_or_eq_of_le (hlow.trans hhigh) with hlt | rfl
    · have hpos : 0 < high - low := by linarith
      refine ⟨(w - low) / (high - low), div_nonneg (by linarith) hpos.le,
        (div_le_one hpos).2 (by linarith), ?_⟩
      rw [div_mul_cancel₀ _ hpos.ne']
      ring
    · exact ⟨0, le_refl _, zero_le_one, by linarith⟩
  have hedges : boundsEdges tile
      = [(⟨tile.west, tile.south⟩, ⟨tile.east, tile.south⟩),
        (⟨tile.east, tile.south⟩, ⟨tile.east, tile.north⟩),
        (⟨tile.east, tile.north⟩, ⟨tile.west, tile.north⟩),
        (⟨tile.west, tile.north⟩, ⟨tile.west, tile.south⟩)] := rfl
  rw [hedges]
  obtain ⟨s, hslow, hshigh, hu⟩ := hbetween hwest heast
  obtain ⟨t, htlow, hthigh, hv⟩ := hbetween hsouth hnorth
  have hu' : u = tile.east + (1 - s) * (tile.west - tile.east) := by
    rw [hu]
    show tile.west + s * (tile.east - tile.west) = _
    ring
  have hv' : v = tile.north + (1 - t) * (tile.south - tile.north) := by
    rw [hv]
    show tile.south + t * (tile.north - tile.south) = _
    ring
  rcases h.side with hside | hside | hside | hside
  · refine ⟨_, List.mem_cons_of_mem _ (List.mem_cons_of_mem _
      (List.mem_cons_of_mem _ List.mem_cons_self)), 1 - t, by linarith,
      by linarith, ?_, hv'⟩
    rw [hside]
    show tile.west = tile.west + (1 - t) * (tile.west - tile.west)
    ring
  · refine ⟨_, List.mem_cons_of_mem _ List.mem_cons_self, t, htlow, hthigh,
      ?_, hv⟩
    rw [hside]
    show tile.east = tile.east + t * (tile.east - tile.east)
    ring
  · refine ⟨_, List.mem_cons_self, s, hslow, hshigh, hu, ?_⟩
    rw [hside]
    show tile.south = tile.south + s * (tile.south - tile.south)
    ring
  · refine ⟨_, List.mem_cons_of_mem _ (List.mem_cons_of_mem _
      List.mem_cons_self), 1 - s, by linarith, by linarith, hu', ?_⟩
    rw [hside]
    show tile.north = tile.north + (1 - s) * (tile.north - tile.north)
    ring

/-- Whether a side of a ring meets an edge of an area, in the code's way.
-/
def meetsBorder (rings : List (List Point)) (tile : Bounds) : Bool :=
  rings.any fun ring => (ring.zip ring.tail).any fun side =>
    (boundsEdges tile).any fun edge =>
      segmentsIntersect side.1 side.2 edge.1 edge.2

/-- Sides that are not found stay off the border. -/
theorem offBorder_of_not_meets {rings : List (List Point)}
    (h : meetsBorder rings tile = false) {ring : List Point}
    (hring : ring ∈ rings) :
    ∀ side ∈ sides ring,
      OffBorder Point.lon Point.lat tile.box side.1 side.2 := by
  intro side hside u v hon hborder
  obtain ⟨edge, hedge, hon'⟩ := exists_boundsEdge hborder
  have hmeets : meetsBorder rings tile = true :=
    List.any_eq_true.2 ⟨ring, hring, List.any_eq_true.2 ⟨side, hside,
      List.any_eq_true.2 ⟨edge, hedge, segmentsIntersect_of_shared hon hon'⟩⟩⟩
  rw [h] at hmeets
  cases hmeets

/-- The three ways in which an area is found. -/
theorem intersectsPolygon_iff (hrings : polygon.rings = exterior :: holes) :
    intersectsPolygon polygon tile = true ↔
      intersects polygon.envelope tile = true ∧
        ((∃ p ∈ exterior, tile.box.Has p.lon p.lat ∧
            polygon.has p.lon p.lat = true) ∨
          (∃ lon ∈ [tile.west, tile.east], ∃ lat ∈ [tile.south, tile.north],
            polygon.has lon lat = true) ∨
          meetsBorder polygon.rings tile = true) := by
  unfold intersectsPolygon Polygon.has meetsBorder
  rw [hrings]
  simp only [Bool.and_eq_true, Bool.or_eq_true, List.any_eq_true,
    decide_eq_true_eq]
  refine and_congr_right fun _ => ?_
  rw [or_assoc]
  refine or_congr ?_ Iff.rfl
  refine exists_congr fun p => and_congr_right fun _ => ?_
  refine and_congr_left fun _ => ?_
  constructor
  · rintro ⟨⟨⟨hwest, heast⟩, hsouth⟩, hnorth⟩
    exact ⟨hwest, heast, hsouth, hnorth⟩
  · rintro ⟨hwest, heast, hsouth, hnorth⟩
    exact ⟨⟨⟨hwest, heast⟩, hsouth⟩, hnorth⟩

/-- A point of the exterior and the envelope around that. -/
theorem intersects_of_inside {u v : Rat}
    (henvelope : ∀ p ∈ exterior, polygon.envelope.Contains p)
    (hhas : tile.box.Has u v) (hinside : ringContains exterior u v = true) :
    intersects polygon.envelope tile = true := by
  rw [ringContains_eq] at hinside
  obtain ⟨⟨pw, hpw, hw⟩, ⟨pe, hpe, he⟩, ⟨ps, hps, hs⟩, ⟨pn, hpn, hn⟩⟩ :=
    EvenOdd.vertices_around hinside
  obtain ⟨hwest, heast, hsouth, hnorth⟩ := hhas
  unfold intersects
  simp only [Bool.and_eq_true, decide_eq_true_eq]
  exact ⟨⟨⟨((henvelope pw hpw).1.trans hw).trans heast,
    (hwest.trans he.le).trans (henvelope pe hpe).2.1⟩,
    ((henvelope ps hps).2.2.1.trans hs).trans hnorth⟩,
    (hsouth.trans hn.le).trans (henvelope pn hpn).2.2.2⟩

/-- The south-western corner. -/
theorem has_corner {u v : Rat} (h : tile.box.Has u v) :
    tile.box.Has tile.west tile.south :=
  ⟨le_refl _, h.west_le.trans h.le_east, le_refl _,
    h.south_le.trans h.le_north⟩

/-- A corner is not inside a ring that is inside the area. -/
theorem corner_of_ring_inside {ring : List Point}
    (h : ∀ p ∈ ring, tile.box.Inside p.lon p.lat) :
    ringContains ring tile.west tile.south = false := by
  rw [ringContains_eq, ← Bool.not_eq_true]
  intro hinside
  obtain ⟨-, -, ⟨p, hmem, hle⟩, -⟩ := EvenOdd.vertices_around hinside
  exact absurd (h p hmem).south_lt (not_lt.2 hle)

/-- An area with a point of a polygon is found, unless it has the whole
exterior, no vertex of which counts as a point, and meets no side. -/
theorem found_or_overlooked
    (hrings : polygon.rings = exterior :: holes)
    (hclosed : ∀ ring ∈ polygon.rings, ring.head? = ring.getLast?)
    (henvelope : ∀ p ∈ exterior, polygon.envelope.Contains p)
    {lon lat : Rat} (harea : tile.box.Has lon lat)
    (hpoint : polygon.has lon lat = true) :
    intersectsPolygon polygon tile = true ∨
      (∀ p ∈ exterior, tile.box.Inside p.lon p.lat ∧
        polygon.has p.lon p.lat = false) ∧
      meetsBorder polygon.rings tile = false := by
  unfold Polygon.has at hpoint
  rw [hrings] at hpoint hclosed
  simp only [Bool.and_eq_true, Bool.not_eq_true', List.any_eq_false]
    at hpoint
  obtain ⟨hexterior, hholes⟩ := hpoint
  rw [intersectsPolygon_iff hrings]
  by_cases hmeets : meetsBorder polygon.rings tile = true
  · exact Or.inl ⟨intersects_of_inside henvelope harea hexterior,
      Or.inr (Or.inr hmeets)⟩
  rw [Bool.not_eq_true, hrings] at hmeets
  have hoff := fun ring hring => @offBorder_of_not_meets tile _ hmeets ring hring
  have hsame : ∀ ring ∈ exterior :: holes,
      (∀ side ∈ sides ring, Free Point.lon Point.lat tile.box side.1 side.2) →
      ringContains ring lon lat = ringContains ring tile.west tile.south := by
    intro ring hring hfree
    rw [ringContains_eq, ringContains_eq]
    exact EvenOdd.inside_free (hclosed ring hring) hfree harea
      (has_corner harea)
  rcases chain_free (hoff exterior List.mem_cons_self) with hin | hfree
  · -- found by a vertex of the exterior, or not at all
    by_cases hvertex : ∃ p ∈ exterior, polygon.has p.lon p.lat = true
    · obtain ⟨p, hmem, hhas⟩ := hvertex
      exact Or.inl ⟨intersects_of_inside henvelope harea hexterior,
        Or.inl ⟨p, hmem, (hin p hmem).has, hhas⟩⟩
    · refine Or.inr ⟨fun p hmem => ⟨hin p hmem, ?_⟩, ?_⟩
      · rw [← Bool.not_eq_true]
        exact fun hhas => hvertex ⟨p, hmem, hhas⟩
      · rw [hrings]
        exact hmeets
  · -- the exterior has the whole area, and the holes have no corner of it
    refine Or.inl ⟨intersects_of_inside henvelope harea hexterior,
      Or.inr (Or.inl ⟨tile.west, List.mem_cons_self, tile.south,
        List.mem_cons_self, ?_⟩)⟩
    unfold Polygon.has
    rw [hrings]
    simp only [Bool.and_eq_true, Bool.not_eq_true', List.any_eq_false]
    refine ⟨(hsame exterior List.mem_cons_self hfree).symm.trans hexterior,
      ?_⟩
    intro hole hmem
    have hring := List.mem_cons_of_mem exterior hmem
    rcases chain_free (hoff hole hring) with hin | hfree
    · rw [corner_of_ring_inside hin]
      exact Bool.false_ne_true
    · rw [← hsame hole hring hfree]
      exact hholes hole hmem

/-- **Areas with a point of a polygon are found.** For every polygon of
closed rings whose envelope contains its exterior, and every area with a
point that the exterior has, by the even-odd rule, and no hole:
`intersectsPolygon` answers true, unless the exterior lies inside the area
and none of its vertices counts as a point of the polygon. -/
theorem intersectsPolygon_complete
    (hrings : polygon.rings = exterior :: holes)
    (hclosed : ∀ ring ∈ polygon.rings, ring.head? = ring.getLast?)
    (henvelope : ∀ p ∈ exterior, polygon.envelope.Contains p)
    {lon lat : Rat} (harea : tile.box.Has lon lat)
    (hpoint : polygon.has lon lat = true) :
    intersectsPolygon polygon tile = true ∨
      ∀ p ∈ exterior, tile.box.Inside p.lon p.lat ∧
        polygon.has p.lon p.lat = false :=
  (found_or_overlooked hrings hclosed henvelope harea hpoint).imp_right
    And.left

/-- A square with a hole, and an area within the square around the hole.
-/
def squareWithHole : Polygon where
  rings :=
    [[⟨0, 0⟩, ⟨10, 0⟩, ⟨10, 10⟩, ⟨0, 10⟩, ⟨0, 0⟩],
      [⟨4, 4⟩, ⟨6, 4⟩, ⟨6, 6⟩, ⟨4, 6⟩, ⟨4, 4⟩]]
  envelope := ⟨0, 0, 10, 10⟩

/-- The area is found, although it holds no vertex of the exterior. -/
theorem intersectsPolygon_complete_square :
    intersectsPolygon squareWithHole ⟨3, 3, 7, 7⟩ = true := by
  have harea : (Bounds.box ⟨3, 3, 7, 7⟩).Has (7 / 2) (7 / 2) :=
    ⟨by decide +kernel, by decide +kernel, by decide +kernel,
      by decide +kernel⟩
  have hsquare : intersectsPolygon squareWithHole ⟨3, 3, 7, 7⟩ = true ∨
      ∀ p ∈ ([⟨0, 0⟩, ⟨10, 0⟩, ⟨10, 10⟩, ⟨0, 10⟩, ⟨0, 0⟩] : List Point),
        (Bounds.box ⟨3, 3, 7, 7⟩).Inside p.lon p.lat ∧
          squareWithHole.has p.lon p.lat = false := by
    refine intersectsPolygon_complete rfl ?_ ?_ harea (by decide +kernel)
    · decide +kernel
    · unfold Bounds.Contains
      decide +kernel
  rcases hsquare with hfound | hinside
  · exact hfound
  · have hcorner := (hinside ⟨0, 0⟩ List.mem_cons_self).1.west_lt
    exact absurd hcorner (by decide +kernel)

/-- A triangle inside an area, with a point that is not found: no vertex
is on the inner side. -/
example :
    intersectsPolygon
        ⟨[[⟨0, 0⟩, ⟨1, 1⟩, ⟨1, 2⟩, ⟨0, 0⟩]], ⟨0, 0, 1, 2⟩⟩ ⟨-1, -1, 3, 3⟩
      = false ∧
    Polygon.has ⟨[[⟨0, 0⟩, ⟨1, 1⟩, ⟨1, 2⟩, ⟨0, 0⟩]], ⟨0, 0, 1, 2⟩⟩ (9 / 10)
      (14 / 10) = true := by
  decide +kernel

end

-- =========================================================== tolerances

section

variable {a b c d p : Point}

/-- How far apart a side and an area that are found can be, in longitude
and in latitude. -/
def tolerance : Rat := 2 / 10 ^ 5

/-- A point of a segment next to a point. -/
def Near (a b : Point) (u v : Rat) : Prop :=
  ∃ u' v', Point.On a b u' v' ∧ |u - u'| ≤ tolerance ∧ |v - v'| ≤ tolerance

/-- It is less than what is promised of an area, -/
theorem tolerance_small : tolerance ≤ 1 / 10 ^ 4 := by
  unfold tolerance
  norm_num

/-- and more than what the comparisons allow for. -/
theorem tolerance_large : epsilon + 1 / 10 ^ 5 ≤ tolerance := by
  unfold epsilon tolerance
  norm_num

/-- A stretch that is not short, and a point next to its line: in units of
the stretch's length, the point's distance from the line is small. -/
theorem exists_near_line {dx dy e f : Rat} (hlong : 1 / 10 ^ 5 < dx)
    (hsteep : |dy| ≤ dx) (hcross : |dx * f - dy * e| < epsilon)
    (hlow : -epsilon ≤ e) (hhigh : e ≤ dx + epsilon) :
    ∃ t, 0 ≤ t ∧ t ≤ 1 ∧ |e - t * dx| ≤ tolerance ∧
      |f - t * dy| ≤ tolerance := by
  have hpos : 0 < dx := lt_trans (by norm_num) hlong
  have hε := epsilon_pos
  have htolerance := tolerance_large
  -- the parameter of the point, kept within the stretch
  obtain ⟨t, ht0, ht1, hnear⟩ : ∃ t, 0 ≤ t ∧ t ≤ 1 ∧
      |e - t * dx| ≤ epsilon := by
    rcases lt_or_ge e 0 with hbefore | hafter
    · refine ⟨0, le_refl _, zero_le_one, ?_⟩
      rw [zero_mul, sub_zero, abs_le]
      exact ⟨hlow, by linarith⟩
    · rcases lt_or_ge dx e with hbehind | hwithin
      · refine ⟨1, zero_le_one, le_refl _, ?_⟩
        rw [one_mul, abs_le]
        exact ⟨by linarith, by linarith⟩
      · refine ⟨e / dx, div_nonneg hafter hpos.le, (div_le_one hpos).2 hwithin,
          ?_⟩
        rw [div_mul_cancel₀ _ hpos.ne', sub_self, abs_zero]
        exact hε.le
  refine ⟨t, ht0, ht1, hnear.trans (by linarith), ?_⟩
  -- the height above the line, times the stretch
  have hheight : dx * (f - t * dy)
      = (dx * f - dy * e) + dy * (e - t * dx) := by ring
  have hbound : dx * |f - t * dy| ≤ epsilon + dx * epsilon := by
    calc dx * |f - t * dy| = |dx * (f - t * dy)| := by
          rw [abs_mul, abs_of_pos hpos]
      _ ≤ |dx * f - dy * e| + |dy * (e - t * dx)| := by
          rw [hheight]
          exact abs_add_le _ _
      _ ≤ epsilon + dx * epsilon := by
          refine add_le_add hcross.le ?_
          rw [abs_mul]
          exact mul_le_mul hsteep hnear (abs_nonneg _) hpos.le
  have hsmall : epsilon ≤ dx * (1 / 10 ^ 5) := by
    have hstep : (1 / 10 ^ 5 : Rat) * (1 / 10 ^ 5) ≤ dx * (1 / 10 ^ 5) :=
      mul_le_mul_of_nonneg_right hlong.le (by norm_num)
    unfold epsilon
    exact le_trans (by norm_num) hstep
  have hscaled : dx * |f - t * dy| ≤ dx * tolerance :=
    calc dx * |f - t * dy| ≤ dx * (1 / 10 ^ 5) + dx * epsilon := by
          linarith
      _ = dx * (epsilon + 1 / 10 ^ 5) := by ring
      _ ≤ dx * tolerance := mul_le_mul_of_nonneg_left htolerance hpos.le
  exact le_of_mul_le_mul_left hscaled hpos

/-- A number in a stretch with its tolerance is not further from one end
than the other end is. -/
theorem abs_sub_le_stretch {low high w : Rat}
    (hlow : min low high - epsilon ≤ w) (hhigh : w ≤ max low high + epsilon) :
    |w - low| ≤ |high - low| + epsilon := by
  have hε := epsilon_pos
  rw [abs_le]
  rcases le_total low high with hle | hle
  · rw [min_eq_left hle] at hlow
    rw [max_eq_right hle] at hhigh
    rw [abs_of_nonneg (by linarith)]
    constructor
    · linarith
    · linarith
  · rw [min_eq_right hle] at hlow
    rw [max_eq_left hle] at hhigh
    rw [abs_of_nonpos (by linarith)]
    constructor
    · linarith
    · linarith

/-- A point next to a segment that rises no more than it is long. -/
theorem exists_near {a₁ a₂ b₁ b₂ u v : Rat}
    (hsteep : |b₂ - a₂| ≤ |b₁ - a₁|)
    (hcross : |(b₁ - a₁) * (v - a₂) - (b₂ - a₂) * (u - a₁)| < epsilon)
    (hwest : min a₁ b₁ - epsilon ≤ u) (heast : u ≤ max a₁ b₁ + epsilon)
    (hsouth : min a₂ b₂ - epsilon ≤ v) (hnorth : v ≤ max a₂ b₂ + epsilon) :
    ∃ t, 0 ≤ t ∧ t ≤ 1 ∧ |u - (a₁ + t * (b₁ - a₁))| ≤ tolerance ∧
      |v - (a₂ + t * (b₂ - a₂))| ≤ tolerance := by
  have htolerance := tolerance_large
  rcases le_or_gt |b₁ - a₁| (1 / 10 ^ 5) with hshort | hlong
  · have hu := abs_sub_le_stretch hwest heast
    have hv := abs_sub_le_stretch hsouth hnorth
    refine ⟨0, le_refl _, zero_le_one, ?_, ?_⟩
    · rw [zero_mul, add_zero]
      linarith
    · rw [zero_mul, add_zero]
      linarith
  · rcases le_total a₁ b₁ with hle | hle
    · have hlength : |b₁ - a₁| = b₁ - a₁ := abs_of_nonneg (by linarith)
      rw [hlength] at hlong hsteep
      rw [min_eq_left hle] at hwest
      rw [max_eq_right hle] at heast
      obtain ⟨t, ht0, ht1, hu, hv⟩ := exists_near_line hlong hsteep hcross
        (by linarith) (by linarith)
      refine ⟨t, ht0, ht1, ?_, ?_⟩
      · rw [← sub_sub]
        exact hu
      · rw [← sub_sub]
        exact hv
    · -- the same from the other end
      have hlength : |b₁ - a₁| = a₁ - b₁ := by
        rw [abs_of_nonpos (by linarith), neg_sub]
      rw [hlength] at hlong hsteep
      rw [min_eq_right hle] at hwest
      rw [max_eq_left hle] at heast
      rw [abs_sub_comm] at hsteep
      have hcross' : |(a₁ - b₁) * (v - b₂) - (a₂ - b₂) * (u - b₁)|
          < epsilon := by
        have hsame : (a₁ - b₁) * (v - b₂) - (a₂ - b₂) * (u - b₁)
            = -((b₁ - a₁) * (v - a₂) - (b₂ - a₂) * (u - a₁)) := by ring
        rw [hsame, abs_neg]
        exact hcross
      obtain ⟨t, ht0, ht1, hu, hv⟩ := exists_near_line hlong hsteep hcross'
        (by linarith) (by linarith)
      refine ⟨1 - t, by linarith, by linarith, ?_, ?_⟩
      · have hsame : u - (a₁ + (1 - t) * (b₁ - a₁))
            = u - b₁ - t * (a₁ - b₁) := by ring
        rw [hsame]
        exact hu
      · have hsame : v - (a₂ + (1 - t) * (b₂ - a₂))
            = v - b₂ - t * (a₂ - b₂) := by ring
        rw [hsame]
        exact hv

/-- A point that is found on a segment is next to it. -/
theorem near_of_onSegment (h : onSegment p a b = true) :
    Near a b p.lon p.lat := by
  unfold onSegment at h
  simp only [Bool.and_eq_true, decide_eq_true_eq] at h
  obtain ⟨⟨⟨⟨hcross, hwest⟩, heast⟩, hsouth⟩, hnorth⟩ := h
  rcases le_total |b.lat - a.lat| |b.lon - a.lon| with hsteep | hsteep
  · obtain ⟨t, ht0, ht1, hu, hv⟩ :=
      exists_near hsteep hcross hwest heast hsouth hnorth
    exact ⟨_, _, ⟨t, ht0, ht1, rfl, rfl⟩, hu, hv⟩
  · rw [abs_sub_comm] at hcross
    obtain ⟨t, ht0, ht1, hv, hu⟩ :=
      exists_near hsteep hcross hsouth hnorth hwest heast
    exact ⟨_, _, ⟨t, ht0, ht1, rfl, rfl⟩, hu, hv⟩

/-- Sides that change on both segments give a shared point. -/
theorem shared_of_opposite
    (h : (0 < cross a b c ∧ cross a b d < 0) ∨
      (cross a b c < 0 ∧ 0 < cross a b d))
    (h' : (0 < cross c d a ∧ cross c d b < 0) ∨
      (cross c d a < 0 ∧ 0 < cross c d b)) :
    ∃ u v, Point.On a b u v ∧ Point.On c d u v := by
  -- what changes sides does so at a proportion of the way
  have hproportion : ∀ {o o' : Rat}, (0 < o ∧ o' < 0) ∨ (o < 0 ∧ 0 < o') →
      o - o' ≠ 0 ∧ 0 ≤ o / (o - o') ∧ o / (o - o') ≤ 1 := by
    rintro o o' (⟨hpos, hneg⟩ | ⟨hneg, hpos⟩)
    · have hdiff : 0 < o - o' := by linarith
      exact ⟨hdiff.ne', (div_pos hpos hdiff).le,
        (div_le_one hdiff).2 (by linarith)⟩
    · have hdiff : o - o' < 0 := by linarith
      exact ⟨hdiff.ne, (div_pos_of_neg_of_neg hneg hdiff).le,
        (div_le_one_of_neg hdiff).2 (by linarith)⟩
  obtain ⟨hne, hlow, hhigh⟩ := hproportion h
  obtain ⟨hne', hlow', hhigh'⟩ := hproportion h'
  refine ⟨_, _, ⟨_, hlow', hhigh', rfl, rfl⟩, _, hlow, hhigh, ?_, ?_⟩
  · unfold cross at hne hne' ⊢
    field_simp
    ring
  · unfold cross at hne hne' ⊢
    field_simp
    ring

/-- Segments that are found have points next to each other. -/
theorem near_of_segmentsIntersect (h : segmentsIntersect a b c d = true) :
    ∃ u v u' v', Point.On a b u v ∧ Point.On c d u' v' ∧
      |u - u'| ≤ tolerance ∧ |v - v'| ≤ tolerance := by
  have hzero : (0 : Rat) ≤ tolerance := by
    unfold tolerance
    norm_num
  unfold segmentsIntersect at h
  dsimp only at h
  split at h
  · rename_i hopposite
    obtain ⟨u, v, hon, hon'⟩ := shared_of_opposite hopposite.1 hopposite.2
    refine ⟨u, v, u, v, hon, hon', ?_, ?_⟩
    · rw [sub_self, abs_zero]
      exact hzero
    · rw [sub_self, abs_zero]
      exact hzero
  · simp only [Bool.or_eq_true, Bool.and_eq_true] at h
    rcases h with ((⟨-, h⟩ | ⟨-, h⟩) | ⟨-, h⟩) | ⟨-, h⟩
    · obtain ⟨u, v, hon, hu, hv⟩ := near_of_onSegment h
      refine ⟨u, v, c.lon, c.lat, hon, on_left, ?_, ?_⟩
      · rw [abs_sub_comm]
        exact hu
      · rw [abs_sub_comm]
        exact hv
    · obtain ⟨u, v, hon, hu, hv⟩ := near_of_onSegment h
      refine ⟨u, v, d.lon, d.lat, hon, on_right, ?_, ?_⟩
      · rw [abs_sub_comm]
        exact hu
      · rw [abs_sub_comm]
        exact hv
    · obtain ⟨u, v, hon, hu, hv⟩ := near_of_onSegment h
      exact ⟨a.lon, a.lat, u, v, on_left, hon, hu, hv⟩
    · obtain ⟨u, v, hon, hu, hv⟩ := near_of_onSegment h
      exact ⟨b.lon, b.lat, u, v, on_right, hon, hu, hv⟩

/-- The edges of an area are in it. -/
theorem has_of_boundsEdge {tile : Bounds} (hwest : tile.west ≤ tile.east)
    (hsouth : tile.south ≤ tile.north) {edge : Point × Point}
    (hedge : edge ∈ boundsEdges tile) {u v : Rat}
    (hon : Point.On edge.1 edge.2 u v) : tile.box.Has u v := by
  have hbetween : ∀ {low high first last t : Rat}, 0 ≤ t → t ≤ 1 →
      low ≤ first → first ≤ high → low ≤ last → last ≤ high →
      low ≤ first + t * (last - first) ∧ first + t * (last - first) ≤ high := by
    intro low high first last t ht0 ht1 h₁ h₂ h₃ h₄
    have h₅ : 0 ≤ (1 - t) * (first - low) :=
      mul_nonneg (by linarith) (by linarith)
    have h₆ : 0 ≤ t * (last - low) := mul_nonneg ht0 (by linarith)
    have h₇ : 0 ≤ (1 - t) * (high - first) :=
      mul_nonneg (by linarith) (by linarith)
    have h₈ : 0 ≤ t * (high - last) := mul_nonneg ht0 (by linarith)
    constructor
    · linarith
    · linarith
  have hends : ∀ p : Point, p = edge.1 ∨ p = edge.2 →
      (tile.west ≤ p.lon ∧ p.lon ≤ tile.east) ∧
        (tile.south ≤ p.lat ∧ p.lat ≤ tile.north) := by
    have hedges : boundsEdges tile
        = [(⟨tile.west, tile.south⟩, ⟨tile.east, tile.south⟩),
          (⟨tile.east, tile.south⟩, ⟨tile.east, tile.north⟩),
          (⟨tile.east, tile.north⟩, ⟨tile.west, tile.north⟩),
          (⟨tile.west, tile.north⟩, ⟨tile.west, tile.south⟩)] := rfl
    rw [hedges] at hedge
    simp only [List.mem_cons, List.not_mem_nil, or_false] at hedge
    intro p hp
    rcases hedge with rfl | rfl | rfl | rfl
    all_goals
      rcases hp with rfl | rfl
      · simp [hwest, hsouth]
      · simp [hwest, hsouth]
  obtain ⟨t, ht0, ht1, hu, hv⟩ := hon
  obtain ⟨⟨h₁, h₂⟩, h₃, h₄⟩ := hends _ (Or.inl rfl)
  obtain ⟨⟨h₅, h₆⟩, h₇, h₈⟩ := hends _ (Or.inr rfl)
  have hlon := hbetween ht0 ht1 h₁ h₂ h₅ h₆
  have hlat := hbetween ht0 ht1 h₃ h₄ h₇ h₈
  rw [← hu] at hlon
  rw [← hv] at hlat
  exact ⟨hlon.1, hlon.2, hlat.1, hlat.2⟩

/-- Where an area is found, a point of the polygon is in it, or a side next
to it. -/
theorem near_of_intersectsPolygon {polygon : Polygon} {tile : Bounds}
    (hwest : tile.west ≤ tile.east) (hsouth : tile.south ≤ tile.north)
    (h : intersectsPolygon polygon tile = true) :
    (∃ lon lat, tile.box.Has lon lat ∧ polygon.has lon lat = true) ∨
      ∃ ring ∈ polygon.rings, ∃ side ∈ sides ring, ∃ lon lat lon' lat',
        Point.On side.1 side.2 lon lat ∧ tile.box.Has lon' lat' ∧
          |lon - lon'| ≤ tolerance ∧ |lat - lat'| ≤ tolerance := by
  cases hrings : polygon.rings with
  | nil =>
      unfold intersectsPolygon at h
      rw [hrings] at h
      cases h
  | cons exterior holes =>
      obtain ⟨-, hfound⟩ := (intersectsPolygon_iff hrings).1 h
      rcases hfound with ⟨p, -, hhas, hpoint⟩ | ⟨lon, hlon, lat, hlat, hpoint⟩
        | hmeets
      · exact Or.inl ⟨p.lon, p.lat, hhas, hpoint⟩
      · refine Or.inl ⟨lon, lat, ?_, hpoint⟩
        simp only [List.mem_cons, List.not_mem_nil, or_false] at hlon hlat
        constructor
        · show tile.west ≤ lon
          rcases hlon with rfl | rfl
          · exact le_refl _
          · exact hwest
        · show lon ≤ tile.east
          rcases hlon with rfl | rfl
          · exact hwest
          · exact le_refl _
        · show tile.south ≤ lat
          rcases hlat with rfl | rfl
          · exact le_refl _
          · exact hsouth
        · show lat ≤ tile.north
          rcases hlat with rfl | rfl
          · exact hsouth
          · exact le_refl _
      · obtain ⟨ring, hring, hside⟩ := List.any_eq_true.1 hmeets
        obtain ⟨side, hside, hedge⟩ := List.any_eq_true.1 hside
        obtain ⟨edge, hedge, hsegments⟩ := List.any_eq_true.1 hedge
        obtain ⟨u, v, u', v', hon, hon', hu, hv⟩ :=
          near_of_segmentsIntersect hsegments
        exact Or.inr ⟨ring, hrings ▸ hring, side, hside, u, v, u', v', hon,
          has_of_boundsEdge hwest hsouth hedge hon', hu, hv⟩

/-- **Areas that are found have a point of the polygon, or a side of it
next to them.** Whatever the rings of a polygon are, where
`intersectsPolygon` answers true for an area, the polygon has a point of
the area by the even-odd rule, or a side of one of its rings has a point
that is at most a ten-thousandth of a degree away from the area, in
longitude and in latitude. -/
theorem intersectsPolygon_sound {polygon : Polygon} {tile : Bounds}
    (hwest : tile.west ≤ tile.east) (hsouth : tile.south ≤ tile.north)
    (h : intersectsPolygon polygon tile = true) :
    (∃ lon lat, tile.box.Has lon lat ∧ polygon.has lon lat = true) ∨
      ∃ ring ∈ polygon.rings, ∃ side ∈ sides ring, ∃ lon lat lon' lat',
        Point.On side.1 side.2 lon lat ∧ tile.box.Has lon' lat' ∧
          |lon - lon'| ≤ 1 / 10 ^ 4 ∧ |lat - lat'| ≤ 1 / 10 ^ 4 := by
  rcases near_of_intersectsPolygon hwest hsouth h with hplace |
    ⟨ring, hring, side, hside, lon, lat, lon', lat', hon, harea, hlon, hlat⟩
  · exact Or.inl hplace
  · exact Or.inr ⟨ring, hring, side, hside, lon, lat, lon', lat', hon, harea,
      hlon.trans tolerance_small, hlat.trans tolerance_small⟩

/-- The square has points of an area that overlaps it. -/
theorem intersectsPolygon_sound_square :
    (∃ lon lat, (Bounds.box ⟨-5, -5, 5, 5⟩).Has lon lat ∧
        squareWithHole.has lon lat = true) ∨
      ∃ ring ∈ squareWithHole.rings, ∃ side ∈ sides ring,
        ∃ lon lat lon' lat', Point.On side.1 side.2 lon lat ∧
          (Bounds.box ⟨-5, -5, 5, 5⟩).Has lon' lat' ∧
          |lon - lon'| ≤ 1 / 10 ^ 4 ∧ |lat - lat'| ≤ 1 / 10 ^ 4 :=
  intersectsPolygon_sound (by decide +kernel) (by decide +kernel)
    (by decide +kernel)

end

end AowisMap.Server
