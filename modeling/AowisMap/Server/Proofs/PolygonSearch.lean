/-
The search for polygons against what it is for.

# What it is for

An area with an interior point of a polygon is to be found, and one that
is away from the polygon is not (`FoundRightly`). The polygon is its
points by the even-odd rule and the sides of its rings; an interior point
is on no side.

# When it is that

The search looks for a polygon within an area at the vertices of its
exterior only, and these count as points of the polygon or not by the
rounding of the even-odd rule (`Unseen`). Nothing else goes wrong
(`foundRightly_iff`).
-/
import AowisMap.Server.Proofs.CoveragePolygons

namespace AowisMap.Server

open Lib Lib.Segments

-- =============================================================== the parts

/-- A point on a side of a ring. -/
def Polygon.OnSide (polygon : Polygon) (lon lat : Rat) : Prop :=
  ∃ ring ∈ polygon.rings, ∃ side ∈ sides ring,
    Point.On side.1 side.2 lon lat

/-- A point of the exterior in no hole, on no side. -/
def Polygon.Interior (polygon : Polygon) (lon lat : Rat) : Prop :=
  polygon.has lon lat = true ∧ ¬ polygon.OnSide lon lat

/-- Every point of the polygon, its sides included, is more than a
ten-thousandth of a degree from every point of the area. -/
def Apart (polygon : Polygon) (tile : Bounds) : Prop :=
  ∀ lon lat lon' lat',
    polygon.has lon lat = true ∨ polygon.OnSide lon lat →
    tile.box.Has lon' lat' →
    (1 / 10 ^ 4) ^ 2 < (lon - lon') ^ 2 + (lat - lat') ^ 2

/-- The answer for an area is right, where it matters. -/
structure FoundRightly (polygon : Polygon) (tile : Bounds) : Prop where
  meets : (∃ lon lat, tile.box.Inside lon lat ∧ polygon.Interior lon lat) →
    intersectsPolygon polygon tile = true
  apart : Apart polygon tile → intersectsPolygon polygon tile = false

/-- A polygon with an interior, whose exterior is inside the area: no vertex
of it counts as a point, and the search finds no side at the border. -/
structure Unseen (polygon : Polygon) (tile : Bounds) : Prop where
  interior : ∃ lon lat, polygon.Interior lon lat
  vertices : ∀ p ∈ polygon.rings.headD [],
    tile.box.Inside p.lon p.lat ∧ polygon.has p.lon p.lat = false
  border : meetsBorder polygon.rings tile = false

variable {polygon : Polygon} {tile : Bounds} {exterior : List Point}
  {holes : List (List Point)}

-- ============================================================== both ways

/-- What is next to an area is not apart from it. -/
theorem not_apart_of_near {lon lat lon' lat' : Rat}
    (hlon : |lon - lon'| ≤ tolerance) (hlat : |lat - lat'| ≤ tolerance) :
    (lon - lon') ^ 2 + (lat - lat') ^ 2 ≤ (1 / 10 ^ 4) ^ 2 := by
  have hsquare : ∀ {d : Rat}, |d| ≤ tolerance → d ^ 2 ≤ tolerance ^ 2 :=
    fun h => sq_le_sq' (neg_le_of_abs_le h) (le_of_abs_le h)
  have hsum : tolerance ^ 2 + tolerance ^ 2 ≤ (1 / 10 ^ 4) ^ 2 := by
    unfold tolerance
    norm_num
  exact (add_le_add (hsquare hlon) (hsquare hlat)).trans hsum

/-- A polygon that is apart from an area is not found. -/
theorem not_found_of_apart (hwest : tile.west ≤ tile.east)
    (hsouth : tile.south ≤ tile.north) (h : Apart polygon tile) :
    intersectsPolygon polygon tile = false := by
  rw [← Bool.not_eq_true]
  intro hfound
  rcases near_of_intersectsPolygon hwest hsouth hfound with
    ⟨lon, lat, harea, hplace⟩ |
    ⟨ring, hring, side, hside, lon, lat, lon', lat', hon, harea, hlon, hlat⟩
  · have hfar := h lon lat lon lat (Or.inl hplace) harea
    rw [sub_self, sub_self] at hfar
    norm_num at hfar
  · have hfar := h lon lat lon' lat'
      (Or.inr ⟨ring, hring, side, hside, hon⟩) harea
    exact absurd hfar (not_lt.2 (not_apart_of_near hlon hlat))

/-- A point of the exterior lies between its vertices. -/
theorem inside_of_vertices
    (h : ∀ p ∈ exterior, tile.box.Inside p.lon p.lat) {lon lat : Rat}
    (hpoint : ringContains exterior lon lat = true) :
    tile.box.Inside lon lat := by
  rw [ringContains_eq] at hpoint
  obtain ⟨⟨pw, hpw, hw⟩, ⟨pe, hpe, he⟩, ⟨ps, hps, hs⟩, ⟨pn, hpn, hn⟩⟩ :=
    EvenOdd.vertices_around hpoint
  exact ⟨(h pw hpw).west_lt.trans_le hw, he.trans (h pe hpe).lt_east,
    (h ps hps).south_lt.trans_le hs, hn.trans (h pn hpn).lt_north⟩

/-- What a polygon has is in its exterior. -/
theorem ringContains_of_has (hrings : polygon.rings = exterior :: holes)
    {lon lat : Rat} (h : polygon.has lon lat = true) :
    ringContains exterior lon lat = true := by
  unfold Polygon.has at h
  rw [hrings, Bool.and_eq_true] at h
  exact h.1

/-- What is unseen is not found. -/
theorem Unseen.not_found (hrings : polygon.rings = exterior :: holes)
    (h : Unseen polygon tile) : intersectsPolygon polygon tile = false := by
  have hvertices := h.vertices
  rw [hrings, List.headD_cons] at hvertices
  rw [← Bool.not_eq_true]
  intro hfound
  obtain ⟨-, ⟨p, hp, -, hpoint⟩ | ⟨lon, hlon, lat, -, hcorner⟩ | hmeets⟩ :=
    (intersectsPolygon_iff hrings).1 hfound
  · rw [(hvertices p hp).2] at hpoint
    cases hpoint
  · -- a corner of the area is not between the vertices
    have hinside := inside_of_vertices (fun p hp => (hvertices p hp).1)
      (ringContains_of_has hrings hcorner)
    rw [List.mem_cons, List.mem_singleton] at hlon
    rcases hlon with rfl | rfl
    · exact lt_irrefl _ hinside.west_lt
    · exact lt_irrefl _ hinside.lt_east
  · rw [h.border] at hmeets
    cases hmeets

/-- **When the search is right.** For every polygon of closed rings whose
envelope contains its exterior, and every area: the area is found if it has
an interior point of the polygon inside, and not found if it is apart from
the polygon, exactly if the polygon is not unseen within the area. -/
theorem foundRightly_iff (hrings : polygon.rings = exterior :: holes)
    (hclosed : ∀ ring ∈ polygon.rings, ring.head? = ring.getLast?)
    (henvelope : ∀ p ∈ exterior, polygon.envelope.Contains p)
    (hwest : tile.west < tile.east) (hsouth : tile.south < tile.north) :
    FoundRightly polygon tile ↔ ¬ Unseen polygon tile := by
  constructor
  · intro h hunseen
    obtain ⟨lon, lat, hinterior⟩ := hunseen.interior
    have hvertices := hunseen.vertices
    rw [hrings, List.headD_cons] at hvertices
    have hinside := inside_of_vertices (fun p hp => (hvertices p hp).1)
      (ringContains_of_has hrings hinterior.1)
    have hfound := h.meets ⟨lon, lat, hinside, hinterior⟩
    rw [hunseen.not_found hrings] at hfound
    cases hfound
  · intro h
    refine ⟨?_, not_found_of_apart hwest.le hsouth.le⟩
    rintro ⟨lon, lat, hinside, hinterior⟩
    rcases found_or_overlooked hrings hclosed henvelope hinside.has
      hinterior.1 with hfound | ⟨hvertices, hborder⟩
    · exact hfound
    · refine absurd ⟨⟨lon, lat, hinterior⟩, ?_, hborder⟩ h
      rw [hrings, List.headD_cons]
      exact hvertices

/-- The area within the square around its hole: the exterior is not inside
it. -/
theorem foundRightly_iff_square :
    FoundRightly squareWithHole ⟨3, 3, 7, 7⟩ := by
  refine (foundRightly_iff rfl ?_ ?_ (by decide +kernel)
    (by decide +kernel)).2 ?_
  · decide +kernel
  · unfold Bounds.Contains
    decide +kernel
  · intro h
    have hcorner := (h.vertices ⟨0, 0⟩ List.mem_cons_self).1.west_lt
    exact absurd hcorner (by decide +kernel)

-- =============================================================== a triangle

/-- A triangle that leans to the east. -/
def triangle : Polygon where
  rings := [[⟨10, 10⟩, ⟨11, 11⟩, ⟨11, 12⟩, ⟨10, 10⟩]]
  envelope := ⟨10, 10, 11, 12⟩

/-- Its ring is closed and has four positions, and the envelope is its own;
yet an area around all of it is not found. -/
theorem triangle_not_found :
    (∀ ring ∈ triangle.rings, ring.head? = ring.getLast? ∧
      ring.length = 4) ∧
      (∀ ring ∈ triangle.rings, ∀ p ∈ ring, triangle.envelope.Contains p) ∧
      ¬ FoundRightly triangle ⟨0, 0, 45, 40⟩ := by
  refine ⟨by decide +kernel, ?_, ?_⟩
  · unfold Bounds.Contains
    decide +kernel
  · intro h
    have hanswer : intersectsPolygon triangle ⟨0, 0, 45, 40⟩ = false := by
      decide +kernel
    have hfound := h.meets ⟨109 / 10, 114 / 10, ⟨by decide +kernel,
      by decide +kernel, by decide +kernel, by decide +kernel⟩,
      by decide +kernel, ?_⟩
    · rw [hanswer] at hfound
      cases hfound
    · -- no side of it goes through the point
      rintro ⟨ring, hring, side, hside, t, -, -, hlon, hlat⟩
      obtain rfl := List.mem_singleton.1 hring
      have hsides : side ∈ ([(⟨10, 10⟩, ⟨11, 11⟩), (⟨11, 11⟩, ⟨11, 12⟩),
          (⟨11, 12⟩, ⟨10, 10⟩)] : List (Point × Point)) := hside
      simp only [List.mem_cons, List.not_mem_nil, or_false] at hsides
      rcases hsides with rfl | rfl | rfl
      · dsimp only at hlon hlat
        linarith
      · dsimp only at hlon
        linarith
      · dsimp only at hlon hlat
        linarith

end AowisMap.Server
