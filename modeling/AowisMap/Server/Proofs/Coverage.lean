/-
The regions that a GeoJSON collection adds, and the roles of their rings.

# What is stored

A loop that succeeds keeps what it was given (`addPositions_ok`,
`addRings_ok`): a stored polygon has the rings of its source with at least
four usable positions, in their order, and its envelope contains them. So
the polygons that are added to a region come, in their order, from the
polygons of its features that have such a ring (`addFeatures_ok`).

# Which ring is the exterior

The first stored ring is the exterior, whatever it was in the source. It
is the exterior of the source unless that one is too short and a hole is
not.
-/
import AowisMap.Server.Coverage

namespace AowisMap.Server

open Lib Catalogue

-- =============================================================== sources

/-- The usable positions of a ring. -/
def usablePositions (ring : JsonValue) : List Point :=
  (elements ring).filterMap usablePosition

/-- Whether a ring is long enough to be stored. -/
def isLong (ring : List Point) : Bool := decide (4 ≤ ring.length)

/-- The rings of a polygon that are stored. -/
def longRings (polygon : JsonValue) : List (List Point) :=
  ((elements polygon).map usablePositions).filter isLong

/-- The polygons of the features of a region. -/
def namedPolygons (features : List JsonValue) (id : Text) : List JsonValue :=
  features.flatMap fun feature =>
    if featureId feature = id ∧ id ≠ [] then
      (featurePolygons feature).getD []
    else []

/-- Whether the first ring of a polygon is long enough. -/
def hasExterior (polygon : JsonValue) : Bool :=
  match elements polygon with
  | first :: _ => isLong (usablePositions first)
  | [] => false

def Bounds.Contains (b : Bounds) (p : Point) : Prop :=
  b.west ≤ p.lon ∧ p.lon ≤ b.east ∧ b.south ≤ p.lat ∧ p.lat ≤ b.north

/-- The envelope of a polygon contains its points. -/
def Polygon.Enveloped (polygon : Polygon) : Prop :=
  ∀ ring ∈ polygon.rings, ∀ p ∈ ring, polygon.envelope.Contains p

/-- A polygon as its source has it: the exterior first, then the holes
that are long enough. -/
structure RolesKept (source : JsonValue) (polygon : Polygon) : Prop where
  rings : ∃ exterior holes, elements source = exterior :: holes ∧
    polygon.rings = usablePositions exterior
      :: (holes.map usablePositions).filter isLong
  envelope : polygon.Enveloped

/-- The polygons that were added come from polygons of the features of
their region, each from another one, as these have them, and none from one
without an exterior. -/
def RingRolesKept (features : List JsonValue)
    (before after : DownloadCoverage) : Prop :=
  ∀ id, ∃ added sources,
    (after.region id).polygons = (before.region id).polygons ++ added ∧
    sources.Sublist (namedPolygons features id) ∧
    (∀ source ∈ sources, hasExterior source = true) ∧
    List.Forall₂ RolesKept sources added

-- ================================================================= loops

theorem extend_contains (envelope : Bounds) (p : Point) :
    (extend envelope p).Contains p :=
  ⟨min_le_right _ _, le_max_right _ _, min_le_right _ _, le_max_right _ _⟩

theorem Bounds.Contains.extend {envelope : Bounds} {p : Point}
    (h : envelope.Contains p) (q : Point) :
    (extend envelope q).Contains p :=
  ⟨(min_le_left _ _).trans h.1, h.2.1.trans (le_max_left _ _),
    (min_le_left _ _).trans h.2.2.1, h.2.2.2.trans (le_max_left _ _)⟩

variable {id : Text}

/-- The loop over positions keeps the usable ones and widens the
envelope. -/
theorem addPositions_ok {positions : List JsonValue} :
    ∀ {ring ring' : List Point} {envelope envelope' : Bounds},
      addPositions id ring envelope positions = .ok (ring', envelope') →
      ring' = ring ++ positions.filterMap usablePosition ∧
      (∀ p, envelope.Contains p → envelope'.Contains p) ∧
      ∀ p ∈ positions.filterMap usablePosition, envelope'.Contains p := by
  induction positions with
  | nil =>
      intro ring ring' envelope envelope' h
      cases h
      refine ⟨(List.append_nil _).symm, fun p hp => hp, ?_⟩
      exact fun p hp => absurd hp List.not_mem_nil
  | cons position positions ih =>
      intro ring ring' envelope envelope' h
      unfold addPositions at h
      cases hposition : usablePosition position with
      | none =>
          rw [hposition] at h
          rw [List.filterMap_cons_none hposition]
          exact ih h
      | some point =>
          rw [hposition] at h
          simp only at h
          split at h
          · cases h
          split at h
          · cases h
          obtain ⟨hring, hwide, hnew⟩ := ih h
          rw [List.filterMap_cons_some hposition]
          refine ⟨?_, fun p hp => hwide p (hp.extend point), ?_⟩
          · rw [hring, List.append_assoc, List.singleton_append]
          · intro p hp
            rcases List.mem_cons.1 hp with rfl | hmem
            · exact hwide p (extend_contains envelope p)
            · exact hnew p hmem

/-- The loop over rings keeps the long ones, all in the envelope. -/
theorem addRings_ok {rings : List JsonValue} :
    ∀ {polygon polygon' : Polygon},
      addRings id polygon rings = .ok polygon' → polygon.Enveloped →
      polygon'.rings = polygon.rings
          ++ (rings.map usablePositions).filter isLong ∧
        polygon'.Enveloped := by
  induction rings with
  | nil =>
      intro polygon polygon' h henveloped
      cases h
      exact ⟨(List.append_nil _).symm, henveloped⟩
  | cons ring rings ih =>
      intro polygon polygon' h henveloped
      unfold addRings at h
      split at h
      · cases h
      rename_i points envelope hpoints
      obtain ⟨hring, hwide, hnew⟩ := addPositions_ok hpoints
      have hring : points = usablePositions ring := hring
      rw [List.map_cons]
      by_cases hlong : 4 ≤ points.length
      · rw [if_pos hlong] at h
        have hstep : Polygon.Enveloped
            ⟨polygon.rings ++ [points], envelope⟩ := by
          intro stored hstored p hp
          rcases List.mem_append.1 hstored with hold | hlast
          · exact hwide p (henveloped stored hold p hp)
          · cases List.mem_singleton.1 hlast
            rw [hring] at hp
            exact hnew p hp
        obtain ⟨hrings, henveloped'⟩ := ih h hstep
        refine ⟨?_, henveloped'⟩
        rw [hring] at hlong
        have hkept : isLong (usablePositions ring) = true :=
          decide_eq_true hlong
        rw [hrings, List.filter_cons_of_pos hkept, hring, List.append_assoc,
          List.singleton_append]
      · rw [if_neg hlong] at h
        have hstep : Polygon.Enveloped ⟨polygon.rings, envelope⟩ :=
          fun stored hstored p hp => hwide p (henveloped stored hstored p hp)
        obtain ⟨hrings, henveloped'⟩ := ih h hstep
        refine ⟨?_, henveloped'⟩
        rw [hring] at hlong
        have hshort : ¬isLong (usablePositions ring) = true := by
          intro htrue
          exact hlong (of_decide_eq_true htrue)
        rw [hrings, List.filter_cons_of_neg hshort]

/-- A polygon that was stored for a source. -/
def StoredFor (source : JsonValue) (polygon : Polygon) : Prop :=
  polygon.rings = longRings source ∧ polygon.Enveloped

/-- Whether a polygon has a ring that is long enough. -/
def hasRing (source : JsonValue) : Bool := !(longRings source).isEmpty

theorem region_setRegion (coverage : DownloadCoverage) (id other : Text)
    (region : Region) :
    (coverage.setRegion id region).region other
      = if other = id then region else coverage.region other := by
  unfold DownloadCoverage.region DownloadCoverage.setRegion
  by_cases h : other = id
  · subst h
    rw [if_pos rfl, AList.lookup_insert]
    rfl
  · rw [if_neg h, AList.lookup_insert_ne h]

theorem polygons_setRegion (coverage : DownloadCoverage) (id other : Text)
    (region : Region) (h : region.polygons = (coverage.region id).polygons) :
    ((coverage.setRegion id region).region other).polygons
      = (coverage.region other).polygons := by
  rw [region_setRegion]
  split
  · rename_i hsame
    rw [hsame, h]
  · rfl

/-- The polygons of the regions grew by those that were stored for these
sources. -/
def Adds (before after : DownloadCoverage)
    (sources : Text → List JsonValue) : Prop :=
  ∀ id, ∃ added,
    (after.region id).polygons = (before.region id).polygons ++ added ∧
    List.Forall₂ StoredFor ((sources id).filter hasRing) added

section Adds

variable {before between after : DownloadCoverage}
  {sources sources' : Text → List JsonValue}

/-- Regions with the same polygons. -/
theorem adds_nothing
    (h : ∀ id, (after.region id).polygons = (before.region id).polygons) :
    Adds before after fun _ => [] :=
  fun id => ⟨[], by rw [h, List.append_nil], List.Forall₂.nil⟩

theorem Adds.trans (h : Adds before between sources)
    (h' : Adds between after sources') :
    Adds before after fun id => sources id ++ sources' id := by
  intro id
  obtain ⟨added, hadded, hstored⟩ := h id
  obtain ⟨added', hadded', hstored'⟩ := h' id
  refine ⟨added ++ added', ?_, ?_⟩
  · rw [hadded', hadded, List.append_assoc]
  · rw [List.filter_append]
    exact List.rel_append hstored hstored'

theorem Adds.congr (h : Adds before after sources)
    (heq : ∀ id, sources id = sources' id) : Adds before after sources' :=
  fun id => heq id ▸ h id

end Adds

/-- What is stored for one polygon. -/
theorem adds_polygon {coverage : DownloadCoverage} {value : JsonValue}
    {polygon : Polygon} (h : StoredFor value polygon) :
    Adds coverage
      (if polygon.rings = [] then coverage
        else coverage.setRegion id
          { coverage.region id with
            polygons := (coverage.region id).polygons ++ [polygon] })
      fun other => if other = id then [value] else [] := by
  intro other
  by_cases hrings : polygon.rings = []
  · have hnone : ¬hasRing value = true := by
      unfold hasRing
      rw [← h.1, hrings]
      exact Bool.false_ne_true
    have hsources : (if other = id then [value] else []).filter hasRing
        = [] := by
      split
      · exact List.filter_cons_of_neg hnone
      · rfl
    refine ⟨[], by rw [if_pos hrings, List.append_nil], ?_⟩
    rw [hsources]
    exact List.Forall₂.nil
  · have hsome : hasRing value = true := by
      unfold hasRing
      rw [← h.1, Bool.not_eq_true', List.isEmpty_eq_false_iff]
      exact hrings
    rw [if_neg hrings, region_setRegion]
    by_cases hsame : other = id
    · refine ⟨[polygon], by rw [if_pos hsame, hsame], ?_⟩
      simp only [if_pos hsame]
      rw [List.filter_cons_of_pos hsome]
      exact List.Forall₂.cons h List.Forall₂.nil
    · refine ⟨[], by rw [if_neg hsame, List.append_nil], ?_⟩
      simp only [if_neg hsame]
      exact List.Forall₂.nil

/-- The polygons of one feature go to its region. -/
theorem addPolygons_ok {values : List JsonValue} :
    ∀ {coverage : DownloadCoverage},
      (addPolygons id values coverage).error = none →
      Adds coverage (addPolygons id values coverage).coverage
        fun other => if other = id then values else [] := by
  induction values with
  | nil =>
      intro coverage h
      refine (adds_nothing fun _ => rfl).congr fun other => ?_
      rw [ite_self]
  | cons value values ih =>
      intro coverage h
      unfold addPolygons at h ⊢
      cases hrings : addRings id { envelope := emptyEnvelope }
          (elements value) with
      | error message =>
          rw [hrings] at h
          cases h
      | ok polygon =>
          rw [hrings] at h
          obtain ⟨hpolygon, henveloped⟩ := addRings_ok hrings
            fun ring hring => absurd hring List.not_mem_nil
          have hstored : StoredFor value polygon := ⟨hpolygon, henveloped⟩
          refine ((adds_polygon hstored).trans (ih h)).congr fun other => ?_
          split
          · rfl
          · rfl

/-- The polygons that are added come from those of the features. -/
theorem addFeatures_ok {features : List JsonValue} :
    ∀ {coverage : DownloadCoverage},
      (addFeatures features coverage).error = none →
      Adds coverage (addFeatures features coverage).coverage
        (namedPolygons features) := by
  induction features with
  | nil => exact fun _ => adds_nothing fun _ => rfl
  | cons feature features ih =>
      intro coverage h
      have hnamed (other : Text) : namedPolygons (feature :: features) other
          = (if featureId feature = other ∧ other ≠ [] then
              (featurePolygons feature).getD []
            else []) ++ namedPolygons features other := List.flatMap_cons
      unfold addFeatures at h ⊢
      cases hpolygons : featurePolygons feature with
      | none =>
          rw [hpolygons] at h
          refine (ih h).congr fun other => ?_
          rw [hnamed, hpolygons, Option.getD_none, ite_self, List.nil_append]
      | some polygons =>
          rw [hpolygons] at h
          simp only at h ⊢
          by_cases hempty : featureId feature = []
          · rw [if_pos hempty] at h ⊢
            refine (ih h).congr fun other => ?_
            rw [hnamed, if_neg, List.nil_append]
            rintro ⟨hsame, hother⟩
            exact hother (hsame ▸ hempty)
          · rw [if_neg hempty] at h ⊢
            cases herror : (addPolygons (featureId feature) polygons
                (coverage.setRegion (featureId feature)
                  (coverage.region (featureId feature)))).error with
            | some message =>
                rw [herror] at h
                simp only at h
                rw [herror] at h
                cases h
            | none =>
                rw [herror] at h
                have hmade : Adds coverage
                    (coverage.setRegion (featureId feature)
                      (coverage.region (featureId feature))) fun _ => [] :=
                  adds_nothing fun other => polygons_setRegion _ _ other _ rfl
                refine ((hmade.trans (addPolygons_ok herror)).trans
                  (ih h)).congr fun other => ?_
                rw [hnamed, hpolygons, List.nil_append]
                congr 1
                by_cases hsame : other = featureId feature
                · rw [if_pos hsame, if_pos ⟨hsame.symm, hsame ▸ hempty⟩]
                  rfl
                · rw [if_neg hsame, if_neg fun h => hsame h.1.symm]

-- ========================================================== exteriors

theorem hasExterior_inv {source : JsonValue}
    (h : hasExterior source = true) :
    ∃ first rest, elements source = first :: rest ∧
      isLong (usablePositions first) = true := by
  unfold hasExterior at h
  split at h
  · rename_i first rest hrings
    exact ⟨first, rest, hrings, h⟩
  · cases h

/-- With an exterior the stored rings begin with it. -/
theorem longRings_exterior {source first : JsonValue}
    {rest : List JsonValue} (hrings : elements source = first :: rest)
    (hlong : isLong (usablePositions first) = true) :
    longRings source = usablePositions first
      :: (rest.map usablePositions).filter isLong := by
  unfold longRings
  rw [hrings, List.map_cons, List.filter_cons_of_pos hlong]

theorem hasRing_of_hasExterior {source : JsonValue}
    (h : hasExterior source = true) : hasRing source = true := by
  obtain ⟨first, rest, hrings, hlong⟩ := hasExterior_inv h
  unfold hasRing
  rw [longRings_exterior hrings hlong]
  rfl

/-- A polygon that is stored for a source with an exterior keeps it. -/
theorem StoredFor.rolesKept {source : JsonValue} {polygon : Polygon}
    (h : StoredFor source polygon) (hexterior : hasExterior source = true) :
    RolesKept source polygon := by
  obtain ⟨first, rest, hrings, hlong⟩ := hasExterior_inv hexterior
  refine ⟨⟨first, rest, hrings, ?_⟩, h.2⟩
  rw [h.1, longRings_exterior hrings hlong]

/-- The roles are kept if every polygon that is stored has its exterior. -/
theorem Adds.ringRolesKept {features : List JsonValue}
    {before after : DownloadCoverage}
    (h : Adds before after (namedPolygons features))
    (hexteriors : ∀ id, ∀ source ∈ namedPolygons features id,
      hasRing source = true → hasExterior source = true) :
    RingRolesKept features before after := by
  intro id
  obtain ⟨added, hadded, hstored⟩ := h id
  have hall : ∀ source ∈ (namedPolygons features id).filter hasRing,
      hasExterior source = true := by
    intro source hsource
    obtain ⟨hmem, hring⟩ := List.mem_filter.1 hsource
    exact hexteriors id source hmem hring
  refine ⟨added, _, hadded, List.filter_sublist, hall, ?_⟩
  have hboth := List.forall₂_and_left _ _ |>.2 ⟨hall, hstored⟩
  exact hboth.imp fun _ _ hpolygon => hpolygon.2.rolesKept hpolygon.1

/-- If the roles are kept there are as many polygons with an exterior as
there are with a ring. -/
theorem Adds.hasExterior {features : List JsonValue}
    {before after : DownloadCoverage}
    (h : Adds before after (namedPolygons features))
    (hkept : RingRolesKept features before after) (id : Text)
    {source : JsonValue} (hsource : source ∈ namedPolygons features id)
    (hring : hasRing source = true) : hasExterior source = true := by
  obtain ⟨added, hadded, hstored⟩ := h id
  obtain ⟨added', sources, hadded', hsub, hall, hroles⟩ := hkept id
  rw [hadded] at hadded'
  rw [← List.append_cancel_left hadded'] at hroles
  -- The sources that kept their roles are among those with an exterior.
  have hsub : sources.Sublist
      ((namedPolygons features id).filter Server.hasExterior) := by
    rw [← List.filter_eq_self.2 hall]
    exact hsub.filter _
  have hrings : ((namedPolygons features id).filter
      Server.hasExterior).Sublist ((namedPolygons features id).filter hasRing) :=
    List.monotone_filter_right _ fun _ => hasRing_of_hasExterior
  have hcount := hsub.length_le
  rw [hroles.length_eq, ← hstored.length_eq] at hcount
  have hsame := hrings.eq_of_length_le hcount
  have hmem := List.mem_filter.2 ⟨hsource, hring⟩
  rw [← hsame] at hmem
  exact (List.mem_filter.1 hmem).2

section

variable {Bytes : Type} {readFile : Text → Option Bytes}
  {fromJson : Bytes → Option JsonValue} {path : Text}
  {before : DownloadCoverage}

/-- A success worked through all features. -/
theorem addGeoJsonRegions_ok {features : List JsonValue}
    (hfeatures : readFeatures readFile fromJson path = .ok features)
    (h : (addGeoJsonRegions readFile fromJson path before).error = none) :
    (addFeatures features before).error = none ∧
      (addGeoJsonRegions readFile fromJson path before).coverage
        = (addFeatures features before).coverage := by
  unfold addGeoJsonRegions at h ⊢
  rw [hfeatures] at h ⊢
  simp only at h ⊢
  cases herror : (addFeatures features before).error with
  | some message =>
      rw [herror] at h
      simp only at h
      rw [herror] at h
      cases h
  | none =>
      refine ⟨rfl, ?_⟩
      simp only
      split
      · rfl
      · rfl

/-- **When ring roles are kept**: a collection that is read keeps them if
and only if no polygon of a named region has a first ring with less than
four usable positions and another ring with four. -/
theorem ringRoles_iff {features : List JsonValue}
    (hfeatures : readFeatures readFile fromJson path = .ok features)
    (h : (addGeoJsonRegions readFile fromJson path before).error = none) :
    RingRolesKept features before
        (addGeoJsonRegions readFile fromJson path before).coverage ↔
      ∀ id, ∀ source ∈ namedPolygons features id,
        hasRing source = true → hasExterior source = true := by
  obtain ⟨herror, hcoverage⟩ := addGeoJsonRegions_ok hfeatures h
  rw [hcoverage]
  have hadds := addFeatures_ok herror
  constructor
  · intro hkept id source hsource hring
    exact hadds.hasExterior hkept id hsource hring
  · exact hadds.ringRolesKept

end

-- ============================================================= examples

/-- A ring of the corners of a square, the first one again at its end. -/
def squareRing (low high : Rat) : JsonValue :=
  .array ([(low, low), (high, low), (high, high), (low, high),
    (low, low)].map fun p => .array [.number p.1, .number p.2])

/-- A ring of three positions. -/
def shortRing : JsonValue :=
  .array ([(0, 0), (4, 0), (0, 0)].map fun p : Rat × Rat =>
    .array [.number p.1, .number p.2])

/-- The feature of one polygon of the region `XY`. -/
def polygonFeature (rings : List JsonValue) : JsonValue :=
  .object [("properties".toList, .object [("ISO_A2".toList,
      .string "XY".toList)]),
    ("geometry".toList, .object [("type".toList, .string "Polygon".toList),
      ("coordinates".toList, .array rings)])]

/-- The collection of that feature. -/
def polygonCollection (rings : List JsonValue) : JsonValue :=
  .object [("type".toList, .string "FeatureCollection".toList),
    ("features".toList, .array [polygonFeature rings])]

theorem readFeatures_polygonCollection (rings : List JsonValue) :
    readFeatures (fun _ => some ()) (fun _ => some (polygonCollection rings))
      [] = .ok [polygonFeature rings] := rfl

theorem namedPolygons_polygonFeature {rings : List JsonValue} {id : Text}
    {source : JsonValue}
    (h : source ∈ namedPolygons [polygonFeature rings] id) :
    source = .array rings := by
  unfold namedPolygons at h
  rw [List.flatMap_singleton] at h
  split at h
  · exact List.mem_singleton.1 h
  · cases h

/-- A square with a square hole. -/
theorem ringRoles_iff_square : RingRolesKept
    [polygonFeature [squareRing 0 4, squareRing 1 2]] {}
    (addGeoJsonRegions (fun _ => some ())
      (fun _ => some (polygonCollection [squareRing 0 4, squareRing 1 2])) []
      {}).coverage := by
  refine (ringRoles_iff (readFeatures_polygonCollection _)
    (by decide +kernel)).2 ?_
  intro id source hsource _
  rw [namedPolygons_polygonFeature hsource]
  rfl

/-- A hole in a polygon without an exterior becomes one. -/
theorem ringRoles_lost :
    (addGeoJsonRegions (fun _ => some ())
      (fun _ => some (polygonCollection [shortRing, squareRing 1 2])) []
      {}).error = none ∧
    ¬RingRolesKept [polygonFeature [shortRing, squareRing 1 2]] {}
      (addGeoJsonRegions (fun _ => some ())
        (fun _ => some (polygonCollection [shortRing, squareRing 1 2])) []
        {}).coverage := by
  have herror : (addGeoJsonRegions (fun _ => some ())
      (fun _ => some (polygonCollection [shortRing, squareRing 1 2])) []
      {}).error = none := by
    decide +kernel
  refine ⟨herror, fun hkept => ?_⟩
  obtain ⟨hadded, hcoverage⟩ :=
    addGeoJsonRegions_ok (readFeatures_polygonCollection _) herror
  rw [hcoverage] at hkept
  have hsource : JsonValue.array [shortRing, squareRing 1 2] ∈ namedPolygons
      [polygonFeature [shortRing, squareRing 1 2]] "XY".toList :=
    List.mem_singleton.2 rfl
  have hexterior := (addFeatures_ok hadded).hasExterior hkept _ hsource
    (by rfl)
  exact absurd hexterior (by decide)

end AowisMap.Server
