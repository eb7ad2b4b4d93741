/-
The download coverage (`download_coverage.cpp`): named regions of
rectangles and polygons, profiles of zoom tiers over them, the areas a
profile permits, and the regions that a GeoJSON collection adds.

# Numbers

Degrees are doubles; they are modelled by rationals, so that the checks
for finite values of the source hold of themselves.

# Failures

`addGeoJsonRegions` works on the coverage itself: the regions that it
added before it failed stay (`Change`).
-/
import AowisMap.Lib.Hash
import AowisMap.Server.Catalogue

namespace AowisMap.Server

open Lib Catalogue

-- ================================================================ types

/-- `DownloadCoverage::Bounds`, in degrees. -/
structure Bounds where
  west : Rat
  south : Rat
  east : Rat
  north : Rat
deriving DecidableEq

/-- `DownloadCoverage::Point`. -/
structure Point where
  lon : Rat
  lat : Rat
deriving DecidableEq

/-- `DownloadCoverage::Polygon`: the first ring is the exterior, the
others are holes. -/
structure Polygon where
  rings : List (List Point) := []
  envelope : Bounds
deriving DecidableEq

/-- `DownloadCoverage::Region`. -/
structure Region where
  rectangles : List Bounds := []
  polygons : List Polygon := []
deriving DecidableEq

/-- `DownloadCoverage::Tier`. -/
structure Tier where
  minimumZoom : Int
  maximumZoom : Int
  regions : List Text
deriving DecidableEq

/-- `DownloadCoverage::Profile`. -/
structure Profile where
  tiers : List Tier
deriving DecidableEq

structure DownloadCoverage where
  regions : QHash Text Region := ∅
  profiles : QHash Text Profile := ∅

/-- The built-in region. -/
def world : Text := "world".toList

-- ============================================================= geometry

/-- `validBounds`. -/
def validBounds (b : Bounds) : Bool :=
  decide (-180 ≤ b.west) && decide (b.east ≤ 180) && decide (b.west ≤ b.east)
    && decide (-90 ≤ b.south) && decide (b.north ≤ 90)
    && decide (b.south ≤ b.north)

/-- `intersects`: rectangles that share a point. -/
def intersects (a b : Bounds) : Bool :=
  decide (a.west ≤ b.east) && decide (b.west ≤ a.east)
    && decide (a.south ≤ b.north) && decide (b.south ≤ a.north)

/-- The edges of a ring as they are visited: each point with the one
before it, the first one with the last one. -/
def ringEdges (ring : List Point) : List (Point × Point) :=
  match ring.getLast? with
  | some last => ring.zip (last :: ring)
  | none => []

/-- Whether the ray to the east of a place crosses an edge. -/
def crosses (x y : Rat) (a b : Point) : Bool :=
  (decide (y < a.lat) != decide (y < b.lat)) &&
    decide (x < (b.lon - a.lon) * (y - a.lat) / (b.lat - a.lat) + a.lon)

/-- `ringContains`: every crossing changes the side. -/
def ringContains (ring : List Point) (x y : Rat) : Bool :=
  (ringEdges ring).foldl
    (fun inside edge => if crosses x y edge.1 edge.2 then !inside else inside)
    false

/-- The side of the line from `a` to `b` that `c` lies on. -/
def cross (a b c : Point) : Rat :=
  (b.lon - a.lon) * (c.lat - a.lat) - (b.lat - a.lat) * (c.lon - a.lon)

def epsilon : Rat := 1 / 10 ^ 10

/-- Whether a point lies on a segment, but for a rounding error. -/
def onSegment (p a b : Point) : Bool :=
  decide (|(b.lon - a.lon) * (p.lat - a.lat)
      - (b.lat - a.lat) * (p.lon - a.lon)| < epsilon) &&
    decide (min a.lon b.lon - epsilon ≤ p.lon) &&
    decide (p.lon ≤ max a.lon b.lon + epsilon) &&
    decide (min a.lat b.lat - epsilon ≤ p.lat) &&
    decide (p.lat ≤ max a.lat b.lat + epsilon)

/-- `segmentsIntersect`. -/
def segmentsIntersect (a b c d : Point) : Bool :=
  let o1 := cross a b c
  let o2 := cross a b d
  let o3 := cross c d a
  let o4 := cross c d b
  if ((0 < o1 ∧ o2 < 0) ∨ (o1 < 0 ∧ 0 < o2)) ∧
      ((0 < o3 ∧ o4 < 0) ∨ (o3 < 0 ∧ 0 < o4)) then true
  else
    (decide (|o1| < epsilon) && onSegment c a b) ||
      (decide (|o2| < epsilon) && onSegment d a b) ||
      (decide (|o3| < epsilon) && onSegment a c d) ||
      (decide (|o4| < epsilon) && onSegment b c d)

/-- The edges of a rectangle. -/
def boundsEdges (b : Bounds) : List (Point × Point) :=
  let corners : List Point :=
    [⟨b.west, b.south⟩, ⟨b.east, b.south⟩, ⟨b.east, b.north⟩,
      ⟨b.west, b.north⟩]
  corners.zip (corners.tail ++ corners.take 1)

/-- `intersectsPolygon`: a point of the exterior in the rectangle, a corner
of the rectangle in the polygon, or edges of both that meet. -/
def intersectsPolygon (polygon : Polygon) (tile : Bounds) : Bool :=
  match polygon.rings with
  | [] => false
  | exterior :: holes =>
      let inside (x y : Rat) : Bool :=
        ringContains exterior x y && !holes.any (ringContains · x y)
      intersects polygon.envelope tile &&
        (exterior.any (fun p =>
            decide (tile.west ≤ p.lon) && decide (p.lon ≤ tile.east) &&
              decide (tile.south ≤ p.lat) && decide (p.lat ≤ tile.north) &&
              inside p.lon p.lat) ||
          [tile.west, tile.east].any (fun lon =>
            [tile.south, tile.north].any (fun lat => inside lon lat)) ||
          (exterior :: holes).any (fun ring =>
            (ring.zip ring.tail).any (fun side =>
              (boundsEdges tile).any (fun edge =>
                segmentsIntersect side.1 side.2 edge.1 edge.2))))

-- ============================================================== regions

namespace DownloadCoverage

/-- `regions[id]`: a region that is not there is made. -/
def region (coverage : DownloadCoverage) (id : Text) : Region :=
  (coverage.regions.lookup id).getD {}

/-- Puts a region in place. -/
def setRegion (coverage : DownloadCoverage) (id : Text) (region : Region) :
    DownloadCoverage :=
  { coverage with regions := coverage.regions.insert id region }

/-- `addRectangle`. -/
def addRectangle (name : Text) (b : Bounds) (coverage : DownloadCoverage) :
    Except Text DownloadCoverage :=
  if QString.trimmed name = [] ∨ name = world ∨ validBounds b = false then
    .error ("Invalid region '".toList ++ name
      ++ "' or bounding rectangle".toList)
  else .ok (coverage.setRegion name
    { coverage.region name with
      rectangles := (coverage.region name).rectangles ++ [b] })

/-- `hasRegion`. -/
def hasRegion (coverage : DownloadCoverage) (name : Text) : Bool :=
  name == world || (coverage.regions.lookup name).isSome

end DownloadCoverage

-- ============================================================= profiles

/-- The zooms of a tier. -/
def Tier.zooms (tier : Tier) : List Nat :=
  List.range' tier.minimumZoom.toNat
    (tier.maximumZoom - tier.minimumZoom + 1).toNat

/-- Marks the zooms of a tier, unless one is marked. -/
def markZooms (seen : Nat → Bool) : List Nat → Option (Nat → Bool)
  | [] => some seen
  | z :: zooms =>
      if seen z then none else markZooms (Function.update seen z true) zooms

namespace DownloadCoverage

variable (coverage : DownloadCoverage) (name : Text)

/-- The checks on one tier; they mark its zooms. -/
def checkTier (seen : Nat → Bool) (tier : Tier) :
    Except Text (Nat → Bool) :=
  if tier.minimumZoom < 0 ∨ 30 < tier.maximumZoom ∨
      tier.maximumZoom < tier.minimumZoom ∨ tier.regions = [] then
    .error ("Invalid zoom range in coverage '".toList ++ name ++ ['\''])
  else
    match tier.regions.find? (fun region => !coverage.hasRegion region) with
    | some region =>
        .error ("Coverage '".toList ++ name
          ++ "' references unknown region '".toList ++ region ++ ['\''])
    | none =>
        match markZooms seen tier.zooms with
        | some marked => .ok marked
        | none =>
            .error ("Overlapping zoom tiers in coverage '".toList ++ name
              ++ ['\''])

/-- The checks on tiers. -/
def checkTiers (seen : Nat → Bool) : List Tier → Except Text (Nat → Bool)
  | [] => .ok seen
  | tier :: tiers =>
      match coverage.checkTier name seen tier with
      | .ok marked => checkTiers marked tiers
      | .error message => .error message

/-- `addProfile`. -/
def addProfile (profile : Profile) : Except Text DownloadCoverage :=
  if name = [] ∨ profile.tiers = [] then
    .error ("Coverage profile '".toList ++ name
      ++ "' has no zoom tiers".toList)
  else
    match coverage.checkTiers name (fun _ => false) profile.tiers with
    | .error message => .error message
    | .ok seen =>
        if (List.range 31).all seen then
          .ok { coverage with
            profiles := coverage.profiles.insert name profile }
        else .error ("Coverage '".toList ++ name
          ++ "' must define every zoom 0 through 30".toList)

/-- `hasProfile`. -/
def hasProfile : Bool :=
  name.isEmpty || (coverage.profiles.lookup name).isSome

/-- Whether a named region permits an area. -/
def permitsRegion (area : Bounds) : Bool :=
  name == world ||
    match coverage.regions.lookup name with
    | some region =>
        region.rectangles.any (intersects · area) ||
          region.polygons.any (intersectsPolygon · area)
    | none => false

/-- `permitsArea`. -/
def permitsArea (zoom : Int) (area : Bounds) : Bool :=
  if name = [] then true
  else if zoom < 0 ∨ 30 < zoom then false
  else
    match coverage.profiles.lookup name with
    | some profile =>
        profile.tiers.any fun tier =>
          decide (tier.minimumZoom ≤ zoom) &&
            decide (zoom ≤ tier.maximumZoom) &&
            tier.regions.any fun region => coverage.permitsRegion region area
    | none => false

end DownloadCoverage

-- ============================================================== GeoJSON

/-- `QJsonValue::toArray`. -/
def elements : JsonValue → List JsonValue
  | .array values => values
  | _ => []

/-- The point of a position, if it is usable: an array that begins with
two numbers. -/
def usablePosition (position : JsonValue) : Option Point :=
  match elements position with
  | .number lon :: .number lat :: _ => some ⟨lon, lat⟩
  | _ => none

/-- The envelope before any point. -/
def emptyEnvelope : Bounds := ⟨180, 90, -180, -90⟩

/-- The envelope with a point. -/
def extend (envelope : Bounds) (point : Point) : Bounds where
  west := min envelope.west point.lon
  south := min envelope.south point.lat
  east := max envelope.east point.lon
  north := max envelope.north point.lat

/-- The loop over the positions of a ring. -/
def addPositions (id : Text) (ring : List Point) (envelope : Bounds) :
    List JsonValue → Except Text (List Point × Bounds)
  | [] => .ok (ring, envelope)
  | position :: positions =>
      match usablePosition position with
      | none => addPositions id ring envelope positions
      | some point =>
          if point.lon < -180 ∨ 180 < point.lon ∨ point.lat < -90 ∨
              90 < point.lat then
            .error ("Invalid coordinate in GeoJSON region '".toList ++ id
              ++ ['\''])
          else if ring.getLast?.any
              (fun last => decide (180 < |point.lon - last.lon|)) then
            .error ("GeoJSON region '".toList ++ id
              ++ ("' crosses the antimeridian; split its polygon at "
                ++ "longitude 180 to avoid ambiguous coverage").toList)
          else addPositions id (ring ++ [point]) (extend envelope point)
            positions

/-- The loop over the rings of a polygon; rings with less than four points
are left out. -/
def addRings (id : Text) (polygon : Polygon) :
    List JsonValue → Except Text Polygon
  | [] => .ok polygon
  | ring :: rings =>
      match addPositions id [] polygon.envelope (elements ring) with
      | .error message => .error message
      | .ok (points, envelope) =>
          addRings id
            { rings :=
                if 4 ≤ points.length then polygon.rings ++ [points]
                else polygon.rings
              envelope := envelope } rings

/-- A coverage that was worked on, with a message if that failed. -/
structure Change where
  coverage : DownloadCoverage
  error : Option Text := none

/-- The loop over the polygons of a feature; one without a ring is left
out. -/
def addPolygons (id : Text) : List JsonValue → DownloadCoverage → Change
  | [], coverage => { coverage := coverage }
  | value :: values, coverage =>
      match addRings id { envelope := emptyEnvelope } (elements value) with
      | .error message => { coverage := coverage, error := some message }
      | .ok polygon =>
          addPolygons id values <|
            if polygon.rings = [] then coverage
            else coverage.setRegion id
              { coverage.region id with
                polygons := (coverage.region id).polygons ++ [polygon] }

/-- The region of a feature: its `ISO_A2` code, or its `id`. -/
def featureId (feature : JsonValue) : Text :=
  let properties := feature.member "properties"
  let code := (properties.member "ISO_A2").toText
  if code = [] ∨ code = "-99".toList then (properties.member "id").toText
  else code

/-- The polygons of a feature, if it is one of polygons. -/
def featurePolygons (feature : JsonValue) : Option (List JsonValue) :=
  let geometry := feature.member "geometry"
  let type := (geometry.member "type").toText
  if type = "Polygon".toList then some [geometry.member "coordinates"]
  else if type = "MultiPolygon".toList then
    some (elements (geometry.member "coordinates"))
  else none

/-- The loop over the features; those without a name or without polygons
are passed over. -/
def addFeatures : List JsonValue → DownloadCoverage → Change
  | [], coverage => { coverage := coverage }
  | feature :: features, coverage =>
      match featurePolygons feature with
      | none => addFeatures features coverage
      | some polygons =>
          if featureId feature = [] then addFeatures features coverage
          else
            let change := addPolygons (featureId feature) polygons
              (coverage.setRegion (featureId feature)
                (coverage.region (featureId feature)))
            match change.error with
            | some _ => change
            | none => addFeatures features change.coverage

section

variable {Bytes : Type} (readFile : Text → Option Bytes)
  (fromJson : Bytes → Option JsonValue) (path : Text)

/-- The features of a collection, or why it is none. -/
def readFeatures : Except Text (List JsonValue) :=
  match readFile path with
  | none => .error ("Cannot open region GeoJSON: ".toList ++ path)
  | some bytes =>
      match fromJson bytes with
      | some json =>
          if (json.member "type").toText = "FeatureCollection".toList then
            .ok (elements (json.member "features"))
          else .error ("Invalid GeoJSON FeatureCollection: ".toList ++ path)
      | none => .error ("Invalid GeoJSON FeatureCollection: ".toList ++ path)

/-- `addGeoJsonRegions`, with the file system and the JSON parser it
uses. -/
def addGeoJsonRegions (coverage : DownloadCoverage) : Change :=
  match readFeatures readFile fromJson path with
  | .error message => { coverage := coverage, error := some message }
  | .ok features =>
      let change := addFeatures features coverage
      match change.error with
      | some _ => change
      | none =>
          if change.coverage.regions.keys = [] then
            { change with
              error := some
                "Region GeoJSON contains no named polygons".toList }
          else change

end

end AowisMap.Server
