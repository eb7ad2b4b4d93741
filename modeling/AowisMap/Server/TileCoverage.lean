/-
`DownloadCoverage::permitsTile`, and how a coverage is put together before
anybody asks it.

# Numbers

The latitude of a row is a parameter: `latitude zoom row` is the northern
border of a row of tiles, `atan(sinh(pi * (1 - 2 * row / 2^zoom)))` in
degrees.

# Loading

The configuration adds rectangles, GeoJSON collections and profiles; the
server does not start if one of these is refused.
-/
import AowisMap.Server.Coverage

namespace AowisMap.Server

open Lib Catalogue

-- ================================================================= tiles

/-- `xyzBounds`. -/
def xyzBounds (latitude : Int → Int → Rat) (zoom x y : Int) : Bounds where
  west := x / Maps.tileCount zoom * 360 - 180
  south := latitude zoom (y + 1)
  east := (x + 1) / Maps.tileCount zoom * 360 - 180
  north := latitude zoom y

/-- `permitsTile`. -/
def DownloadCoverage.permitsTile (latitude : Int → Int → Rat)
    (coverage : DownloadCoverage) (profile : Text) (zoom x y : Int) : Bool :=
  if profile = [] then true
  else if zoom < 0 ∨ 30 < zoom ∨
      (coverage.profiles.lookup profile).isNone then false
  else
    let count := Maps.tileCount zoom
    if y < 0 ∨ count ≤ y then false
    else coverage.permitsArea profile zoom
      (xyzBounds latitude zoom ((x.tmod count + count).tmod count) y)

/-- The coverage as the tile store asks it. -/
def DownloadCoverage.forStore (latitude : Int → Int → Rat)
    (coverage : DownloadCoverage) : Maps.Coverage where
  permitsTile profile zoom x y :=
    coverage.permitsTile latitude profile.toList zoom x y

-- =============================================================== loading

/-- What the configuration adds to a coverage. -/
inductive CoverageAction
  | rectangle (name : Text) (b : Bounds)
  /-- `addGeoJsonRegions`, once the file was read. -/
  | regions (features : List JsonValue)
  | profile (name : Text) (profile : Profile)

/-- Nothing goes on behind a refusal. -/
def coverageNext (a : CoverageAction) (coverage : DownloadCoverage) :
    Option DownloadCoverage :=
  match a with
  | .rectangle name b => (coverage.addRectangle name b).toOption
  | .regions features =>
      match (addFeatures features coverage).error with
      | none => some (addFeatures features coverage).coverage
      | some _ => none
  | .profile name profile => (coverage.addProfile name profile).toOption

end AowisMap.Server
