/-
What `CopernicusTerrainProvider::fetchTile` samples: the points and boxes
of a normalized tile, the source cells planned for it, and the loop over
its samples.

# Numbers

Coordinates are elements of a field with floors in the place of doubles,
and the latitude of a row is a parameter (`tileYToLatitudeDeg` over the
reals).
-/
import AowisMap.Terrain.AreaAverage
import AowisMap.Terrain.TileStore

namespace AowisMap.Terrain

open Lib

variable {K : Type*} [Field K] [LinearOrder K] [FloorRing K]

-- ==================================================== points and boxes

/-- `std::ldexp(1.0, address.zoom)`. -/
def tileCountOf (address : TerrainTileAddress) : K := 2 ^ address.zoom.toNat

/-- The longitude of a column of tiles, fractions of a tile included. -/
def tileXToLongitudeDeg (tileX tileCount : K) : K :=
  tileX / tileCount * 360 - 180

/-- The longitude `coordinateForNormalizedGridSample` gives a column. -/
def sampleLongitude (address : TerrainTileAddress) (column : Nat) : K :=
  tileXToLongitudeDeg (address.x + (column : K) / terrainTileCellCount)
    (tileCountOf address)

/-- The latitude `coordinateForNormalizedGridSample` gives a row. -/
def sampleLatitude (latitude : K → K → K) (address : TerrainTileAddress)
    (row : Nat) : K :=
  latitude (address.y + (row : K) / terrainTileCellCount)
    (tileCountOf address)

/-- `normalizedTileUsesAreaAverage`. -/
def normalizedTileUsesAreaAverage (address : TerrainTileAddress) : Bool :=
  decide (address.zoom < TileStore.Copernicus.copernicusMaximumNormalizedZoom)

/-- An edge of the sample boxes, in samples from the first one. -/
def edgeOffset (index : Nat) : K :=
  ((index : K) - 1 / 2) / terrainTileCellCount

/-- The longitudes of `normalizedTileSampleEdges`. -/
def longitudeEdges (address : TerrainTileAddress) : List K :=
  (List.range (terrainTileGridSize + 1)).map fun index =>
    tileXToLongitudeDeg (address.x + edgeOffset index) (tileCountOf address)

/-- The latitudes of `normalizedTileSampleEdges`. -/
def latitudeEdges (latitude : K → K → K) (address : TerrainTileAddress) :
    List K :=
  (List.range (terrainTileGridSize + 1)).map fun index =>
    latitude (address.y + edgeOffset index) (tileCountOf address)

-- ============================================================= planning

/-- `normalizedTileSourceAddresses`. -/
def normalizedTileSourceAddresses (latitude : K → K → K)
    (address : TerrainTileAddress) : List CopernicusSourceAddress :=
  let north := sampleLatitude latitude address 0
  let west : K := sampleLongitude address 0
  let south := sampleLatitude latitude address terrainTileCellCount
  let east : K := sampleLongitude address terrainTileCellCount
  let area := normalizedTileUsesAreaAverage address
  let westDeg :=
    if area then min west (edge (longitudeEdges address) 0) else west
  let eastDeg :=
    if area then max east (edge (longitudeEdges address) terrainTileGridSize)
    else east
  let northDeg :=
    if area then max north (edge (latitudeEdges latitude address) 0)
    else north
  let southDeg :=
    if area then
      min south (edge (latitudeEdges latitude address) terrainTileGridSize)
    else south
  let southFirst := sourceSouthForLatitude
    (max (-90) (southDeg - sourceNeighbourLatitudeMarginDeg))
  let southLast := sourceSouthForLatitude
    (min 90 (northDeg + sourceNeighbourLatitudeMarginDeg))
  let westFirst := ⌊westDeg - sourceNeighbourLongitudeMarginDeg⌋
  let westLast := ⌊eastDeg + sourceNeighbourLongitudeMarginDeg⌋
  ((Steps.values southFirst southLast 1).flatMap fun southDeg =>
    (Steps.values westFirst westLast 1).map fun westDeg =>
      (⟨southDeg, wrappedSourceWest westDeg⟩ :
        CopernicusSourceAddress)).foldl insertSourceAddress []

-- ============================================================= sampling

namespace CopernicusRasterSet

variable (load : CopernicusSourceAddress → SourceLoad)
  (latitude : K → K → K) (address : TerrainTileAddress)

/-- The elevation of one sample; `area` are the sums of the boxes, below
the native zoom. -/
def sampleElevation (area : Option (AreaSums K))
    (rasters : CopernicusRasterSet) (row column : Nat) :
    Option K × CopernicusRasterSet :=
  let latitudeDeg := sampleLatitude latitude address row
  let longitudeDeg := sampleLongitude address column
  match area with
  | none => rasters.sample load latitudeDeg longitudeDeg
  | some area =>
      let box := row * terrainTileGridSize + column
      let (pixelSize, rasters) :=
        rasters.pixelSizeAt load latitudeDeg longitudeDeg
      let boxCoversPixel : Bool :=
        match pixelSize with
        | none => true
        | some (pixelWidthDeg, pixelHeightDeg) =>
            decide (pixelWidthDeg ≤
              edge (longitudeEdges address) (column + 1)
                - edge (longitudeEdges address) column) &&
            decide (pixelHeightDeg ≤
              edge (latitudeEdges latitude address) row
                - edge (latitudeEdges latitude address) (row + 1))
      if boxCoversPixel && decide (0 < area.weights box) then
        (some (area.sums box / area.weights box), rasters)
      else if boxCoversPixel = false then
        rasters.sample load latitudeDeg longitudeDeg
      else (none, rasters)

/-- The loops of `fetchTile` over the samples, up to a fatal failure. -/
def sampleElevations (area : Option (AreaSums K)) :
    CopernicusRasterSet → List (Nat × Nat) →
      List (Option K) × CopernicusRasterSet
  | rasters, [] => ([], rasters)
  | rasters, (row, column) :: rest =>
      let (elevation, rasters) :=
        rasters.sampleElevation load latitude address area row column
      if rasters.fatalStatus.isSome then ([elevation], rasters)
      else
        let (elevations, rasters) := sampleElevations area rasters rest
        (elevation :: elevations, rasters)

/-- The samples of a tile, row by row. -/
def gridSamples : List (Nat × Nat) :=
  (List.range terrainTileGridSize).flatMap fun row =>
    (List.range terrainTileGridSize).map fun column => (row, column)

/-- The part of `fetchTile` that reads the source: the elevations before
they become floats, or nothing where it failed, and the set of rasters. -/
def sampleTile : Option (List (Option K)) × CopernicusRasterSet :=
  let sampled := fun area rasters =>
    let (elevations, rasters) :=
      sampleElevations load latitude address area rasters gridSamples
    if rasters.fatalStatus.isSome then (none, rasters)
    else (some elevations, rasters)
  if normalizedTileUsesAreaAverage address then
    match accumulateAreaAverages load (longitudeEdges address)
      (latitudeEdges latitude address) {} with
    | (false, _, rasters) => (none, rasters)
    | (true, area, rasters) => sampled (some area) rasters
  else sampled none {}

end CopernicusRasterSet

end AowisMap.Terrain
