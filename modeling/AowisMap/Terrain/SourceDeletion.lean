/-
`TerrainData::deleteSourceData` and what `CopernicusTerrainProvider` does
of it: the source cells of one degree below a range of tiles lose their
file and the record that they are unavailable.

# Numbers

Coordinates are elements of a field with floors in the place of doubles,
and the latitude of a row is a parameter (`tileYToLatitudeDeg` over the
reals). What the code computes in `int` it computes here with
`Lib.CInt`: `none` is a deletion whose behaviour is undefined.

# The walk

The loops over rows and columns of cells give the list of the cells they
visit, and the deletion goes through that list.
-/
import Mathlib.Analysis.SpecialFunctions.Trigonometric.Arctan
import Mathlib.Analysis.SpecialFunctions.Trigonometric.DerivHyp
import AowisMap.Lib.CInt
import AowisMap.Lib.UnitCells
import AowisMap.Terrain.Deletion
import AowisMap.Terrain.SourceCells

namespace AowisMap.Terrain

open Lib

-- ================================================================ boxes

/-- Degrees. A box that crosses the antimeridian has an edge outside
-180..180. -/
structure TerrainGeographicBox (K : Type*) where
  westDeg : K
  eastDeg : K
  southDeg : K
  northDeg : K

/-- `tileYToLatitudeDeg`. -/
noncomputable def tileYToLatitudeDeg (tileY tileCount : ℝ) : ℝ :=
  Real.arctan (Real.sinh (Real.pi * (1 - 2 * tileY / tileCount))) * 180
    / Real.pi

section

variable {K : Type*} [Field K] [LinearOrder K] [FloorRing K]

/-- The box of a range, if it has rows. -/
def TerrainRange.sourceBox (latitude : K → K → K) (range : TerrainRange) :
    Option (TerrainGeographicBox K) :=
  let tileCount := tileCount range.zoom
  let boundedYMin := max 0 range.yMin
  let boundedYMax := min (tileCount - 1) range.yMax
  if boundedYMin > boundedYMax then none
  else
    let wide := range.xMax - range.xMin + 1 ≥ tileCount
    some
      { westDeg :=
          if wide then -180
          else (range.xMin : K) / (tileCount : K) * 360 - 180
        eastDeg :=
          if wide then 180
          else ((range.xMax + 1 : Int) : K) / (tileCount : K) * 360 - 180
        northDeg := latitude boundedYMin tileCount
        southDeg := latitude (boundedYMax + 1 : Int) tileCount }

-- ============================================================= the walk

/-- `west_deg` of an unwrapped column of cells. -/
def wrappedWestDeg (unwrappedWestDeg : Int) : Option Int := do
  let shifted ← CInt.add unwrappedWestDeg 180
  let westDeg := shifted.tmod 360
  CInt.sub (if westDeg < 0 then westDeg + 360 else westDeg) 180

/-- The inner loop, with the number of rounds it still has. -/
def visitColumns (southDeg : Int) :
    Nat → Int → Option (List CopernicusSourceAddress)
  | 0, _ => some []
  | rounds + 1, unwrappedWestDeg => do
      let westDeg ← wrappedWestDeg unwrappedWestDeg
      let next ← CInt.add unwrappedWestDeg 1
      let rest ← visitColumns southDeg rounds next
      return ⟨southDeg, westDeg⟩ :: rest

/-- The outer loop, with the number of rounds it still has. -/
def visitRows (westFirst westLast : Int) :
    Nat → Int → Option (List CopernicusSourceAddress)
  | 0, _ => some []
  | rounds + 1, southDeg => do
      let row ← visitColumns southDeg (westLast - westFirst + 1).toNat westFirst
      let next ← CInt.add southDeg 1
      let rest ← visitRows westFirst westLast rounds next
      return row ++ rest

/-- `std::clamp` to the rows of cells. -/
def clampSouth (southDeg : Int) : Int := max (-90) (min southDeg 89)

/-- The columns of cells below a box. All of them count from the west
of the ring. -/
def westBounds (westFirst westLast : Int) : Option (Int × Int) := do
  let difference ← CInt.sub westLast westFirst
  let width ← CInt.add difference 1
  return if width ≥ 360 then (-180, 179) else (westFirst, westLast)

/-- The cells the loops visit, in their order. -/
def TerrainGeographicBox.cells (box : TerrainGeographicBox K) :
    Option (List CopernicusSourceAddress) := do
  let southFirst := clampSouth (← CInt.ofInt ⌊box.southDeg⌋)
  let southLast := clampSouth
    (← CInt.sub (← CInt.ofInt ⌈box.northDeg⌉) 1)
  let westFirst ← CInt.ofInt ⌊box.westDeg⌋
  let westLast ← CInt.sub (← CInt.ofInt ⌈box.eastDeg⌉) 1
  let bounds ← westBounds westFirst westLast
  visitRows bounds.1 bounds.2 (southLast - southFirst + 1).toNat southFirst

/-- The cells a deletion of a range visits. -/
def TerrainRange.sourceCells (latitude : K → K → K) (range : TerrainRange) :
    Option (List CopernicusSourceAddress) :=
  match range.sourceBox latitude with
  | none => some []
  | some box => box.cells

-- ========================================================= the deletion

/-- What the provider holds of its sources: until when a source counts
as unavailable, and the files of its directory. -/
structure SourceStore where
  unavailableSourceUntil : QHash CopernicusSourceAddress Int
  files : QHash CopernicusSourceAddress Bytes

/-- What comes of the removal of a file: another holds its lock, the
file goes, or the system refuses. -/
inductive SourceFileFate
  | locked | removed | refused
deriving DecidableEq, Repr

structure TerrainSourceDeletionResult where
  ok : Bool := true
  deletedCount : Nat := 0
  errorMessage : String := ""
deriving DecidableEq, Repr

/-- The body of the loops. -/
def deleteSourceCell (directory : String)
    (fate : CopernicusSourceAddress → SourceFileFate)
    (r : TerrainSourceDeletionResult × SourceStore)
    (address : CopernicusSourceAddress) :
    TerrainSourceDeletionResult × SourceStore :=
  let store := { r.2 with
    unavailableSourceUntil := r.2.unavailableSourceUntil.erase address }
  if (store.files.lookup address).isNone then (r.1, store)
  else match fate address with
  | .locked => (r.1, store)
  | .removed =>
      ({ r.1 with deletedCount := r.1.deletedCount + 1 },
        { store with files := store.files.erase address })
  | .refused =>
      ({ r.1 with
          ok := false
          errorMessage :=
            if r.1.errorMessage = "" then
              "Failed to delete Copernicus provider cache file: "
                ++ sourceTileCachePath directory address
            else r.1.errorMessage }, store)

/-- `CopernicusTerrainProvider::deleteSourceData`. -/
def Copernicus.deleteSourceData (dataset directory : String)
    (box : TerrainGeographicBox K)
    (fate : CopernicusSourceAddress → SourceFileFate) (store : SourceStore) :
    Option (TerrainSourceDeletionResult × SourceStore) :=
  if TileStore.Copernicus.supportsDataset dataset = false then some
    ({ ok := false
       errorMessage :=
         "Copernicus provider does not support dataset: " ++ dataset }, store)
  else if box.eastDeg ≤ box.westDeg ∨ box.northDeg ≤ box.southDeg ∨
      QString.trimmed directory.toList = [] then some
    ({ ok := false
       errorMessage := "Invalid Copernicus source deletion area" }, store)
  else do
    let cells ← box.cells
    return cells.foldl (deleteSourceCell directory fate) ({}, store)

/-- `deleteSourceData` of the terrain data. The one provider there may be
is the Copernicus one. -/
def deleteSourceData (latitude : K → K → K) (config : TileStore.Config)
    (directory : String) (range : TerrainRange)
    (fate : CopernicusSourceAddress → SourceFileFate) (store : SourceStore) :
    Option (TerrainCacheDeletionResult × SourceStore) :=
  match rejectCacheDeletion config range with
  | some rejected => some (rejected, store)
  | none =>
      match range.sourceBox latitude with
      | none => some ({}, store)
      | some box =>
          if config.copernicusEnabled = true ∧
              TileStore.Copernicus.supportsDataset range.dataset = true then
            (Copernicus.deleteSourceData range.dataset directory box fate
              store).map fun r =>
                ({ status := if r.1.ok then .deleted else .failed
                   deletedCount := r.1.deletedCount
                   errorMessage := r.1.errorMessage }, r.2)
          else some
            ({ status := .invalidDataset
               errorMessage := "No terrain provider supports dataset '"
                 ++ range.dataset ++ "'" }, store)

end

end AowisMap.Terrain
