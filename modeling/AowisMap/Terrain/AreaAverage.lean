/-
`CopernicusRasterSet::accumulateAreaAverages`: the source pixels over a
grid of boxes, each weighted by the area its footprint shares with a box.

# Arrays

The sums of the boxes and of the columns of boxes are functions of their
index, and the overlaps of a pixel column or row are the list the code
keeps a slice of an array for.

# Bounds

The code converts the floors and ceilings of edges, and of distances in
pixels, to `int`. Edges are degrees of one globe, and a GLO-30 cell has at
most 3600 pixels to a degree, so that none of them exceeds 360 * 3600, far
below 2 ^ 31: they stand here as the integers they are.
-/
import Mathlib.Logic.Function.Basic
import AowisMap.Terrain.RasterSet

namespace AowisMap.Terrain

open Lib

variable {K : Type*} [Field K] [LinearOrder K] [FloorRing K]

def maximumSourceHalfPixelLongitudeDeg : K := 1 / 2 * 6 / 3600

def maximumSourceHalfPixelLatitudeDeg : K := 1 / 2 / 3600

-- ============================================================= overlaps

/-- `edges[index]`. -/
def edge (edges : List K) (index : Nat) : K := edges.getD index 0

/-- The columns of boxes a footprint overlaps and by how much, for edges
that ascend. -/
def columnOverlaps (edges : List K) (low high : K) : List (Nat × K) :=
  let columns := edges.length - 1
  -- the box before `std::upper_bound`
  let first := (edges.takeWhile fun value => value ≤ low).length - 1
  ((List.range' first (columns - first)).takeWhile fun sample =>
    edge edges sample < high).filterMap fun sample =>
      let overlap := min high (edge edges (sample + 1))
        - max low (edge edges sample)
      if 0 < overlap then some (sample, overlap) else none

/-- The rows of boxes a footprint overlaps and by how much, for edges
that descend. -/
def rowOverlaps (edges : List K) (low high : K) : List (Nat × K) :=
  let rows := edges.length - 1
  let first := ((List.range rows).takeWhile fun sample =>
    high ≤ edge edges (sample + 1)).length
  ((List.range' first (rows - first)).takeWhile fun sample =>
    low < edge edges sample).filterMap fun sample =>
      let overlap := min high (edge edges sample)
        - max low (edge edges (sample + 1))
      if 0 < overlap then some (sample, overlap) else none

-- ================================================================= runs

/-- `sums`, `weights`, `row_sums` and `row_weights`. -/
structure AreaSums (K : Type*) where
  sums : Nat → K
  weights : Nat → K
  rowSums : Nat → K
  rowWeights : Nat → K

/-- All zero. -/
def AreaSums.zero : AreaSums K where
  sums _ := 0
  weights _ := 0
  rowSums _ := 0
  rowWeights _ := 0

/-- The sums of a run by columns of boxes, and the columns it touched. -/
structure RunSums (K : Type*) where
  sums : Nat → K
  weights : Nat → K
  touchedFirst : Int
  touchedLast : Int

/-- `std::isnan`. -/
def isNaN (bits : UInt32) : Bool :=
  decide (FloatValue.ofBits bits.toNat = .nan)

/-- A pixel in one column of boxes. -/
def RunSums.addOverlap (value : K) (run : RunSums K) (overlap : Nat × K) :
    RunSums K where
  sums := Function.update run.sums overlap.1
    (run.sums overlap.1 + overlap.2 * value)
  weights := Function.update run.weights overlap.1
    (run.weights overlap.1 + overlap.2)
  touchedFirst := min run.touchedFirst overlap.1
  touchedLast := max run.touchedLast overlap.1

/-- A pixel of a run, with the overlaps of its column. -/
def RunSums.addPixel (overlaps : Int → List (Nat × K)) (run : RunSums K)
    (pixel : UInt32 × Int) : RunSums K :=
  if isNaN pixel.1 then run
  else (overlaps pixel.2).foldl
    (RunSums.addOverlap (CopernicusRasterSet.elevationOf pixel.1)) run

/-- The sums of a run in one row of boxes. -/
def AreaSums.addRow (columns : Nat) (run : RunSums K) (area : AreaSums K)
    (overlap : Nat × K) : AreaSums K :=
  (Steps.values run.touchedFirst run.touchedLast 1).foldl
    (fun area sample =>
      let box := overlap.1 * columns + sample.toNat
      { area with
        sums := Function.update area.sums box
          (area.sums box + overlap.2 * run.sums sample.toNat)
        weights := Function.update area.weights box
          (area.weights box + overlap.2 * run.weights sample.toNat) })
    area

/-- `std::fill` with zeros. -/
def clear (first last : Int) (values : Nat → K) (index : Nat) : K :=
  if first ≤ index ∧ (index : Int) ≤ last then 0 else values index

/-- The visitor of the runs of a cell. -/
def AreaSums.visit (columns : Nat)
    (columnOverlaps rowOverlaps : Int → List (Nat × K)) (area : AreaSums K)
    (run : RowRun) : AreaSums K :=
  let touched := (run.values.zipIdx.map fun value =>
      (value.1, run.column + value.2)).foldl
    (RunSums.addPixel columnOverlaps)
    { sums := area.rowSums
      weights := area.rowWeights
      touchedFirst := columns
      touchedLast := -1 }
  if touched.touchedLast < touched.touchedFirst then
    { area with
      rowSums := touched.sums
      rowWeights := touched.weights }
  else
    let added := (rowOverlaps run.row).foldl
      (AreaSums.addRow columns touched) area
    { added with
      rowSums := clear touched.touchedFirst touched.touchedLast touched.sums
      rowWeights :=
        clear touched.touchedFirst touched.touchedLast touched.weights }

-- ================================================================ cells

/-- The borders of a pixel's footprint. -/
def pixelWest (cellWest pixelColumns column : Int) : K :=
  cellWest + ((column : K) - 1 / 2) / pixelColumns

def pixelEast (cellWest pixelColumns column : Int) : K :=
  cellWest + ((column : K) + 1 / 2) / pixelColumns

def pixelNorth (cellNorth pixelRows row : Int) : K :=
  cellNorth - ((row : K) - 1 / 2) / pixelRows

def pixelSouth (cellNorth pixelRows row : Int) : K :=
  cellNorth - ((row : K) + 1 / 2) / pixelRows

/-- The pixels of a cell whose footprints overlap the boxes. -/
def pixelWindow (longitudeEdges latitudeEdges : List K)
    (cellSouth cellWest pixelColumns pixelRows : Int) : RasterWindow :=
  let west := edge longitudeEdges 0
  let east := edge longitudeEdges (longitudeEdges.length - 1)
  let north := edge latitudeEdges 0
  let south := edge latitudeEdges (latitudeEdges.length - 1)
  let cellNorth : Int := cellSouth + 1
  { columnFirst := max 0 (⌊(west - cellWest) * pixelColumns - 1 / 2⌋ + 1)
    columnLast := min (pixelColumns - 1)
      (⌈(east - cellWest) * pixelColumns + 1 / 2⌉ - 1)
    rowFirst := max 0 (⌊(cellNorth - north) * pixelRows - 1 / 2⌋ + 1)
    rowLast := min (pixelRows - 1)
      (⌈(cellNorth - south) * pixelRows + 1 / 2⌉ - 1) }

namespace CopernicusRasterSet

variable (load : CopernicusSourceAddress → SourceLoad)
  (longitudeEdges latitudeEdges : List K)

/-- One round of the loops over the cells, and whether it succeeded. -/
def accumulateCell (cellSouth unwrappedWest : Int) (area : AreaSums K)
    (rasters : CopernicusRasterSet) :
    Bool × AreaSums K × CopernicusRasterSet :=
  let (source, rasters) :=
    rasters.raster load ⟨cellSouth, wrappedSourceWest unwrappedWest⟩
  if rasters.fatalStatus.isSome then (false, area, rasters)
  else
    match source with
    | none => (true, area, rasters)
    | some raster =>
        let window := pixelWindow longitudeEdges latitudeEdges cellSouth
          unwrappedWest raster.pixelWidth raster.pixelHeight
        if window.columnLast < window.columnFirst
            ∨ window.rowLast < window.rowFirst then
          (true, area, rasters)
        else
          let columns := fun column : Int => columnOverlaps longitudeEdges
            (pixelWest unwrappedWest raster.pixelWidth column)
            (pixelEast unwrappedWest raster.pixelWidth column)
          let rows := fun row : Int => rowOverlaps latitudeEdges
            (pixelSouth (cellSouth + 1) raster.pixelHeight row)
            (pixelNorth (cellSouth + 1) raster.pixelHeight row)
          let (runs, result) := raster.visitWindow window
          let area := runs.foldl
            (AreaSums.visit (longitudeEdges.length - 1) columns rows) area
          match result with
          | .ok () => (true, area, rasters)
          | .error readError => (false, area, rasters.readError readError)

/-- The loops over the cells. -/
def accumulateCells :
    List (Int × Int) → AreaSums K → CopernicusRasterSet →
      Bool × AreaSums K × CopernicusRasterSet
  | [], area, rasters => (true, area, rasters)
  | (cellSouth, unwrappedWest) :: rest, area, rasters =>
      match accumulateCell load longitudeEdges latitudeEdges cellSouth
        unwrappedWest area rasters with
      | (true, area, rasters) => accumulateCells rest area rasters
      | (false, area, rasters) => (false, area, rasters)

/-- The cells whose footprints can reach the boxes: the southern borders
and the unwrapped western ones. -/
def candidateCells : List (Int × Int) :=
  let west := edge longitudeEdges 0
  let east := edge longitudeEdges (longitudeEdges.length - 1)
  let north := edge latitudeEdges 0
  let south := edge latitudeEdges (latitudeEdges.length - 1)
  let firstSouth := max (-90) ⌊south - maximumSourceHalfPixelLatitudeDeg⌋
  let lastSouth := min 89 (⌈north - maximumSourceHalfPixelLatitudeDeg⌉ - 1)
  let firstWest := ⌊west⌋
  let lastWest := ⌊east + maximumSourceHalfPixelLongitudeDeg⌋
  (Steps.values firstSouth lastSouth 1).flatMap fun cellSouth =>
    (Steps.values firstWest lastWest 1).map fun unwrappedWest =>
      (cellSouth, unwrappedWest)

/-- `CopernicusRasterSet::accumulateAreaAverages`. -/
def accumulateAreaAverages (rasters : CopernicusRasterSet) :
    Bool × AreaSums K × CopernicusRasterSet :=
  accumulateCells load longitudeEdges latitudeEdges
    (candidateCells longitudeEdges latitudeEdges) AreaSums.zero rasters

end CopernicusRasterSet

end AowisMap.Terrain
