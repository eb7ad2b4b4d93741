/-
`TerrainData::deleteNormalizedTiles`: the walk over the directories of
the normalized tiles of a zoom.

# Names

The files lie in a directory for each dataset, zoom and column. Dataset
and zoom directories are addressed by the path the code builds; column
directories and files are found by listing, and their names are read as
numbers. So a `NormalizedFile` has numbers where the code writes names
and names where it reads them.
-/
import Mathlib.Data.List.Dedup
import AowisMap.Lib.Cyclic
import AowisMap.Lib.Hash
import AowisMap.Terrain.TileStore

namespace AowisMap.Terrain

open Lib

-- ============================================================== results

inductive TerrainCacheDeletionStatus
  | deleted | disabled | notInitialized | invalidDataset | invalidRange
  | failed
deriving DecidableEq, Repr

/-- `terrainCacheDeletionStatusId`. -/
def terrainCacheDeletionStatusId : TerrainCacheDeletionStatus → String
  | .deleted => "deleted"
  | .disabled => "disabled"
  | .notInitialized => "not-initialized"
  | .invalidDataset => "invalid-dataset"
  | .invalidRange => "invalid-range"
  | .failed => "failed"

structure TerrainCacheDeletionResult where
  status : TerrainCacheDeletionStatus := .deleted
  deletedCount : Nat := 0
  errorMessage : String := ""
deriving DecidableEq, Repr

-- ============================================================ the store

/-- The arguments of a deletion. -/
structure TerrainRange where
  dataset : String
  zoom : Int
  xMin : Int
  xMax : Int
  yMin : Int
  yMax : Int
deriving DecidableEq, Repr

/-- A file `<dataset>/<zoom>/<column>/<name>` of the normalized store. -/
structure NormalizedFile where
  dataset : String
  zoom : Int
  column : List Char
  name : List Char
deriving DecidableEq, Repr

/-- The files of the normalized store. -/
abbrev NormalizedFiles := QHash NormalizedFile Bytes

/-- `tile_suffix`. -/
def tileSuffix : List Char := '.' :: TileStore.terrainTileFileExtension.toList

/-- The path of a file. -/
def NormalizedFile.path (config : TileStore.Config) (file : NormalizedFile) :
    String :=
  config.normalized ++ "/" ++ String.ofList
    ('v' :: (QString.number terrainTileFormatVersion
      ++ '/' :: 'r' :: (QString.number TileStore.terrainNormalizationRevision
      ++ '/' :: (file.dataset.toList
      ++ '/' :: (QString.number file.zoom
      ++ '/' :: (file.column ++ '/' :: file.name))))))

-- ============================================================ the range

/-- `1 << zoom`. -/
def tileCount (zoom : Int) : Int := 2 ^ zoom.toNat

theorem tileCount_pos (zoom : Int) : 0 < tileCount zoom :=
  Int.pow_pos (by decide)

/-- A range moved by whole turns. -/
def TerrainRange.shifted (range : TerrainRange) (k : Int) : TerrainRange :=
  { range with
    xMin := range.xMin + k * tileCount range.zoom
    xMax := range.xMax + k * tileCount range.zoom }

/-- `positiveModulo`, in 64 bits. -/
def positiveModulo (value divisor : Int) : Int :=
  Cyclic.positiveModulo value divisor

/-- `tileXInsideRange`, in 64 bits. -/
def tileXInsideRange (tileX tileCount xMin xMax : Int) : Bool :=
  Cyclic.insideRange tileX tileCount xMin xMax

/-- `rejectCacheDeletion`. -/
def rejectCacheDeletion (config : TileStore.Config) (range : TerrainRange) :
    Option TerrainCacheDeletionResult :=
  if config.enabled = false then some
    { status := .disabled
      errorMessage := "Terrain subsystem is disabled" }
  else if config.initialized = false then some
    { status := .notInitialized
      errorMessage := "Terrain subsystem is not initialized" }
  else if isValidTerrainDatasetId range.dataset = false then some
    { status := .invalidDataset
      errorMessage := "Invalid terrain dataset identifier" }
  else if range.zoom < 0 ∨ range.zoom > terrainTileMaximumZoom ∨
      range.xMin > range.xMax ∨ range.yMin > range.yMax then some
    { status := .invalidRange
      errorMessage := "Invalid terrain cache deletion range" }
  else none

/-- Whether the walk enters a directory. -/
def TerrainRange.coversColumn (range : TerrainRange) (column : List Char) :
    Bool :=
  match QString.toLongLong column with
  | some x =>
      0 ≤ x && x < tileCount range.zoom &&
        tileXInsideRange x (tileCount range.zoom) range.xMin range.xMax
  | none => false

/-- Whether a name matches `*.aowterrain`, in any case. -/
def hasTileSuffix (name : List Char) : Bool :=
  (name.drop (name.length - tileSuffix.length)).map Char.toLower == tileSuffix

/-- Whether the walk removes a file of a directory it entered. -/
def TerrainRange.coversName (range : TerrainRange) (name : List Char) :
    Bool :=
  hasTileSuffix name &&
    match QString.toLongLong (name.take (name.length - tileSuffix.length)) with
    | some y =>
        max 0 range.yMin ≤ y && y ≤ min (tileCount range.zoom - 1) range.yMax
    | none => false

-- ============================================================= the walk

/-- Removes a file, or notes the first one that refuses. -/
def removeTile (config : TileStore.Config) (refuses : NormalizedFile → Bool)
    (r : TerrainCacheDeletionResult × NormalizedFiles)
    (file : NormalizedFile) : TerrainCacheDeletionResult × NormalizedFiles :=
  if refuses file then
    ({ r.1 with
        status := .failed
        errorMessage :=
          if r.1.errorMessage = "" then
            "Failed to delete normalized terrain tile: " ++ file.path config
          else r.1.errorMessage }, r.2)
  else
    ({ r.1 with deletedCount := r.1.deletedCount + 1 }, r.2.erase file)

/-- The files of the dataset's zoom directory. -/
def TerrainRange.zoomFiles (range : TerrainRange) (files : NormalizedFiles) :
    List NormalizedFile :=
  files.keys.filter fun file =>
    file.dataset == range.dataset && file.zoom == range.zoom

/-- `x_directory_names`. -/
def TerrainRange.columnNames (range : TerrainRange)
    (files : NormalizedFiles) : List (List Char) :=
  ((range.zoomFiles files).map NormalizedFile.column).dedup

/-- The files of a column directory. No removal in another directory
changes them. -/
def TerrainRange.columnFiles (range : TerrainRange) (files : NormalizedFiles)
    (column : List Char) : List NormalizedFile :=
  (range.zoomFiles files).filter fun file => file.column == column

/-- `deleteNormalizedTiles`. -/
def deleteNormalizedTiles (config : TileStore.Config) (range : TerrainRange)
    (refuses : NormalizedFile → Bool) (files : NormalizedFiles) :
    TerrainCacheDeletionResult × NormalizedFiles :=
  match rejectCacheDeletion config range with
  | some rejected => (rejected, files)
  | none =>
      if max 0 range.yMin > min (tileCount range.zoom - 1) range.yMax then
        ({}, files)
      else if TileStore.normalizedTilePath config
          ⟨range.dataset, { zoom := range.zoom }⟩ = "" then
        ({ status := .invalidRange
           errorMessage := "Invalid terrain cache deletion range" }, files)
      else
        ((range.columnNames files).filter range.coversColumn).foldl
          (fun r column =>
            ((range.columnFiles files column).filter
              fun file => range.coversName file.name).foldl
              (removeTile config refuses) r)
          ({}, files)

end AowisMap.Terrain
