/-
The path of a normalized tile as `terrain_tile.cpp` builds it: a template
of seven places, cleaned.
-/
import AowisMap.Lib.Path
import AowisMap.Terrain.TileStore

namespace AowisMap.Terrain

open Lib

/-- `v%1/r%2/%3/%4/%5/%6.%7`. -/
def tilePathTemplate : List Char := "v%1/r%2/%3/%4/%5/%6.%7".toList

/-- The template with its values, the lowest place first. -/
def filledTemplate (dataset : String) (address : TerrainTileAddress) :
    List Char :=
  [QString.number terrainTileFormatVersion,
    QString.number TileStore.terrainNormalizationRevision,
    dataset.toList, QString.number address.zoom, QString.number address.x,
    QString.number address.y,
    TileStore.terrainTileFileExtension.toList].foldl
    QString.arg tilePathTemplate

/-- `normalizedTerrainTileRelativePath`. -/
def normalizedTerrainTileRelativePath (dataset : String)
    (address : TerrainTileAddress) : String :=
  if isValidTerrainDatasetId dataset = false ∨
      isValidTerrainTileAddress address = false then ""
  else String.ofList (Path.cleanPath (filledTemplate dataset address))

end AowisMap.Terrain
