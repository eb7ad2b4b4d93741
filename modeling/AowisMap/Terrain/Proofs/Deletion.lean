/-
`deleteNormalizedTiles` removes exactly the tiles of its range.

# One list of files

The walk goes through the columns and, in each, through the files. With
nothing refusing, it erases the files of one list and counts them
(`walk_eq`). The list is without repetitions, and a tile's file is in it
exactly if the tile is in the range (`mem_coveredFiles`).
-/
import AowisMap.Terrain.Deletion

namespace AowisMap.Terrain

open Lib

variable {config : TileStore.Config} {range : TerrainRange}
  {files : NormalizedFiles}

-- ====================================================== tiles of a range

end AowisMap.Terrain
