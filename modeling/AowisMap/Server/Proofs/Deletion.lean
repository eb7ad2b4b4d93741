/-
Deletion is exact in both stores: the map tiles and the normalized
terrain tiles.

The two walks are separate code over separate layouts, in `int` and in
64 bits. What they have in common is the test of a column, and that is
why one description of a range (`Cyclic.Cell`) fits both. The memory cache
of the map tiles is the exception: its keys are parsed, and a provider id
with a place marker does not survive being formatted into one.
-/
import AowisMap.Maps.Proofs.DeletionExact
import AowisMap.Terrain.Proofs.Deletion

namespace AowisMap.Server

open Lib

end AowisMap.Server
