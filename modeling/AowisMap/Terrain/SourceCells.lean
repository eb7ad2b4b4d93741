/-
The source cells of one degree: their addresses, their files, and the
cell a coordinate lies in.

# Whose row

The centres of a cell's pixels start at its north-west corner, so its
northern border is its own and its southern one is that of its southern
neighbour. A coordinate on a parallel of whole degrees, or next to it,
belongs to the cell south of it.
-/
import Mathlib.Data.Rat.Floor
import AowisMap.Lib.QString
import AowisMap.Lib.Rounding

namespace AowisMap.Terrain

open Lib

-- ============================================================ addresses

/-- A source cell of one degree, by its south-west corner. -/
structure CopernicusSourceAddress where
  southDeg : Int := 0
  westDeg : Int := 0
deriving DecidableEq, Repr

/-- Pads with zeros on the left, as a field width of `QString::arg`. -/
def padded (width : Nat) (digits : List Char) : List Char :=
  List.replicate (width - digits.length) '0' ++ digits

/-- `latitudeToken`. -/
def latitudeToken (southDeg : Int) : List Char :=
  (if southDeg ≥ 0 then 'N' else 'S')
    :: (padded 2 (QString.number southDeg.natAbs) ++ "_00".toList)

/-- `longitudeToken`. -/
def longitudeToken (westDeg : Int) : List Char :=
  (if westDeg ≥ 0 then 'E' else 'W')
    :: (padded 3 (QString.number westDeg.natAbs) ++ "_00".toList)

/-- `sourceTileBaseName`. -/
def sourceTileBaseName (address : CopernicusSourceAddress) : List Char :=
  "Copernicus_DSM_COG_10_".toList ++ latitudeToken address.southDeg
    ++ '_' :: longitudeToken address.westDeg ++ "_DEM".toList

/-- `sourceTileCachePath`. -/
def sourceTileCachePath (directory : String)
    (address : CopernicusSourceAddress) : String :=
  directory ++ "/copernicus/glo30/"
    ++ String.ofList (sourceTileBaseName address) ++ ".tif"

-- ========================================================== coordinates

section

variable {K : Type*} [Field K] [LinearOrder K] [FloorRing K]

/-- `std::round` and `std::llround`, of a value that fits. -/
def llround (value : K) : Int := Rounding.roundAway value

/-- `sourceWestForLongitude`. -/
def sourceWestForLongitude (longitudeDeg : K) : Int :=
  if longitudeDeg ≥ 180 then 179
  else if longitudeDeg ≤ -180 then -180
  else ⌊longitudeDeg⌋

/-- `sourceSouthForLatitude`. -/
def sourceSouthForLatitude (latitudeDeg : K) : Int :=
  if latitudeDeg ≤ -90 then -90
  else if latitudeDeg ≥ 90 then 89
  else
    let rounded := llround latitudeDeg
    if |latitudeDeg - rounded| ≤ 1 / 10 ^ 12 then rounded - 1
    else ⌊latitudeDeg⌋

/-- `sourceAddressForCoordinate`. -/
def sourceAddressForCoordinate (latitudeDeg longitudeDeg : K) :
    CopernicusSourceAddress where
  southDeg := sourceSouthForLatitude latitudeDeg
  westDeg := sourceWestForLongitude longitudeDeg

end

/-- How far from its borders a cell is read with its eastern and southern
neighbours. -/
def sourceNeighbourLongitudeMarginDeg {K : Type*} [Field K] : K := 1 / 360

def sourceNeighbourLatitudeMarginDeg {K : Type*} [Field K] : K := 1 / 3600

/-- `wrappedSourceWest`. -/
def wrappedSourceWest (unwrappedWestDeg : Int) : Int :=
  ((unwrappedWestDeg + 180).tmod 360 + 360).tmod 360 - 180

end AowisMap.Terrain
