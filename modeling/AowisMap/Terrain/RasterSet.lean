/-
`CopernicusRasterSet`: the rasters one request reads, and the points it
samples in them.

# Sources

What a set of rasters makes of a source cell (its download, its file, the
record of what is unavailable) is a parameter. A set keeps what it made
of a cell, so it is a function of the cell's address.

# Numbers

Points have coordinates in a field with floors in the place of doubles. A
pixel that is read is found from whole columns and rows, so rationals do
there. An elevation is the bit pattern of a float32.
-/
import AowisMap.Terrain.Raster
import AowisMap.Terrain.SourceCells

namespace AowisMap.Terrain

/-- `insertSourceAddress`. -/
def insertSourceAddress (addresses : List CopernicusSourceAddress)
    (address : CopernicusSourceAddress) : List CopernicusSourceAddress :=
  addresses.insert address

-- ============================================================== rasters

/-- What is read of a `CopernicusRaster`: a pixel is a value or none, and
an error message that is empty if there is no error. -/
structure SourceRaster where
  pixelWidth : Int
  pixelHeight : Int
  pixel : Int → Int → Option UInt32 × String
  visitWindow : RasterWindow → List RowRun × Except String Unit

/-- What a set of rasters makes of a source cell. -/
inductive SourceLoad
  | unavailable
  | failed (status : TerrainProviderFetchStatus) (errorMessage : String)
  | ready (raster : SourceRaster) (downloaded : Bool)

/-- The state of a set; `asked` are the cells it has a raster of or has
recorded as unavailable, or failed to load. -/
structure CopernicusRasterSet where
  downloadedAnySource : Bool := false
  fatalStatus : Option TerrainProviderFetchStatus := none
  fatalErrorMessage : String := ""
  asked : List CopernicusSourceAddress := []

namespace CopernicusRasterSet

variable (load : CopernicusSourceAddress → SourceLoad)

/-- `CopernicusRasterSet::raster`. -/
def raster (rasters : CopernicusRasterSet)
    (address : CopernicusSourceAddress) :
    Option SourceRaster × CopernicusRasterSet :=
  match load address with
  | .unavailable =>
      (none, { rasters with asked := address :: rasters.asked })
  | .failed status errorMessage =>
      (none, { rasters with
        fatalStatus := some status
        fatalErrorMessage := errorMessage
        asked := address :: rasters.asked })
  | .ready raster downloaded =>
      (some raster, { rasters with
        downloadedAnySource := rasters.downloadedAnySource || downloaded
        asked := address :: rasters.asked })

/-- A failure to read a raster. -/
def readError (rasters : CopernicusRasterSet) (errorMessage : String) :
    CopernicusRasterSet :=
  { rasters with
    fatalStatus := some .sourceReadError
    fatalErrorMessage := errorMessage }

/-- `CopernicusRasterSet::sourceGridValue`. -/
def sourceGridValue (rasters : CopernicusRasterSet)
    (baseAddress : CopernicusSourceAddress)
    (baseWidth baseHeight column row : Int) :
    Option UInt32 × CopernicusRasterSet :=
  let longitudeDeg : Rat :=
    (baseAddress.westDeg : Rat) + (column : Rat) / (baseWidth : Rat)
  let latitudeDeg : Rat :=
    ((baseAddress.southDeg + 1 : Int) : Rat) - (row : Rat) / (baseHeight : Rat)
  let address := sourceAddressForCoordinate latitudeDeg longitudeDeg
  match rasters.raster load address with
  | (none, rasters) => (none, rasters)
  | (some raster, rasters) =>
      let sourceColumn := (longitudeDeg - address.westDeg) * raster.pixelWidth
      let sourceRow :=
        (((address.southDeg + 1 : Int) : Rat) - latitudeDeg)
          * raster.pixelHeight
      let resolvedColumn :=
        max 0 (min (llround sourceColumn) (raster.pixelWidth - 1))
      let resolvedRow :=
        max 0 (min (llround sourceRow) (raster.pixelHeight - 1))
      match raster.pixel resolvedColumn resolvedRow with
      | (some value, _) => (some value, rasters)
      | (none, pixelError) =>
          if pixelError = "" then (none, rasters)
          else (none, rasters.readError pixelError)

section

variable {K : Type*} [Field K] [LinearOrder K] [FloorRing K]

/-- `CopernicusRasterSet::sampleNative`. -/
def sampleNative (rasters : CopernicusRasterSet)
    (latitudeDeg longitudeDeg : K) : Option UInt32 × CopernicusRasterSet :=
  if rasters.fatalStatus.isSome then (none, rasters)
  else
    let address := sourceAddressForCoordinate latitudeDeg longitudeDeg
    match rasters.raster load address with
    | (none, rasters) => (none, rasters)
    | (some raster, rasters) =>
        let column :=
          llround ((longitudeDeg - address.westDeg) * raster.pixelWidth)
        let row :=
          llround ((((address.southDeg + 1 : Int) : K) - latitudeDeg)
            * raster.pixelHeight)
        rasters.sourceGridValue load address raster.pixelWidth
          raster.pixelHeight (max 0 column) (max 0 row)

/-- `double(value)`, of a float that is finite. -/
def elevationOf (bits : UInt32) : K :=
  match FloatValue.ofBits bits.toNat with
  | .finite value => (value : K)
  | _ => 0

/-- The loop of `sample` over the pixels around a point: their weights,
columns and rows. -/
def weightedValue (baseAddress : CopernicusSourceAddress)
    (baseWidth baseHeight : Int) :
    CopernicusRasterSet → K → List (K × Int × Int) →
      Option K × CopernicusRasterSet
  | rasters, weighted, [] => (some weighted, rasters)
  | rasters, weighted, (weight, column, row) :: rest =>
      if weight ≤ epsilon then
        weightedValue baseAddress baseWidth baseHeight rasters weighted rest
      else
        match rasters.sourceGridValue load baseAddress baseWidth baseHeight
          column row with
        | (none, rasters) => (none, rasters)
        | (some value, rasters) =>
            weightedValue baseAddress baseWidth baseHeight rasters
              (weighted + weight * elevationOf value) rest

/-- `CopernicusRasterSet::sample`. -/
def sample (rasters : CopernicusRasterSet) (latitudeDeg longitudeDeg : K) :
    Option K × CopernicusRasterSet :=
  if rasters.fatalStatus.isSome then (none, rasters)
  else
    let baseAddress := sourceAddressForCoordinate latitudeDeg longitudeDeg
    match rasters.raster load baseAddress with
    | (none, rasters) => (none, rasters)
    | (some baseRaster, rasters) =>
        let pixelX :=
          (longitudeDeg - baseAddress.westDeg) * baseRaster.pixelWidth
        let pixelY :=
          (((baseAddress.southDeg + 1 : Int) : K) - latitudeDeg)
            * baseRaster.pixelHeight
        let column := max 0 ⌊pixelX⌋
        let row := max 0 ⌊pixelY⌋
        let columnFraction := max 0 (min (pixelX - column) 1)
        let rowFraction := max 0 (min (pixelY - row) 1)
        weightedValue load baseAddress baseRaster.pixelWidth
          baseRaster.pixelHeight rasters 0
          [((1 - columnFraction) * (1 - rowFraction), column, row),
            (columnFraction * (1 - rowFraction), column + 1, row),
            ((1 - columnFraction) * rowFraction, column, row + 1),
            (columnFraction * rowFraction, column + 1, row + 1)]

/-- `CopernicusRasterSet::pixelSizeAt`, none where it returns false. -/
def pixelSizeAt (rasters : CopernicusRasterSet)
    (latitudeDeg longitudeDeg : K) :
    Option (K × K) × CopernicusRasterSet :=
  if rasters.fatalStatus.isSome then (none, rasters)
  else
    match rasters.raster load
      (sourceAddressForCoordinate latitudeDeg longitudeDeg) with
    | (none, rasters) => (none, rasters)
    | (some raster, rasters) =>
        (some (1 / (raster.pixelWidth : K), 1 / (raster.pixelHeight : K)),
          rasters)

end

end CopernicusRasterSet

end AowisMap.Terrain
