/-
Normalized terrain tiles: their validity and the binary format version 1
(`terrain_tile.cpp`).

# Numbers

A `float` is a `FloatValue`: a rational, an infinity or not a number.
How an exact result becomes a float, and how a float is laid out in four
bytes, is a `FloatFormat`; the codec is written once for all of them.
Doubles are rationals. `exactFormat` computes exactly and stores the
values of a given table exactly, `binary32` is the IEEE layout with
results that leave the range becoming infinite.

`binary32` rounds to the grid of the floats where a value is laid out in
bytes, not where it is computed: its encoder divides by the scale as it
was before it was rounded for the header, while `terrain_tile.cpp`
divides by the rounded one. A code can differ by that; whether the bytes
are accepted cannot, as every code up to 65534 is. What depends on the
codes is proved for formats that store the scale exactly, where the two
are one.
-/
import AowisMap.Lib.LittleEndian
import AowisMap.Lib.QString
import AowisMap.Lib.Rounding
import AowisMap.Lib.Utf8
import AowisMap.Terrain.Types
import Mathlib.Data.Int.Log
import Mathlib.Data.Rat.Floor

namespace AowisMap.Terrain

open Lib Lib.LittleEndian

-- ============================================================== floats

/-- `std::numeric_limits<double>::epsilon()`. -/
def epsilon {K : Type*} [Field K] : K := 1 / 2 ^ 52

/-- The value of a float; the sign of a zero and the payload of a
not-a-number are not kept. -/
inductive FloatValue
  | nan
  | infinity (negative : Bool)
  | finite (value : Rat)
deriving DecidableEq, Repr

namespace FloatValue

/-- `finiteFloat`. -/
def isFinite : FloatValue → Bool
  | finite _ => true
  | _ => false

/-- `value < 0`, false for what is no number. -/
def isNegative : FloatValue → Bool
  | finite value => decide (value < 0)
  | infinity negative => negative
  | nan => false

/-- The largest finite float. -/
def maximum : Rat := (2 ^ 24 - 1) * 2 ^ 104

/-- The value of the IEEE layout: sign, eight bits of exponent, 23 bits
of fraction. -/
def ofBits (bits : Nat) : FloatValue :=
  let sign : Rat := if bits.testBit 31 then -1 else 1
  let exponent : Nat := bits / 2 ^ 23 % 256
  let fraction : Nat := bits % 2 ^ 23
  if exponent = 255 then
    if fraction = 0 then infinity (bits.testBit 31) else nan
  else if exponent = 0 then finite (sign * fraction / 2 ^ 149)
  else finite (sign * (2 ^ 23 + fraction) * 2 ^ exponent / 2 ^ 150)

/-- Half to even. -/
def roundEven (value : Rat) : Nat :=
  let low := ⌊value⌋.toNat
  if value - low < 1 / 2 then low
  else if 1 / 2 < value - low then low + 1
  else if low % 2 = 0 then low else low + 1

/-- The layout of the magnitude nearest to a rational. -/
def magnitudeBits (value : Rat) : Nat :=
  let exponent := max (Int.log 2 value) (-126)
  min ((exponent + 126).toNat * 2 ^ 23
    + roundEven (value * (2 : Rat) ^ (23 - exponent))) 0x7F800000

/-- The IEEE layout of a float, the nearest one for other rationals. -/
def toBits : FloatValue → Nat
  | nan => 0x7FC00000
  | infinity negative => if negative then 0xFF800000 else 0x7F800000
  | finite value =>
      if value = 0 then 0
      else if value < 0 then 2 ^ 31 + magnitudeBits (-value)
      else magnitudeBits value

end FloatValue

/-- How exact results become floats and floats become four bytes. -/
structure FloatFormat where
  round : Rat → FloatValue
  toBits : FloatValue → Nat
  ofBits : Nat → FloatValue
  toBits_lt : ∀ value, toBits value < 256 ^ 4

namespace FloatFormat

/-- A float that is stored as it is. -/
def Exact (fmt : FloatFormat) (value : FloatValue) : Prop :=
  fmt.ofBits (fmt.toBits value) = value

/-- The sum of two floats. -/
def add (fmt : FloatFormat) : FloatValue → FloatValue → FloatValue
  | .finite a, .finite b => fmt.round (a + b)
  | .nan, _ => .nan
  | _, .nan => .nan
  | .infinity s, .infinity t => if s = t then .infinity s else .nan
  | .infinity s, .finite _ => .infinity s
  | .finite _, .infinity t => .infinity t

/-- The product of a code and a float. -/
def scale (fmt : FloatFormat) (code : Nat) : FloatValue → FloatValue
  | .finite a => fmt.round (code * a)
  | .nan => .nan
  | .infinity s => if code = 0 then .nan else .infinity s

end FloatFormat

theorem FloatValue.toBits_lt (value : FloatValue) :
    value.toBits < 256 ^ 4 := by
  have hmagnitude : ∀ r, FloatValue.magnitudeBits r ≤ 0x7F800000 :=
    fun r => Nat.min_le_right _ _
  cases value with
  | nan => decide
  | infinity negative => cases negative <;> decide
  | finite r =>
      show (if r = 0 then 0 else if r < 0 then
        2 ^ 31 + FloatValue.magnitudeBits (-r)
        else FloatValue.magnitudeBits r) < _
      split
      · decide
      · split
        · have h := hmagnitude (-r)
          omega
        · have h := hmagnitude r
          omega

/-- The IEEE layout, with computations that are exact inside the range
and infinite beyond it. -/
def binary32 : FloatFormat where
  round value :=
    if FloatValue.maximum < value then .infinity false
    else if value < -FloatValue.maximum then .infinity true
    else .finite value
  toBits := FloatValue.toBits
  ofBits := FloatValue.ofBits
  toBits_lt := FloatValue.toBits_lt

/-- Exact computations, with any way to lay out floats. -/
def exactFormat (toBits : FloatValue → Nat) (ofBits : Nat → FloatValue)
    (toBits_lt : ∀ value, toBits value < 256 ^ 4) : FloatFormat where
  round := .finite
  toBits := toBits
  ofBits := ofBits
  toBits_lt := toBits_lt

-- ============================================================== tiles

def terrainTileFormatVersion : Nat := 1

def terrainTileSampleCount : Nat := terrainTileGridSize * terrainTileGridSize

def terrainTileNoDataCode : Nat := 65535

def terrainTileMaximumElevationCode : Nat := 65534

def terrainTileMaximumDatasetIdBytes : Nat := 128

/-- `TerrainTile`: samples row-major, north to south, then west to east;
not-a-number is no-data. -/
structure TerrainTile where
  address : TerrainTileAddress := {}
  dataset : String := ""
  nominalResolutionM : FloatValue := .finite 0
  verticalDatum : TerrainVerticalDatum := .unknown
  elevationsM : List FloatValue := []
deriving DecidableEq

/-- A byte of a dataset identifier. -/
def isDatasetIdByte (b : UInt8) : Bool :=
  (97 ≤ b && b ≤ 122) || (48 ≤ b && b ≤ 57) || b == 45 || b == 95 || b == 46

/-- `isValidTerrainDatasetId`. -/
def isValidTerrainDatasetId (dataset : String) : Bool :=
  let text := dataset.toList
  let utf8 := Utf8.toUtf8 text
  !text.isEmpty && QString.trimmed text == text &&
    text.map Char.toLower == text &&
    !utf8.isEmpty && decide (utf8.length ≤ terrainTileMaximumDatasetIdBytes) &&
    utf8.all isDatasetIdByte &&
    utf8.head?.any fun first =>
      (97 ≤ first && first ≤ 122) || (48 ≤ first && first ≤ 57)

/-- The `TerrainVerticalDatum` values all are. -/
def isValidTerrainVerticalDatum : TerrainVerticalDatum → Bool
  | .unknown | .wgs84Ellipsoid | .egm96 | .egm2008 | .local => true

/-- Whether `nominal_resolution_m` is a float that is not negative. -/
def isValidResolution : FloatValue → Bool
  | .finite value => decide (0 ≤ value) && decide (value ≤ FloatValue.maximum)
  | _ => false

/-- The message of `isValidTerrainTile`, none for a valid tile. -/
def terrainTileError (tile : TerrainTile) : Option String :=
  if isValidTerrainTileAddress tile.address = false then
    some "Invalid terrain tile XYZ address"
  else if isValidTerrainDatasetId tile.dataset = false then
    some "Invalid terrain dataset identifier"
  else if isValidResolution tile.nominalResolutionM = false then
    some "Invalid terrain nominal resolution"
  else if isValidTerrainVerticalDatum tile.verticalDatum = false then
    some "Invalid terrain vertical datum"
  else if tile.elevationsM.length ≠ terrainTileSampleCount then
    some "Terrain tile must contain exactly 4225 elevation samples"
  else if tile.elevationsM.any (fun sample =>
      !sample.isFinite && sample != .nan) then
    some "Terrain tile samples must be finite or NaN no-data values"
  else if tile.elevationsM.any FloatValue.isFinite = false then
    some "Terrain tile contains no finite elevation samples"
  else none

/-- `isValidTerrainTile`. -/
def isValidTerrainTile (tile : TerrainTile) : Bool :=
  (terrainTileError tile).isNone

-- ============================================================= checksum

/-- One bit of the checksum. -/
def crcBit (crc : BitVec 32) : BitVec 32 :=
  (crc >>> 1) ^^^ (0xEDB88320#32 &&& (0#32 - (crc &&& 1#32)))

/-- One byte of the checksum. -/
def crcByte (crc : BitVec 32) (b : UInt8) : BitVec 32 :=
  crcBit (crcBit (crcBit (crcBit (crcBit (crcBit (crcBit (crcBit
    (crc ^^^ BitVec.ofNat 32 b.toNat))))))))

/-- `crc32`. -/
def crc32 (data : Bytes) : Nat :=
  (~~~(data.foldl crcByte 0xFFFFFFFF#32)).toNat

-- ============================================================= encoding

/-- `AOWTRN` and two zero bytes. -/
def terrainTileMagic : Bytes := [65, 79, 87, 84, 82, 78, 0, 0]

def fixedHeaderBytes : Nat := 64

def payloadBytes : Nat := terrainTileSampleCount * 2

/-- `verticalDatumCode`. -/
def verticalDatumCode : TerrainVerticalDatum → Nat
  | .wgs84Ellipsoid => 1
  | .egm96 => 2
  | .egm2008 => 3
  | .local => 4
  | .unknown => 0

/-- `verticalDatumFromCode`. -/
def verticalDatumFromCode : Nat → Option TerrainVerticalDatum
  | 0 => some .unknown
  | 1 => some .wgs84Ellipsoid
  | 2 => some .egm96
  | 3 => some .egm2008
  | 4 => some .local
  | _ => none

/-- The finite samples. -/
def finiteSamples (samples : List FloatValue) : List Rat :=
  samples.filterMap fun sample =>
    match sample with
    | .finite value => some value
    | _ => none

/-- The loop over the samples that keeps the smallest finite one; there is
one in a valid tile. -/
def minimumElevation (samples : List FloatValue) : Rat :=
  match finiteSamples samples with
  | [] => 0
  | first :: rest => rest.foldl min first

/-- The same for the largest one. -/
def maximumElevation (samples : List FloatValue) : Rat :=
  match finiteSamples samples with
  | [] => 0
  | first :: rest => rest.foldl max first

/-- `qRound64`: half away from zero. -/
def qRound64 (value : Rat) : Int := Rounding.roundAway value

variable (fmt : FloatFormat)

/-- The step between two codes. -/
def elevationScale (minimum maximum : Rat) : FloatValue :=
  if 0 < maximum - minimum then
    fmt.round ((maximum - minimum) / terrainTileMaximumElevationCode)
  else .finite 0

/-- The code of a sample. -/
def elevationCode (minimum scale : Rat) : FloatValue → Nat
  | .finite value =>
      if scale = 0 then 0
      else (min (max (qRound64 ((value - minimum) / scale)) 0)
        terrainTileMaximumElevationCode).toNat
  | _ => terrainTileNoDataCode

/-- The bytes of an encoded tile. -/
def terrainTileBytes (tile : TerrainTile) (minimum scale : FloatValue)
    (codes : List Nat) : Bytes :=
  let datasetUtf8 := Utf8.toUtf8 tile.dataset.toList
  let payload := flatten 2 codes
  terrainTileMagic
    ++ (toBytes 2 terrainTileFormatVersion
    ++ (toBytes 2 (fixedHeaderBytes + datasetUtf8.length)
    ++ (toBytes 4 0
    ++ (toBytes 1 1
    ++ (toBytes 1 1
    ++ (toBytes 1 (verticalDatumCode tile.verticalDatum)
    ++ (toBytes 1 0
    ++ (toBytes 2 terrainTileGridSize
    ++ (toBytes 2 terrainTileGridSize
    ++ (toBytes 1 tile.address.zoom.toNat
    ++ ([0, 0, 0]
    ++ (toBytes 4 tile.address.x
    ++ (toBytes 4 tile.address.y
    ++ (toBytes 4 (fmt.toBits minimum)
    ++ (toBytes 4 (fmt.toBits scale)
    ++ (toBytes 4 (fmt.toBits tile.nominalResolutionM)
    ++ (toBytes 2 datasetUtf8.length
    ++ (toBytes 2 0
    ++ (toBytes 4 terrainTileSampleCount
    ++ (toBytes 4 payloadBytes
    ++ (toBytes 4 (crc32 payload)
    ++ (datasetUtf8
    ++ payload))))))))))))))))))))))

/-- `encodeTerrainTile`. -/
def encodeTerrainTile (tile : TerrainTile) : Except String Bytes :=
  match terrainTileError tile with
  | some message => .error message
  | none =>
      let minimum := minimumElevation tile.elevationsM
      let maximum := maximumElevation tile.elevationsM
      match elevationScale fmt minimum maximum with
      | .finite scale =>
          if scale < 0 then
            .error "Terrain tile elevation range cannot be encoded"
          else if 65535 < fixedHeaderBytes
              + (Utf8.toUtf8 tile.dataset.toList).length then
            .error "Terrain tile header is too large"
          else .ok (terrainTileBytes fmt tile (.finite minimum)
            (.finite scale)
            (tile.elevationsM.map (elevationCode minimum scale)))
      | _ => .error "Terrain tile elevation range cannot be encoded"

-- ============================================================= decoding

/-- The fields of the fixed header. -/
structure TileHeader where
  version : Nat
  headerBytes : Nat
  flags : Nat
  projection : Nat
  encoding : Nat
  datumCode : Nat
  reserved19 : Nat
  gridWidth : Nat
  gridHeight : Nat
  zoom : Nat
  reserved25To27 : Bytes
  tileX : Nat
  tileY : Nat
  minimumBits : Nat
  scaleBits : Nat
  resolutionBits : Nat
  datasetBytes : Nat
  reserved50 : Nat
  sampleCount : Nat
  payloadBytes : Nat
  expectedCrc32 : Nat
deriving DecidableEq

/-- Reads the fixed header. -/
def readHeader (data : Bytes) : TileHeader where
  version := readAt 2 data 8
  headerBytes := readAt 2 data 10
  flags := readAt 4 data 12
  projection := readAt 1 data 16
  encoding := readAt 1 data 17
  datumCode := readAt 1 data 18
  reserved19 := readAt 1 data 19
  gridWidth := readAt 2 data 20
  gridHeight := readAt 2 data 22
  zoom := readAt 1 data 24
  reserved25To27 := (data.drop 25).take 3
  tileX := readAt 4 data 28
  tileY := readAt 4 data 32
  minimumBits := readAt 4 data 36
  scaleBits := readAt 4 data 40
  resolutionBits := readAt 4 data 44
  datasetBytes := readAt 2 data 48
  reserved50 := readAt 2 data 50
  sampleCount := readAt 4 data 52
  payloadBytes := readAt 4 data 56
  expectedCrc32 := readAt 4 data 60

/-- Whether the three floats of a header are finite and the last two not
negative. -/
def validMetadata (header : TileHeader) : Bool :=
  (fmt.ofBits header.minimumBits).isFinite &&
    (fmt.ofBits header.scaleBits).isFinite &&
    !(fmt.ofBits header.scaleBits).isNegative &&
    (fmt.ofBits header.resolutionBits).isFinite &&
    !(fmt.ofBits header.resolutionBits).isNegative

/-- The checks on the header of a string of `size` bytes, in their order:
the message of the first one that fails. -/
def headerError (header : TileHeader) (size : Nat) : Option String :=
  if header.version ≠ terrainTileFormatVersion then
    some ("Unsupported terrain tile version: " ++ toString header.version)
  else if header.flags ≠ 0 then
    some "Terrain tile uses unsupported flags"
  else if header.reserved19 ≠ 0 ∨ header.reserved25To27 ≠ [0, 0, 0] ∨
      header.reserved50 ≠ 0 then
    some "Terrain tile reserved header fields are not zero"
  else if header.projection ≠ 1 ∨ header.encoding ≠ 1 then
    some "Terrain tile uses an unsupported projection or sample encoding"
  else if header.gridWidth ≠ terrainTileGridSize ∨
      header.gridHeight ≠ terrainTileGridSize ∨
      header.sampleCount ≠ terrainTileSampleCount ∨
      header.payloadBytes ≠ payloadBytes then
    some "Terrain tile grid or payload dimensions are invalid"
  else if header.headerBytes ≠ fixedHeaderBytes + header.datasetBytes ∨
      size < header.headerBytes then
    some "Terrain tile header length is invalid"
  else if header.headerBytes + header.payloadBytes ≠ size then
    some "Terrain tile file length does not match its header"
  else if validMetadata fmt header = false then
    some "Terrain tile elevation metadata is invalid"
  else none

/-- The elevation of a code. -/
def decodedElevation (minimum scale : FloatValue) (code : Nat) : FloatValue :=
  if code = terrainTileNoDataCode then .nan
  else fmt.add minimum (fmt.scale code scale)

/-- The dataset identifier behind the fixed header. -/
def datasetOf (header : TileHeader) (data : Bytes) : String :=
  String.ofList (Utf8.fromUtf8
    ((data.drop fixedHeaderBytes).take header.datasetBytes))

/-- The payload behind the header. -/
def payloadOf (header : TileHeader) (data : Bytes) : Bytes :=
  (data.drop header.headerBytes).take header.payloadBytes

/-- The tile a header and its payload describe. -/
def tileOf (header : TileHeader) (datum : TerrainVerticalDatum)
    (data : Bytes) : TerrainTile where
  address :=
    { zoom := header.zoom
      x := header.tileX
      y := header.tileY }
  dataset := datasetOf header data
  nominalResolutionM := fmt.ofBits header.resolutionBits
  verticalDatum := datum
  elevationsM := (readAll 2 (payloadOf header data) terrainTileSampleCount).map
    (decodedElevation fmt (fmt.ofBits header.minimumBits)
      (fmt.ofBits header.scaleBits))

/-- The checks on the tile and its payload. -/
def decodePayload (header : TileHeader) (datum : TerrainVerticalDatum)
    (data : Bytes) : Except String TerrainTile :=
  let tile := tileOf fmt header datum data
  if isValidTerrainTileAddress tile.address = false ∨
      isValidTerrainDatasetId tile.dataset = false ∨
      (Utf8.toUtf8 tile.dataset.toList).length ≠ header.datasetBytes then
    .error "Terrain tile address or dataset metadata is invalid"
  else if crc32 (payloadOf header data) ≠ header.expectedCrc32 then
    .error "Terrain tile payload CRC32 check failed"
  else if (readAll 2 (payloadOf header data) terrainTileSampleCount).all
      (fun code => code == terrainTileNoDataCode) then
    .error "Terrain tile payload contains only no-data samples"
  else .ok tile

/-- `decodeTerrainTile`. -/
def decodeTerrainTile (data : Bytes) : Except String TerrainTile :=
  if data.length < fixedHeaderBytes then
    .error "Terrain tile is shorter than the fixed header"
  else if data.take 8 ≠ terrainTileMagic then
    .error "Terrain tile magic does not match"
  else
    let header := readHeader data
    match headerError fmt header data.length,
        verticalDatumFromCode header.datumCode with
    | some message, _ => .error message
    | none, none => .error "Terrain tile vertical datum code is invalid"
    | none, some datum => decodePayload fmt header datum data

end AowisMap.Terrain
