/-
`CopernicusRaster`: the pixels of one source cell, read from the blocks of
its TIFF file, and the cache of decoded blocks.

# libtiff

What libtiff says of an open file is a parameter: its tags, whether its
georeferencing is accepted, the index of the block of a pixel and the
bytes of a block.

# Budgets

All rasters share a budget for decoding and one for the blocks they keep.
Whether a budget has room is a parameter, by the number of the block this
raster decodes.
-/
import AowisMap.Lib.CInt
import AowisMap.Lib.Hash
import AowisMap.Lib.Steps
import AowisMap.Terrain.Tile

namespace AowisMap.Terrain

open Lib

-- =========================================================== elevations

/-- `validElevation`, of a float32's bit pattern. -/
def validElevation (bits : UInt32) : Bool :=
  match FloatValue.ofBits bits.toNat with
  | .finite value => decide (-10000 < value) && decide (value < 100000)
  | _ => false

/-- `std::numeric_limits<float>::quiet_NaN()`. -/
def quietNaN : UInt32 := 0x7FC00000

-- ================================================================ cache

def maximumDecodedRasterBlockCacheBytes : Nat := 32 * 1024 * 1024

structure CopernicusDecodedBlockCache where
  maximumBytes : Nat := maximumDecodedRasterBlockCacheBytes
  storedBytes : Nat := 0
  blocks : QHash UInt32 Bytes := ∅
  insertionOrder : List UInt32 := []

namespace CopernicusDecodedBlockCache

def find (cache : CopernicusDecodedBlockCache) (key : UInt32) :
    Option Bytes :=
  cache.blocks.lookup key

/-- The loop of `insert`: the oldest blocks go until there is room. -/
def evict (size : Nat) :
    List UInt32 → CopernicusDecodedBlockCache →
      Bool × CopernicusDecodedBlockCache
  | [], cache =>
      (decide (cache.storedBytes ≤ cache.maximumBytes - size),
        { cache with insertionOrder := [] })
  | oldest :: rest, cache =>
      if cache.storedBytes ≤ cache.maximumBytes - size then
        (true, { cache with insertionOrder := oldest :: rest })
      else
        let evictedBytes := ((cache.find oldest).getD []).length
        evict size rest { cache with
          storedBytes := cache.storedBytes - evictedBytes
          blocks := cache.blocks.erase oldest }

/-- `CopernicusDecodedBlockCache::insert`, with the answer of the shared
budget. -/
def insert (granted : Bool) (cache : CopernicusDecodedBlockCache)
    (key : UInt32) (block : Bytes) : Bool × CopernicusDecodedBlockCache :=
  if block = [] ∨ cache.maximumBytes < block.length then (false, cache)
  else if (cache.find key).isSome then (false, cache)
  else
    match cache.evict block.length cache.insertionOrder with
    | (false, cache) => (false, cache)
    | (true, cache) =>
        if granted = false then (false, cache)
        else
          (true, { cache with
            blocks := cache.blocks.insert key block
            insertionOrder := cache.insertionOrder ++ [key]
            storedBytes := cache.storedBytes + block.length })

end CopernicusDecodedBlockCache

-- ================================================================ files

/-- An open file, as libtiff shows it. -/
structure Tiff where
  imageWidth : Option Nat
  imageLength : Option Nat
  bitsPerSample : Option Nat
  samplesPerPixel : Option Nat
  sampleFormat : Option Nat
  planarConfig : Option Nat
  isTiled : Bool
  tileWidth : Option Nat
  tileLength : Option Nat
  rowsPerStrip : Option Nat
  georeferencing : Except String Unit
  tileSize : Int
  stripSize : Int
  computeTile : Nat → Nat → UInt32
  computeStrip : Nat → UInt32
  readEncodedTile : UInt32 → Option Bytes
  readEncodedStrip : UInt32 → Option Bytes

/-- The members of a raster that is open. -/
structure CopernicusRaster where
  path : String
  tiff : Tiff
  width : Nat := 0
  height : Nat := 0
  tileWidth : Nat := 0
  tileHeight : Nat := 0
  rowsPerStrip : Nat := 0
  tiled : Bool := false

namespace CopernicusRaster

def sampleFormatIeeefp : Nat := 3

def planarConfigContig : Nat := 1

/-- The last part of `open`: the geometry of the blocks. -/
def openBlocks (path : String) (tiff : Tiff) (width height : Nat) :
    Except String CopernicusRaster :=
  if tiff.isTiled then
    match tiff.tileWidth, tiff.tileLength with
    | some tileWidth, some tileHeight =>
        if tileWidth = 0 ∨ tileHeight = 0 then
          .error ("Copernicus tiled GeoTIFF has invalid tile geometry: "
            ++ path)
        else
          tiff.georeferencing.map fun _ =>
            { path := path
              tiff := tiff
              width := width
              height := height
              tileWidth := tileWidth
              tileHeight := tileHeight
              tiled := true }
    | _, _ =>
        .error ("Copernicus tiled GeoTIFF has invalid tile geometry: "
          ++ path)
  else
    match tiff.rowsPerStrip with
    | some rowsPerStrip =>
        if rowsPerStrip = 0 then
          .error ("Copernicus stripped GeoTIFF has invalid strip geometry: "
            ++ path)
        else
          tiff.georeferencing.map fun _ =>
            { path := path
              tiff := tiff
              width := width
              height := height
              rowsPerStrip := rowsPerStrip }
    | none =>
        .error ("Copernicus stripped GeoTIFF has invalid strip geometry: "
          ++ path)

/-- `CopernicusRaster::open`. -/
def openTiff (path : String) (file : Option Tiff) :
    Except String CopernicusRaster :=
  match file with
  | none => .error ("Failed to open Copernicus GeoTIFF: " ++ path)
  | some tiff =>
      match tiff.imageWidth, tiff.imageLength, tiff.bitsPerSample,
        tiff.samplesPerPixel, tiff.sampleFormat, tiff.planarConfig with
      | some width, some height, some bits, some samples, some format,
        some planar =>
          if width = 0 ∨ height = 0 ∨ bits ≠ 32 ∨ samples ≠ 1
              ∨ format ≠ sampleFormatIeeefp
              ∨ planar ≠ planarConfigContig then
            .error ("Unsupported Copernicus GeoTIFF layout in " ++ path
              ++ " (width=" ++ toString width ++ " height="
              ++ toString height ++ " bits=" ++ toString bits
              ++ " samples=" ++ toString samples ++ " format="
              ++ toString format ++ " planar=" ++ toString planar ++ ")")
          else openBlocks path tiff width height
      | _, _, _, _, _, _ =>
          .error ("Copernicus GeoTIFF is missing required raster metadata: "
            ++ path)

end CopernicusRaster

-- =============================================================== blocks

/-- Whether the shared budgets have room, by the number of the block. -/
structure DecodeBudgets where
  decode : Nat → Bool
  retain : Nat → Bool

/-- What reading changes in a raster. -/
structure RasterState where
  decodedBlocks : CopernicusDecodedBlockCache := {}
  decodes : Nat := 0

/-- How the blocks of a layout are read. -/
structure BlockReader where
  size : Int
  read : UInt32 → Option Bytes
  sizeMessage : String
  decodeMessage : String

/-- A buffer of zeros that libtiff has written to. -/
def decodeBuffer (size : Nat) (data : Bytes) : Bytes :=
  data.take size ++ List.replicate (size - data.length) 0

namespace CopernicusRaster

def tileReader (raster : CopernicusRaster) : BlockReader where
  size := raster.tiff.tileSize
  read := raster.tiff.readEncodedTile
  sizeMessage := "Copernicus GeoTIFF tile buffer size is invalid: "
  decodeMessage := "Failed to decode Copernicus GeoTIFF tile block: "

def stripReader (raster : CopernicusRaster) : BlockReader where
  size := raster.tiff.stripSize
  read := raster.tiff.readEncodedStrip
  sizeMessage := "Copernicus GeoTIFF strip buffer size is invalid: "
  decodeMessage := "Failed to decode Copernicus GeoTIFF strip: "

def exhaustedMessage (raster : CopernicusRaster) : String :=
  "Copernicus temporary TIFF decode memory budget exhausted: " ++ raster.path

/-- The body of `tileBlock` and `stripBlock`. A null block without a
message is an empty one. -/
def decodedBlock (raster : CopernicusRaster) (budgets : DecodeBudgets)
    (reader : BlockReader) (index : UInt32) (state : RasterState) :
    Except String Bytes × RasterState :=
  match state.decodedBlocks.find index with
  | some block => (.ok block, state)
  | none =>
      if reader.size ≤ 0
          ∨ (maximumDecodedRasterBlockCacheBytes : Int) < reader.size then
        (.error (reader.sizeMessage ++ raster.path), state)
      else if budgets.decode state.decodes = false then
        (.error raster.exhaustedMessage,
          { state with decodes := state.decodes + 1 })
      else
        match reader.read index with
        | none =>
            (.error (reader.decodeMessage ++ raster.path),
              { state with decodes := state.decodes + 1 })
        | some data =>
            let decoded := decodeBuffer reader.size.toNat data
            let (stored, cache) := state.decodedBlocks.insert
              (budgets.retain state.decodes) index decoded
            let state : RasterState :=
              { decodedBlocks := cache
                decodes := state.decodes + 1 }
            if stored then
              match cache.find index with
              | some block => (.ok block, state)
              | none => (.error "", state)
            else (.ok decoded, state)

/-- `tileBlock`. -/
def tileBlock (raster : CopernicusRaster) (budgets : DecodeBudgets)
    (tileIndex : UInt32) (state : RasterState) :
    Except String Bytes × RasterState :=
  raster.decodedBlock budgets raster.tileReader tileIndex state

/-- `stripBlock`. -/
def stripBlock (raster : CopernicusRaster) (budgets : DecodeBudgets)
    (stripIndex : UInt32) (state : RasterState) :
    Except String Bytes × RasterState :=
  raster.decodedBlock budgets raster.stripReader stripIndex state

def shortBlockMessage (raster : CopernicusRaster) : String :=
  "Copernicus GeoTIFF decoded block is shorter than expected: " ++ raster.path

/-- The float at an offset. -/
def wordAt (decoded : Bytes) (byteOffset : Nat) : UInt32 :=
  UInt32.ofNat (LittleEndian.readAt 4 decoded byteOffset)

/-- `floatAt`. -/
def floatAt (raster : CopernicusRaster) (decoded : Bytes)
    (byteOffset : Int) : Except String (Option UInt32) :=
  if byteOffset < 0 ∨ (decoded.length : Int) < byteOffset + 4 then
    .error raster.shortBlockMessage
  else
    let value := wordAt decoded byteOffset.toNat
    if validElevation value then .ok (some value) else .ok none

/-- `copyRun`. -/
def copyRun (raster : CopernicusRaster) (decoded : Bytes)
    (byteOffset count : Int) : Except String (List UInt32) :=
  let bytes := count * 4
  if count ≤ 0 ∨ byteOffset < 0
      ∨ (decoded.length : Int) < byteOffset + bytes then
    .error raster.shortBlockMessage
  else
    .ok ((List.range count.toNat).map fun index =>
      let value := wordAt decoded (byteOffset.toNat + index * 4)
      if validElevation value then value else quietNaN)

-- =============================================================== pixels

/-- `tiledPixel`. -/
def tiledPixel (raster : CopernicusRaster) (budgets : DecodeBudgets)
    (column row : Int) (state : RasterState) :
    Except String (Option UInt32) × RasterState :=
  let tileX := column.toNat / raster.tileWidth * raster.tileWidth
  let tileY := row.toNat / raster.tileHeight * raster.tileHeight
  match raster.tileBlock budgets (raster.tiff.computeTile tileX tileY)
    state with
  | (.error errorMessage, state) => (.error errorMessage, state)
  | (.ok block, state) =>
      let localColumn := column - CInt.ofUnsigned tileX
      let localRow := row - CInt.ofUnsigned tileY
      (raster.floatAt block
        ((localRow * raster.tileWidth + localColumn) * 4), state)

/-- `row % int(rows_per_strip)`. -/
def stripRow (raster : CopernicusRaster) (row : Int) : Int :=
  row.tmod (CInt.ofUnsigned raster.rowsPerStrip)

/-- `strippedPixel`. -/
def strippedPixel (raster : CopernicusRaster) (budgets : DecodeBudgets)
    (column row : Int) (state : RasterState) :
    Except String (Option UInt32) × RasterState :=
  match raster.stripBlock budgets (raster.tiff.computeStrip row.toNat)
    state with
  | (.error errorMessage, state) => (.error errorMessage, state)
  | (.ok block, state) =>
      (raster.floatAt block
        ((raster.stripRow row * raster.width + column) * 4), state)

/-- `CopernicusRaster::pixel`. -/
def pixel (raster : CopernicusRaster) (budgets : DecodeBudgets)
    (column row : Int) (state : RasterState) :
    Except String (Option UInt32) × RasterState :=
  if column < 0 ∨ row < 0 ∨ CInt.ofUnsigned raster.width ≤ column
      ∨ CInt.ofUnsigned raster.height ≤ row then
    (.ok none, state)
  else if raster.tiled then raster.tiledPixel budgets column row state
  else raster.strippedPixel budgets column row state

end CopernicusRaster

-- ============================================================== windows

/-- The columns and rows of a window, the last ones included. -/
structure RasterWindow where
  columnFirst : Int
  columnLast : Int
  rowFirst : Int
  rowLast : Int

/-- One call of a visitor. -/
structure RowRun where
  row : Int
  column : Int
  values : List UInt32
deriving DecidableEq

/-- The calls of a visitor, and whether the visit failed. -/
structure Visit where
  runs : List RowRun
  result : Except String Unit
  state : RasterState

/-- A loop that visits until a visit fails. -/
def visitAll (visit : Int → RasterState → Visit) :
    List Int → RasterState → Visit
  | [], state => ⟨[], .ok (), state⟩
  | value :: rest, state =>
      match visit value state with
      | ⟨runs, .error errorMessage, state⟩ =>
          ⟨runs, .error errorMessage, state⟩
      | ⟨runs, .ok (), state⟩ =>
          let visited := visitAll visit rest state
          ⟨runs ++ visited.runs, visited.result, visited.state⟩

namespace CopernicusRaster

/-- The run of a row, from a block. -/
def visitRun (raster : CopernicusRaster) (block : Bytes)
    (row column byteOffset count : Int) (state : RasterState) : Visit :=
  match raster.copyRun block byteOffset count with
  | .error errorMessage => ⟨[], .error errorMessage, state⟩
  | .ok values => ⟨[⟨row, column, values⟩], .ok (), state⟩

/-- The body of the loops over tiles. -/
def visitTile (raster : CopernicusRaster) (budgets : DecodeBudgets)
    (window : RasterWindow) (tileY tileX : Int) (state : RasterState) :
    Visit :=
  let tileWidth := CInt.ofUnsigned raster.tileWidth
  let tileHeight := CInt.ofUnsigned raster.tileHeight
  match raster.tileBlock budgets
    (raster.tiff.computeTile tileX.toNat tileY.toNat) state with
  | (.error errorMessage, state) => ⟨[], .error errorMessage, state⟩
  | (.ok block, state) =>
      let firstColumn := max window.columnFirst tileX
      let lastColumn := min window.columnLast (tileX + tileWidth - 1)
      let lastRow := min window.rowLast (tileY + tileHeight - 1)
      visitAll
        (fun row => raster.visitRun block row firstColumn
          (((row - tileY) * tileWidth + (firstColumn - tileX)) * 4)
          (lastColumn - firstColumn + 1))
        (Steps.values (max window.rowFirst tileY) lastRow 1) state

/-- The body of the loop over rows of strips. -/
def visitStripRow (raster : CopernicusRaster) (budgets : DecodeBudgets)
    (window : RasterWindow) (row : Int) (state : RasterState) : Visit :=
  match raster.stripBlock budgets (raster.tiff.computeStrip row.toNat)
    state with
  | (.error errorMessage, state) => ⟨[], .error errorMessage, state⟩
  | (.ok block, state) =>
      raster.visitRun block row window.columnFirst
        ((raster.stripRow row * raster.width + window.columnFirst) * 4)
        (window.columnLast - window.columnFirst + 1) state

/-- `CopernicusRaster::visitWindow`. -/
def visitWindow (raster : CopernicusRaster) (budgets : DecodeBudgets)
    (window : RasterWindow) (state : RasterState) : Visit :=
  if window.columnFirst < 0 ∨ window.rowFirst < 0
      ∨ CInt.ofUnsigned raster.width ≤ window.columnLast
      ∨ CInt.ofUnsigned raster.height ≤ window.rowLast
      ∨ window.columnLast < window.columnFirst
      ∨ window.rowLast < window.rowFirst then
    ⟨[], .ok (), state⟩
  else if raster.tiled then
    let tileWidth := CInt.ofUnsigned raster.tileWidth
    let tileHeight := CInt.ofUnsigned raster.tileHeight
    visitAll
      (fun tileY => visitAll
        (fun tileX => raster.visitTile budgets window tileY tileX)
        (Steps.values (window.columnFirst.tdiv tileWidth * tileWidth)
          window.columnLast tileWidth))
      (Steps.values (window.rowFirst.tdiv tileHeight * tileHeight)
        window.rowLast tileHeight) state
  else
    visitAll (raster.visitStripRow budgets window)
      (Steps.values window.rowFirst window.rowLast 1) state

end CopernicusRaster

end AowisMap.Terrain
