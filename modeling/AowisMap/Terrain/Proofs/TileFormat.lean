/-
The decoder accepts exactly the documented layout: the strings it accepts
are the layouts of the admissible field values, one string for each.

# Fields and their layout

`TileFields` are the values a writer is free to choose, `layout` lays
them out byte by byte as the format description does, with every other
field of the header at its one permitted value. The decoder is inverse to
it: `decode_layout` (what is laid out is accepted, and which tile it is)
and `layout_of_decode` (what is accepted was laid out). Acceptance,
uniqueness and the validity of decoded tiles are read off these two.
-/
import AowisMap.Terrain.Tile

namespace AowisMap.Terrain

open Lib Lib.LittleEndian

-- ==================================================== reading a layout

section Reading

variable {width k n : Nat} {data : Bytes} {offset : Nat}

/-- Dropping bytes that stand first. -/
theorem drop_skipBytes {bytes : Bytes} (h : bytes.length ≤ offset) :
    (bytes ++ data).drop offset = data.drop (offset - bytes.length) := by
  rw [List.drop_append, List.drop_eq_nil_of_le h, List.nil_append]

/-- Dropping a number that stands first. -/
theorem drop_skip (h : k ≤ offset) :
    (toBytes k n ++ data).drop offset = data.drop (offset - k) := by
  rw [drop_skipBytes (by rw [length_toBytes]; exact h), length_toBytes]

/-- Reading behind bytes that stand first. -/
theorem readAt_skipBytes {bytes : Bytes} (h : bytes.length ≤ offset) :
    readAt width (bytes ++ data) offset
      = readAt width data (offset - bytes.length) := by
  rw [readAt, readAt, drop_skipBytes h]

/-- Reading behind a number that stands first. -/
theorem readAt_skip (h : k ≤ offset) :
    readAt width (toBytes k n ++ data) offset
      = readAt width data (offset - k) := by
  rw [readAt, readAt, drop_skip h]

/-- Reading the number that stands first. -/
theorem readAt_here (h : n < 256 ^ width) :
    readAt width (toBytes width n ++ data) 0 = n :=
  readAt_append [] data h

end Reading

-- ============================================================== fields

/-- The values a version 1 tile is made of: codes and bit patterns as
they are stored. -/
structure TileFields where
  datumCode : Nat
  zoom : Nat
  tileX : Nat
  tileY : Nat
  minimumBits : Nat
  scaleBits : Nat
  resolutionBits : Nat
  dataset : String
  codes : List Nat
deriving DecidableEq

namespace TileFields

/-- The UTF-8 bytes of the dataset identifier. -/
def datasetUtf8 (f : TileFields) : Bytes := Utf8.toUtf8 f.dataset.toList

/-- The 8450 bytes of the payload. -/
def payload (f : TileFields) : Bytes := flatten 2 f.codes

/-- The layout of format version 1. -/
def layout (f : TileFields) : Bytes :=
  terrainTileMagic
    ++ (toBytes 2 1
    ++ (toBytes 2 (64 + f.datasetUtf8.length)
    ++ (toBytes 4 0
    ++ (toBytes 1 1
    ++ (toBytes 1 1
    ++ (toBytes 1 f.datumCode
    ++ (toBytes 1 0
    ++ (toBytes 2 65
    ++ (toBytes 2 65
    ++ (toBytes 1 f.zoom
    ++ ([0, 0, 0]
    ++ (toBytes 4 f.tileX
    ++ (toBytes 4 f.tileY
    ++ (toBytes 4 f.minimumBits
    ++ (toBytes 4 f.scaleBits
    ++ (toBytes 4 f.resolutionBits
    ++ (toBytes 2 f.datasetUtf8.length
    ++ (toBytes 2 0
    ++ (toBytes 4 4225
    ++ (toBytes 4 8450
    ++ (toBytes 4 (crc32 f.payload)
    ++ (f.datasetUtf8
    ++ f.payload))))))))))))))))))))))

/-- The values that are stored at these places of a string. -/
def read (data : Bytes) : TileFields where
  datumCode := readAt 1 data 18
  zoom := readAt 1 data 24
  tileX := readAt 4 data 28
  tileY := readAt 4 data 32
  minimumBits := readAt 4 data 36
  scaleBits := readAt 4 data 40
  resolutionBits := readAt 4 data 44
  dataset := datasetOf (readHeader data) data
  codes := readAll 2 (payloadOf (readHeader data) data)
    terrainTileSampleCount

/-- The constraints of the format on its field values. -/
structure Admissible (fmt : FloatFormat) (f : TileFields) : Prop where
  datum : f.datumCode ≤ 4
  zoom : f.zoom ≤ 30
  tileX : f.tileX < 2 ^ f.zoom
  tileY : f.tileY < 2 ^ f.zoom
  minimumBits : f.minimumBits < 2 ^ 32
  scaleBits : f.scaleBits < 2 ^ 32
  resolutionBits : f.resolutionBits < 2 ^ 32
  minimum : ∃ value, fmt.ofBits f.minimumBits = .finite value
  scale : ∃ value, 0 ≤ value ∧ fmt.ofBits f.scaleBits = .finite value
  resolution : ∃ value, 0 ≤ value ∧
    fmt.ofBits f.resolutionBits = .finite value
  dataset : isValidTerrainDatasetId f.dataset = true
  count : f.codes.length = 4225
  range : ∀ code ∈ f.codes, code < 65536
  data : ∃ code ∈ f.codes, code ≠ 65535

/-- The tile the field values describe. -/
def tile (fmt : FloatFormat) (f : TileFields) (datum : TerrainVerticalDatum) :
    TerrainTile where
  address :=
    { zoom := f.zoom
      x := f.tileX
      y := f.tileY }
  dataset := f.dataset
  nominalResolutionM := fmt.ofBits f.resolutionBits
  verticalDatum := datum
  elevationsM := f.codes.map (decodedElevation fmt
    (fmt.ofBits f.minimumBits) (fmt.ofBits f.scaleBits))

end TileFields

variable {fmt : FloatFormat} {f : TileFields} {data : Bytes}

-- ================================================== dataset identifiers

/-- A dataset identifier is a short ASCII text. -/
theorem datasetId_ascii {dataset : String}
    (h : isValidTerrainDatasetId dataset = true) :
    (∀ c ∈ dataset.toList, Utf8.IsAscii c) ∧
      (Utf8.toUtf8 dataset.toList).length ≤ 128 := by
  simp only [isValidTerrainDatasetId, Bool.and_eq_true,
    decide_eq_true_eq] at h
  obtain ⟨⟨⟨-, hlength⟩, hall⟩, -⟩ := h
  refine ⟨?_, hlength⟩
  intro c hc
  apply Utf8.isAscii_of_bytes
  intro b hb
  have hbyte := List.all_eq_true.1 hall b
    (List.mem_flatMap.2 ⟨c, hc, hb⟩)
  simp only [isDatasetIdByte, Bool.or_eq_true, Bool.and_eq_true,
    decide_eq_true_eq, beq_iff_eq, UInt8.le_iff_toNat_le] at hbyte
  rw [UInt8.lt_iff_toNat_lt]
  show b.toNat < 128
  have h122 : (122 : UInt8).toNat = 122 := rfl
  have h57 : (57 : UInt8).toNat = 57 := rfl
  rcases hbyte with (((h | h) | h) | h) | h
  · omega
  · omega
  · subst h
    decide
  · subst h
    decide
  · subst h
    decide

/-- A valid address by its three numbers. -/
theorem validAddress_iff {zoom x y : Nat} :
    isValidTerrainTileAddress { zoom := zoom, x := x, y := y } = true ↔
      zoom ≤ 30 ∧ x < 2 ^ zoom ∧ y < 2 ^ zoom := by
  simp [isValidTerrainTileAddress, terrainTileMaximumZoom, and_assoc]

theorem datumCode_some {code : Nat} (h : code ≤ 4) :
    ∃ datum, verticalDatumFromCode code = some datum := by
  have hcases : code = 0 ∨ code = 1 ∨ code = 2 ∨ code = 3 ∨ code = 4 := by
    omega
  rcases hcases with rfl | rfl | rfl | rfl | rfl
  · exact ⟨.unknown, rfl⟩
  · exact ⟨.wgs84Ellipsoid, rfl⟩
  · exact ⟨.egm96, rfl⟩
  · exact ⟨.egm2008, rfl⟩
  · exact ⟨.local, rfl⟩

theorem datumCode_le {code : Nat} {datum : TerrainVerticalDatum}
    (h : verticalDatumFromCode code = some datum) : code ≤ 4 := by
  unfold verticalDatumFromCode at h
  split at h
  all_goals first | omega | cases h

/-- Codes and datums are one to one. -/
theorem verticalDatumFromCode_code (datum : TerrainVerticalDatum) :
    verticalDatumFromCode (verticalDatumCode datum) = some datum := by
  cases datum <;> rfl

theorem crc32_lt (bytes : Bytes) : crc32 bytes < 256 ^ 4 :=
  BitVec.isLt _

-- ============================================ what is laid out is accepted

/-- The header of a layout. -/
theorem readHeader_layout (h : f.Admissible fmt) :
    readHeader f.layout =
      { version := 1
        headerBytes := 64 + f.datasetUtf8.length
        flags := 0
        projection := 1
        encoding := 1
        datumCode := f.datumCode
        reserved19 := 0
        gridWidth := 65
        gridHeight := 65
        zoom := f.zoom
        reserved25To27 := [0, 0, 0]
        tileX := f.tileX
        tileY := f.tileY
        minimumBits := f.minimumBits
        scaleBits := f.scaleBits
        resolutionBits := f.resolutionBits
        datasetBytes := f.datasetUtf8.length
        reserved50 := 0
        sampleCount := 4225
        payloadBytes := 8450
        expectedCrc32 := crc32 f.payload } := by
  have hdataset : f.datasetUtf8.length ≤ 128 := (datasetId_ascii h.dataset).2
  have hpow : 2 ^ f.zoom ≤ 2 ^ 30 := Nat.pow_le_pow_right (by decide) h.zoom
  have hx := h.tileX
  have hy := h.tileY
  have hdatum := h.datum
  have hzoom := h.zoom
  have hminimum := h.minimumBits
  have hscale := h.scaleBits
  have hresolution := h.resolutionBits
  have hcrc := crc32_lt f.payload
  have hmagic : terrainTileMagic.length = 8 := rfl
  have hzeros : ([0, 0, 0] : Bytes).length = 3 := rfl
  have htake : ∀ rest : Bytes, ([0, 0, 0] ++ rest).take 3 = [0, 0, 0] :=
    fun _ => rfl
  unfold readHeader TileFields.layout
  simp (disch := decide) only [readAt_skip, drop_skip, Nat.reduceSub,
    readAt_skipBytes, drop_skipBytes, hmagic, hzeros, length_toBytes,
    List.drop_zero, htake]
  simp (disch := omega) only [readAt_here]

/-- The length of a layout. -/
theorem length_layout (h : f.Admissible fmt) :
    f.layout.length = 64 + f.datasetUtf8.length + 8450 := by
  have hpayload : f.payload.length = 8450 := by
    rw [TileFields.payload, length_flatten, h.count]
  have hmagic : terrainTileMagic.length = 8 := rfl
  have hzeros : ([0, 0, 0] : Bytes).length = 3 := rfl
  unfold TileFields.layout
  simp only [List.length_append, length_toBytes]
  rw [hmagic, hzeros, hpayload]
  clear hmagic hzeros hpayload
  omega

/-- What stands behind the fixed header of a layout. -/
theorem drop_layout (f : TileFields) :
    f.layout.drop 64 = f.datasetUtf8 ++ f.payload := by
  have hmagic : terrainTileMagic.length = 8 := rfl
  have hzeros : ([0, 0, 0] : Bytes).length = 3 := rfl
  unfold TileFields.layout
  simp (disch := decide) only [drop_skip, Nat.reduceSub, drop_skipBytes,
    hmagic, hzeros, length_toBytes, List.drop_zero]

theorem datasetOf_layout (h : f.Admissible fmt) :
    datasetOf (readHeader f.layout) f.layout = f.dataset := by
  have hascii := (datasetId_ascii h.dataset).1
  rw [readHeader_layout h]
  show String.ofList (Utf8.fromUtf8
    ((f.layout.drop 64).take f.datasetUtf8.length)) = f.dataset
  rw [drop_layout, List.take_left, TileFields.datasetUtf8,
    Utf8.fromUtf8_toUtf8 hascii, String.ofList_toList]

theorem payloadOf_layout (h : f.Admissible fmt) :
    payloadOf (readHeader f.layout) f.layout = f.payload := by
  have hlength : f.payload.length = 8450 := by
    rw [TileFields.payload, length_flatten, h.count]
  rw [readHeader_layout h]
  show (f.layout.drop (64 + f.datasetUtf8.length)).take 8450 = f.payload
  rw [← List.drop_drop, drop_layout, List.drop_left,
    List.take_of_length_le (by omega)]

theorem codes_layout (h : f.Admissible fmt) :
    readAll 2 f.payload terrainTileSampleCount = f.codes := by
  have hcodes := @readAll_flatten 2 f.codes h.range
  rw [h.count] at hcodes
  exact hcodes

/-- The fields of a layout are read back. -/
theorem read_layout (h : f.Admissible fmt) :
    TileFields.read f.layout = f := by
  have hfields : TileFields.read f.layout =
      { datumCode := (readHeader f.layout).datumCode
        zoom := (readHeader f.layout).zoom
        tileX := (readHeader f.layout).tileX
        tileY := (readHeader f.layout).tileY
        minimumBits := (readHeader f.layout).minimumBits
        scaleBits := (readHeader f.layout).scaleBits
        resolutionBits := (readHeader f.layout).resolutionBits
        dataset := datasetOf (readHeader f.layout) f.layout
        codes := readAll 2 (payloadOf (readHeader f.layout) f.layout)
          terrainTileSampleCount } := by
    unfold TileFields.read
    simp only [readHeader]
  rw [hfields, datasetOf_layout h, payloadOf_layout h, codes_layout h,
    readHeader_layout h]

/-- The header of a layout passes the checks. -/
theorem headerError_layout (h : f.Admissible fmt) :
    headerError fmt (readHeader f.layout) f.layout.length = none := by
  obtain ⟨minimum, hminimum⟩ := h.minimum
  obtain ⟨scale, hscale0, hscale⟩ := h.scale
  obtain ⟨resolution, hresolution0, hresolution⟩ := h.resolution
  rw [readHeader_layout h, length_layout h]
  simp [headerError, validMetadata, hminimum, hscale, hresolution,
    FloatValue.isFinite, FloatValue.isNegative, hscale0, hresolution0,
    terrainTileFormatVersion, terrainTileGridSize, terrainTileSampleCount,
    payloadBytes, fixedHeaderBytes]

/-- What is laid out is accepted, as the tile of its fields. -/
theorem decode_layout (h : f.Admissible fmt) {datum : TerrainVerticalDatum}
    (hdatum : verticalDatumFromCode f.datumCode = some datum) :
    decodeTerrainTile fmt f.layout = .ok (f.tile fmt datum) := by
  have hlength := length_layout h
  have hmagic : f.layout.take 8 = terrainTileMagic := by
    have hmagic : terrainTileMagic.length = 8 := rfl
    unfold TileFields.layout
    rw [← hmagic, List.take_left]
  have hcode : (readHeader f.layout).datumCode = f.datumCode := by
    rw [readHeader_layout h]
  have htile : tileOf fmt (readHeader f.layout) datum f.layout
      = f.tile fmt datum := by
    unfold tileOf TileFields.tile
    rw [datasetOf_layout h, payloadOf_layout h, codes_layout h,
      readHeader_layout h]
  have haddress : isValidTerrainTileAddress (f.tile fmt datum).address
      = true :=
    validAddress_iff.2 ⟨h.zoom, h.tileX, h.tileY⟩
  have hdataset : isValidTerrainDatasetId (f.tile fmt datum).dataset = true :=
    h.dataset
  have hbytes : (Utf8.toUtf8 (f.tile fmt datum).dataset.toList).length
      = (readHeader f.layout).datasetBytes := by
    rw [readHeader_layout h]
    rfl
  have hcrc : (readHeader f.layout).expectedCrc32 = crc32 f.payload := by
    rw [readHeader_layout h]
  have hdata : f.codes.all (fun code => code == terrainTileNoDataCode)
      = false := by
    obtain ⟨code, hmem, hne⟩ := h.data
    rw [List.all_eq_false]
    exact ⟨code, hmem, by simpa [terrainTileNoDataCode] using hne⟩
  unfold decodeTerrainTile
  rw [if_neg (by rw [hlength, fixedHeaderBytes]; omega),
    if_neg (not_not.2 hmagic)]
  simp only [headerError_layout h, hcode, hdatum]
  unfold decodePayload
  simp only [htile, haddress, hdataset, hbytes, payloadOf_layout h,
    codes_layout h, hcrc, hdata]
  simp

-- ============================================ what is accepted was laid out

/-- A string of 64 bytes or more by the fields of its fixed header. -/
theorem header_bytes (h : 64 ≤ data.length) :
    data = data.take 8
      ++ (toBytes 2 (readHeader data).version
      ++ (toBytes 2 (readHeader data).headerBytes
      ++ (toBytes 4 (readHeader data).flags
      ++ (toBytes 1 (readHeader data).projection
      ++ (toBytes 1 (readHeader data).encoding
      ++ (toBytes 1 (readHeader data).datumCode
      ++ (toBytes 1 (readHeader data).reserved19
      ++ (toBytes 2 (readHeader data).gridWidth
      ++ (toBytes 2 (readHeader data).gridHeight
      ++ (toBytes 1 (readHeader data).zoom
      ++ ((readHeader data).reserved25To27
      ++ (toBytes 4 (readHeader data).tileX
      ++ (toBytes 4 (readHeader data).tileY
      ++ (toBytes 4 (readHeader data).minimumBits
      ++ (toBytes 4 (readHeader data).scaleBits
      ++ (toBytes 4 (readHeader data).resolutionBits
      ++ (toBytes 2 (readHeader data).datasetBytes
      ++ (toBytes 2 (readHeader data).reserved50
      ++ (toBytes 4 (readHeader data).sampleCount
      ++ (toBytes 4 (readHeader data).payloadBytes
      ++ (toBytes 4 (readHeader data).expectedCrc32
      ++ data.drop 64))))))))))))))))))))) := by
  have hfield : ∀ width offset : Nat, offset + width ≤ 64 →
      toBytes width (readAt width data offset) ++ data.drop (offset + width)
        = data.drop offset := fun width offset hle =>
    (drop_eq_toBytes_append (hle.trans h)).symm
  have hzeros : (data.drop 25).take 3 ++ data.drop 28 = data.drop 25 := by
    have hdrop : data.drop 28 = (data.drop 25).drop 3 := by
      rw [List.drop_drop]
    rw [hdrop, List.take_append_drop]
  simp only [readHeader]
  rw [hfield 4 60 (by decide), hfield 4 56 (by decide),
    hfield 4 52 (by decide), hfield 2 50 (by decide),
    hfield 2 48 (by decide), hfield 4 44 (by decide),
    hfield 4 40 (by decide), hfield 4 36 (by decide),
    hfield 4 32 (by decide), hfield 4 28 (by decide), hzeros,
    hfield 1 24 (by decide), hfield 2 22 (by decide),
    hfield 2 20 (by decide), hfield 1 19 (by decide),
    hfield 1 18 (by decide), hfield 1 17 (by decide),
    hfield 1 16 (by decide), hfield 4 12 (by decide),
    hfield 2 10 (by decide), hfield 2 8 (by decide),
    List.take_append_drop]

/-- What the checks on the header let pass. -/
structure HeaderAccepted (fmt : FloatFormat) (header : TileHeader)
    (size : Nat) : Prop where
  version : header.version = 1
  flags : header.flags = 0
  reserved19 : header.reserved19 = 0
  reserved25To27 : header.reserved25To27 = [0, 0, 0]
  reserved50 : header.reserved50 = 0
  projection : header.projection = 1
  encoding : header.encoding = 1
  gridWidth : header.gridWidth = 65
  gridHeight : header.gridHeight = 65
  sampleCount : header.sampleCount = 4225
  payloadBytes : header.payloadBytes = 8450
  headerBytes : header.headerBytes = 64 + header.datasetBytes
  size : size = 64 + header.datasetBytes + 8450
  metadata : validMetadata fmt header = true

theorem headerError_none {header : TileHeader} {size : Nat}
    (h : headerError fmt header size = none) :
    HeaderAccepted fmt header size := by
  unfold headerError at h
  by_cases h₁ : header.version ≠ terrainTileFormatVersion
  · rw [if_pos h₁] at h
    cases h
  by_cases h₂ : header.flags ≠ 0
  · rw [if_neg h₁, if_pos h₂] at h
    cases h
  by_cases h₃ : header.reserved19 ≠ 0 ∨ header.reserved25To27 ≠ [0, 0, 0] ∨
      header.reserved50 ≠ 0
  · rw [if_neg h₁, if_neg h₂, if_pos h₃] at h
    cases h
  by_cases h₄ : header.projection ≠ 1 ∨ header.encoding ≠ 1
  · rw [if_neg h₁, if_neg h₂, if_neg h₃, if_pos h₄] at h
    cases h
  by_cases h₅ : header.gridWidth ≠ terrainTileGridSize ∨
      header.gridHeight ≠ terrainTileGridSize ∨
      header.sampleCount ≠ terrainTileSampleCount ∨
      header.payloadBytes ≠ payloadBytes
  · rw [if_neg h₁, if_neg h₂, if_neg h₃, if_neg h₄, if_pos h₅] at h
    cases h
  by_cases h₆ : header.headerBytes ≠ fixedHeaderBytes + header.datasetBytes ∨
      size < header.headerBytes
  · rw [if_neg h₁, if_neg h₂, if_neg h₃, if_neg h₄, if_neg h₅, if_pos h₆] at h
    cases h
  by_cases h₇ : header.headerBytes + header.payloadBytes ≠ size
  · rw [if_neg h₁, if_neg h₂, if_neg h₃, if_neg h₄, if_neg h₅, if_neg h₆,
      if_pos h₇] at h
    cases h
  by_cases h₈ : validMetadata fmt header = false
  · rw [if_neg h₁, if_neg h₂, if_neg h₃, if_neg h₄, if_neg h₅, if_neg h₆,
      if_neg h₇, if_pos h₈] at h
    cases h
  simp only [not_or, not_not] at h₁ h₂ h₃ h₄ h₅ h₆ h₇
  rw [Bool.not_eq_false] at h₈
  have hpayload : header.payloadBytes = 8450 := h₅.2.2.2
  have hheader : header.headerBytes = 64 + header.datasetBytes := h₆.1
  exact ⟨h₁, h₂, h₃.1, h₃.2.1, h₃.2.2, h₄.1, h₄.2, h₅.1, h₅.2.1, h₅.2.2.1,
    hpayload, hheader, by omega, h₈⟩

/-- An accepted string, its header and its payload. -/
theorem decode_inv {tile : TerrainTile}
    (h : decodeTerrainTile fmt data = .ok tile) :
    64 ≤ data.length ∧ data.take 8 = terrainTileMagic ∧
      HeaderAccepted fmt (readHeader data) data.length ∧
      ∃ datum, verticalDatumFromCode (readHeader data).datumCode = some datum ∧
        decodePayload fmt (readHeader data) datum data = .ok tile := by
  unfold decodeTerrainTile at h
  split at h
  · cases h
  · rename_i hlength
    split at h
    · cases h
    · rename_i hmagic
      simp only at h
      split at h
      · cases h
      · cases h
      · rename_i datum herror hdatum
        exact ⟨Nat.not_lt.1 hlength, not_not.1 hmagic,
          headerError_none herror, datum, hdatum, h⟩

/-- The checks behind the header. -/
theorem decodePayload_inv {header : TileHeader} {datum : TerrainVerticalDatum}
    {tile : TerrainTile}
    (h : decodePayload fmt header datum data = .ok tile) :
    tile = tileOf fmt header datum data ∧
      isValidTerrainTileAddress tile.address = true ∧
      isValidTerrainDatasetId tile.dataset = true ∧
      (Utf8.toUtf8 tile.dataset.toList).length = header.datasetBytes ∧
      crc32 (payloadOf header data) = header.expectedCrc32 ∧
      ∃ code ∈ readAll 2 (payloadOf header data) terrainTileSampleCount,
        code ≠ terrainTileNoDataCode := by
  unfold decodePayload at h
  simp only at h
  split at h
  · cases h
  · rename_i hmetadata
    split at h
    · cases h
    · rename_i hcrc
      split at h
      · cases h
      · rename_i hdata
        cases h
        simp only [not_or, Bool.not_eq_false, not_not] at hmetadata hcrc
        rw [Bool.not_eq_true, List.all_eq_false] at hdata
        obtain ⟨code, hmem, hne⟩ := hdata
        exact ⟨rfl, hmetadata.1, hmetadata.2.1, hmetadata.2.2, hcrc, code, hmem,
          by simpa using hne⟩

theorem isFinite_iff {value : FloatValue} :
    value.isFinite = true ↔ ∃ q, value = .finite q := by
  cases value with
  | nan => simp [FloatValue.isFinite]
  | infinity negative => simp [FloatValue.isFinite]
  | finite q => simp [FloatValue.isFinite]

/-- A finite float that is not negative. -/
theorem isNonnegative_iff {value : FloatValue}
    (hfinite : value.isFinite = true) (hsign : (!value.isNegative) = true) :
    ∃ q, 0 ≤ q ∧ value = .finite q := by
  obtain ⟨q, rfl⟩ := isFinite_iff.1 hfinite
  refine ⟨q, ?_, rfl⟩
  simpa [FloatValue.isNegative] using hsign

/-- The tile of the fields that are read is the one the decoder builds. -/
theorem tile_read (fmt : FloatFormat) (datum : TerrainVerticalDatum)
    (data : Bytes) : (TileFields.read data).tile fmt datum
      = tileOf fmt (readHeader data) datum data := by
  unfold TileFields.tile tileOf TileFields.read
  simp only [readHeader]

theorem codes_read (data : Bytes) : (TileFields.read data).codes
    = readAll 2 (payloadOf (readHeader data) data) terrainTileSampleCount := by
  rw [TileFields.read]

/-- What is accepted was laid out: the fields read from it are admissible,
it is their layout, and the tile is theirs. -/
theorem layout_of_decode {tile : TerrainTile}
    (h : decodeTerrainTile fmt data = .ok tile) :
    (TileFields.read data).Admissible fmt ∧
      data = (TileFields.read data).layout ∧
      ∃ datum, verticalDatumFromCode (TileFields.read data).datumCode
          = some datum ∧
        tile = (TileFields.read data).tile fmt datum := by
  obtain ⟨hlength, hmagic, hheader, datum, hdatum, hpayload⟩ := decode_inv h
  obtain ⟨htile, haddress, hdataset, hbytes, hcrc, code, hcode, hne⟩ :=
    decodePayload_inv hpayload
  have hdatasetTile : tile.dataset = (TileFields.read data).dataset := by
    rw [htile]
    rfl
  -- The identifier is made of the bytes it was read from.
  have hutf8 : (TileFields.read data).datasetUtf8
      = (data.drop 64).take (readHeader data).datasetBytes := by
    rw [hdatasetTile] at hdataset hbytes
    have hread : (TileFields.read data).dataset.toList = Utf8.fromUtf8
        ((data.drop 64).take (readHeader data).datasetBytes) := by
      show (String.ofList _).toList = _
      rw [String.toList_ofList]
      rfl
    have hascii := (datasetId_ascii hdataset).1
    rw [hread] at hascii hbytes
    rw [TileFields.datasetUtf8, hread]
    apply Utf8.fromUtf8_ascii hascii
    rw [hbytes, List.length_take, List.length_drop, hheader.size]
    omega
  have hdatasetLength : (TileFields.read data).datasetUtf8.length
      = (readHeader data).datasetBytes := by
    rw [← hbytes, hdatasetTile]
    rfl
  have hrest : payloadOf (readHeader data) data
      = data.drop (64 + (readHeader data).datasetBytes) := by
    rw [payloadOf, hheader.payloadBytes, hheader.headerBytes]
    apply List.take_of_length_le
    rw [List.length_drop, hheader.size]
    omega
  have hpayloadBytes : (TileFields.read data).payload
      = payloadOf (readHeader data) data := by
    apply flatten_readAll
    rw [hrest, List.length_drop, hheader.size]
    show _ = 4225 * 2
    omega
  have hbehind : data.drop 64 = (TileFields.read data).datasetUtf8
      ++ (TileFields.read data).payload := by
    have hdrop : data.drop (64 + (readHeader data).datasetBytes)
        = (data.drop 64).drop (readHeader data).datasetBytes := by
      rw [List.drop_drop]
    rw [hpayloadBytes, hrest, hutf8, hdrop]
    exact (List.take_append_drop _ _).symm
  refine ⟨?_, ?_, datum, hdatum, by rw [tile_read, htile]⟩
  · have hmetadata := hheader.metadata
    simp only [validMetadata, Bool.and_eq_true] at hmetadata
    obtain ⟨⟨⟨⟨hminimum, hscale⟩, hscaleSign⟩, hresolution⟩, hsign⟩ :=
      hmetadata
    rw [htile] at haddress
    obtain ⟨hzoom, hx, hy⟩ := validAddress_iff.1 haddress
    exact
      { datum := datumCode_le hdatum
        zoom := hzoom
        tileX := hx
        tileY := hy
        minimumBits := readAt_lt 4 data 36
        scaleBits := readAt_lt 4 data 40
        resolutionBits := readAt_lt 4 data 44
        minimum := isFinite_iff.1 hminimum
        scale := isNonnegative_iff hscale hscaleSign
        resolution := isNonnegative_iff hresolution hsign
        dataset := by rw [← hdatasetTile]; exact hdataset
        count := by
          rw [codes_read, length_readAll]
          rfl
        range := by
          intro c hmem
          rw [codes_read] at hmem
          have hlt : c < 256 ^ 2 := readAll_lt hmem
          exact hlt
        data := by
          rw [codes_read]
          exact ⟨code, hcode, hne⟩ }
  · have hlayout := header_bytes hlength
    rw [hmagic, hheader.version, hheader.headerBytes, hheader.flags,
      hheader.projection, hheader.encoding, hheader.reserved19,
      hheader.gridWidth, hheader.gridHeight, hheader.reserved25To27,
      hheader.reserved50, hheader.sampleCount, hheader.payloadBytes,
      ← hcrc, ← hpayloadBytes, ← hdatasetLength, hbehind] at hlayout
    exact hlayout

-- ========================================================== acceptance

/-- **The decoder accepts exactly the documented format.** A string is
accepted if and only if it is the layout of admissible field values, and
two accepted strings with the same field values are the same string. -/
theorem decode_accepts_layouts :
    (∀ data : Bytes, (∃ tile, decodeTerrainTile binary32 data = .ok tile) ↔
      ∃ f : TileFields, f.Admissible binary32 ∧ data = f.layout) ∧
    ∀ first second : Bytes,
      (∃ tile, decodeTerrainTile binary32 first = .ok tile) →
      (∃ tile, decodeTerrainTile binary32 second = .ok tile) →
      TileFields.read first = TileFields.read second → first = second := by
  refine ⟨?_, ?_⟩
  · intro data
    constructor
    · rintro ⟨tile, htile⟩
      obtain ⟨hadmissible, hlayout, -⟩ := layout_of_decode htile
      exact ⟨_, hadmissible, hlayout⟩
    · rintro ⟨f, hf, rfl⟩
      obtain ⟨datum, hdatum⟩ := datumCode_some hf.datum
      exact ⟨_, decode_layout hf hdatum⟩
  · rintro first second ⟨tile, htile⟩ ⟨tile', htile'⟩ hsame
    rw [(layout_of_decode htile).2.1, (layout_of_decode htile').2.1, hsame]

end AowisMap.Terrain
