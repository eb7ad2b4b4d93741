/-
Where a pixel of a raster lies in its blocks, for single pixels and for
windows.

# The image

What libtiff decodes is said by the image it shows (`Decodes`): a block
holds the samples of its pixels, row by row. What is proved of reading is
that a pixel is the sample of its column and row (`ShowsPixel`) and that a
window is delivered pixel for pixel (`ShowsWindow`), whatever the cache
keeps.

# The cache

Every block in the cache is what decoding its index gives (`Coherent`).
No call breaks that, so a block is the same whether it was kept or
decoded again (`decodedBlock_spec`).

# Rows of strips

The row within a strip is found with `rows_per_strip` as an `int`. From
`2 ^ 31` on that is a negative number, and the remainder is the row only
up to its magnitude (`StripsAddressed`).
-/
import AowisMap.Terrain.Raster

namespace AowisMap.Terrain

open Lib

-- ================================================================ cache

namespace CopernicusDecodedBlockCache

/-- Evicting adds no block. -/
theorem find_of_evict {size : Nat} {key : UInt32} {block : Bytes} :
    ∀ {order : List UInt32} {cache : CopernicusDecodedBlockCache},
      (evict size order cache).2.find key = some block →
        cache.find key = some block := by
  intro order
  induction order with
  | nil => exact fun h => h
  | cons oldest rest ih =>
      intro cache h
      unfold evict at h
      by_cases hroom : cache.storedBytes ≤ cache.maximumBytes - size
      · rw [if_pos hroom] at h
        exact h
      · rw [if_neg hroom] at h
        have herased : (cache.blocks.erase oldest).lookup key
            = some block := ih h
        by_cases hkey : key = oldest
        · rw [hkey, AList.lookup_erase] at herased
          cases herased
        · rw [AList.lookup_erase_ne hkey] at herased
          exact herased

/-- Inserting adds at most the block. -/
theorem find_of_insert {granted : Bool} {cache : CopernicusDecodedBlockCache}
    {key other : UInt32} {block found : Bytes}
    (h : (cache.insert granted key block).2.find other = some found) :
    cache.find other = some found ∨ other = key ∧ found = block := by
  unfold insert at h
  by_cases hsize : block = [] ∨ cache.maximumBytes < block.length
  · rw [if_pos hsize] at h
    exact Or.inl h
  rw [if_neg hsize] at h
  by_cases hpresent : (cache.find key).isSome = true
  · rw [if_pos hpresent] at h
    exact Or.inl h
  rw [if_neg hpresent] at h
  have hevict : ∀ b, (evict block.length cache.insertionOrder cache).2.find
      other = some b → cache.find other = some b := fun _ => find_of_evict
  generalize evict block.length cache.insertionOrder cache = evicted
    at h hevict
  obtain ⟨room, cache'⟩ := evicted
  cases room with
  | false => exact Or.inl (hevict _ h)
  | true =>
      cases granted with
      | false => exact Or.inl (hevict _ h)
      | true =>
          have hlookup : (cache'.blocks.insert key block).lookup other
              = some found := h
          by_cases hkey : other = key
          · rw [hkey, AList.lookup_insert] at hlookup
            cases hlookup
            exact Or.inr ⟨hkey, rfl⟩
          · rw [AList.lookup_insert_ne hkey] at hlookup
            exact Or.inl (hevict _ hlookup)

/-- A block that is accepted is found. -/
theorem find_inserted {granted : Bool} {cache : CopernicusDecodedBlockCache}
    {key : UInt32} {block : Bytes}
    (h : (cache.insert granted key block).1 = true) :
    (cache.insert granted key block).2.find key = some block := by
  unfold insert at h ⊢
  by_cases hsize : block = [] ∨ cache.maximumBytes < block.length
  · rw [if_pos hsize] at h
    cases h
  rw [if_neg hsize] at h ⊢
  by_cases hpresent : (cache.find key).isSome = true
  · rw [if_pos hpresent] at h
    cases h
  rw [if_neg hpresent] at h ⊢
  generalize evict block.length cache.insertionOrder cache = evicted at h ⊢
  obtain ⟨room, cache'⟩ := evicted
  cases room with
  | false => cases h
  | true =>
      cases granted with
      | false => cases h
      | true => exact AList.lookup_insert _

end CopernicusDecodedBlockCache

-- =============================================================== blocks

/-- The reader of the raster's layout. -/
def CopernicusRaster.reader (raster : CopernicusRaster) : BlockReader :=
  if raster.tiled then raster.tileReader else raster.stripReader

variable {raster : CopernicusRaster} {budgets : DecodeBudgets}
  {state : RasterState} {reader : BlockReader}

/-- The blocks in the cache are what decoding them gives. -/
def Coherent (reader : BlockReader) (state : RasterState) : Prop :=
  ∀ index block, state.decodedBlocks.find index = some block →
    ∃ data, reader.read index = some data ∧
      block = decodeBuffer reader.size.toNat data

/-- Nothing is cached at first. -/
theorem coherent_opened : Coherent reader {} := by
  intro index block h
  have hempty : (∅ : QHash UInt32 Bytes).lookup index = some block := h
  rw [AList.lookup_empty] at hempty
  cases hempty

/-- The budget for decoding had no room. -/
def Refused (budgets : DecodeBudgets) : Prop :=
  ∃ number, budgets.decode number = false

/-- A value, unless the budget for decoding refused. -/
inductive Outcome {A : Type} (raster : CopernicusRaster)
    (budgets : DecodeBudgets) (reader : BlockReader) (value : A) :
    Except String A × RasterState → Prop
  | value (state : RasterState) (hcoherent : Coherent reader state) :
      Outcome raster budgets reader value (.ok value, state)
  | exhausted (state : RasterState) (hcoherent : Coherent reader state)
      (hrefused : Refused budgets) :
      Outcome raster budgets reader value
        (.error raster.exhaustedMessage, state)

/-- A block is what decoding gives, kept or not, unless the budget for
decoding refuses. -/
theorem decodedBlock_spec {index : UInt32} {data : Bytes}
    (hcoherent : Coherent reader state)
    (hsize : 0 < reader.size)
    (hlimit : reader.size ≤ (maximumDecodedRasterBlockCacheBytes : Int))
    (hread : reader.read index = some data) :
    Outcome raster budgets reader (decodeBuffer reader.size.toNat data)
      (raster.decodedBlock budgets reader index state) := by
  unfold CopernicusRaster.decodedBlock
  cases hfind : state.decodedBlocks.find index with
  | some block =>
      obtain ⟨kept, hkept, rfl⟩ := hcoherent index block hfind
      rw [hread] at hkept
      cases hkept
      exact Outcome.value state hcoherent
  | none =>
      dsimp only
      rw [if_neg (by omega)]
      by_cases hrefused : budgets.decode state.decodes = false
      · rw [if_pos hrefused]
        exact Outcome.exhausted _ hcoherent ⟨_, hrefused⟩
      · rw [if_neg hrefused, hread]
        dsimp only
        have hkept : ∀ other found,
            (state.decodedBlocks.insert (budgets.retain state.decodes) index
              (decodeBuffer reader.size.toNat data)).2.find other
                = some found →
            ∃ data, reader.read other = some data ∧
              found = decodeBuffer reader.size.toNat data := by
          intro other found h
          rcases CopernicusDecodedBlockCache.find_of_insert h with
            hbefore | hnew
          · exact hcoherent other found hbefore
          · rw [hnew.1, hnew.2]
            exact ⟨data, hread, rfl⟩
        have hstored : (state.decodedBlocks.insert
              (budgets.retain state.decodes) index
              (decodeBuffer reader.size.toNat data)).1 = true →
            (state.decodedBlocks.insert (budgets.retain state.decodes) index
              (decodeBuffer reader.size.toNat data)).2.find index
                = some (decodeBuffer reader.size.toNat data) :=
          CopernicusDecodedBlockCache.find_inserted
        generalize state.decodedBlocks.insert (budgets.retain state.decodes)
          index (decodeBuffer reader.size.toNat data) = inserted
          at hkept hstored
        obtain ⟨stored, cache⟩ := inserted
        cases stored with
        | true =>
            have hfound : cache.find index
                = some (decodeBuffer reader.size.toNat data) := hstored rfl
            rw [if_pos rfl, hfound]
            exact Outcome.value _ hkept
        | false => exact Outcome.value _ hkept

-- ================================================================ words

/-- The word at an index of a block. -/
structure HoldsWord (block : Bytes) (index : Nat) (word : UInt32) :
    Prop where
  inside : index * 4 + 4 ≤ block.length
  word_eq : CopernicusRaster.wordAt block (index * 4) = word

/-- What a sample shows as a pixel. -/
def shownPixel (word : UInt32) : Option UInt32 :=
  if validElevation word then some word else none

/-- What a sample shows in a run. -/
def shownFloat (word : UInt32) : UInt32 :=
  if validElevation word then word else quietNaN

/-- The buffer holds the words that were decoded into it. -/
theorem HoldsWord.decodeBuffer {data : Bytes} {size index : Nat}
    {word : UInt32} (h : HoldsWord data index word)
    (hsize : data.length ≤ size) :
    HoldsWord (decodeBuffer size data) index word := by
  have hinside := h.inside
  unfold Terrain.decodeBuffer
  rw [List.take_of_length_le hsize]
  refine ⟨?_, ?_⟩
  · rw [List.length_append]
    omega
  · rw [← h.word_eq]
    unfold CopernicusRaster.wordAt LittleEndian.readAt
    rw [List.drop_append_of_le_length (by omega),
      List.take_append_of_le_length (by rw [List.length_drop]; omega)]

/-- The float at a place shows the word that the block holds there. -/
theorem floatAt_eq {block : Bytes} {index : Nat} {word : UInt32}
    (h : HoldsWord block index word) :
    raster.floatAt block (index * 4) = .ok (shownPixel word) := by
  have hinside := h.inside
  have hoffset : ((index : Int) * 4).toNat = index * 4 := by omega
  unfold CopernicusRaster.floatAt shownPixel
  rw [if_neg (by omega), hoffset, h.word_eq]
  dsimp only
  by_cases hvalid : validElevation word = true
  · rw [if_pos hvalid, if_pos hvalid]
  · rw [if_neg hvalid, if_neg hvalid]

/-- A run of floats shows the words, one after the other. -/
theorem copyRun_eq {block : Bytes} {index count : Nat} {word : Nat → UInt32}
    (hcount : 0 < count)
    (h : ∀ offset < count, HoldsWord block (index + offset) (word offset)) :
    raster.copyRun block (index * 4) count
      = .ok ((List.range count).map fun offset => shownFloat (word offset))
    := by
  have hlast := (h (count - 1) (by omega)).inside
  have hoffset : ((index : Int) * 4).toNat = index * 4 := by omega
  unfold CopernicusRaster.copyRun
  dsimp only
  rw [if_neg (by omega), hoffset, Int.toNat_natCast]
  refine congrArg Except.ok (List.map_congr_left fun offset hmem => ?_)
  have hword := (h offset (List.mem_range.1 hmem)).word_eq
  rw [Nat.add_mul] at hword
  rw [hword]
  rfl

-- ============================================================== geometry

/-- A raster within the limits of its numbers. -/
structure CopernicusRaster.Geometry (raster : CopernicusRaster) : Prop where
  width_pos : 0 < raster.width
  width_le : raster.width ≤ 2 ^ 30
  height_pos : 0 < raster.height
  height_le : raster.height ≤ 2 ^ 30
  tileWidth_pos : raster.tiled = true → 0 < raster.tileWidth
  tileHeight_pos : raster.tiled = true → 0 < raster.tileHeight
  tile_le : raster.tiled = true →
    raster.tileWidth * raster.tileHeight * 4
      ≤ maximumDecodedRasterBlockCacheBytes
  rowsPerStrip_pos : raster.tiled = false → 0 < raster.rowsPerStrip
  rowsPerStrip_lt : raster.tiled = false → raster.rowsPerStrip < 2 ^ 32
  strip_le : raster.tiled = false →
    min raster.rowsPerStrip raster.height * raster.width * 4
      ≤ maximumDecodedRasterBlockCacheBytes

/-- The blocks of a raster that was opened are not empty. -/
theorem openBlocks_layout {path : String} {tiff : Tiff} {width height : Nat}
    (h : CopernicusRaster.openBlocks path tiff width height = .ok raster) :
    raster.width = width ∧ raster.height = height ∧
      (raster.tiled = true → 0 < raster.tileWidth ∧ 0 < raster.tileHeight) ∧
      (raster.tiled = false → 0 < raster.rowsPerStrip) := by
  unfold CopernicusRaster.openBlocks at h
  by_cases htiled : tiff.isTiled = true
  · rw [if_pos htiled] at h
    cases hwidth : tiff.tileWidth with
    | none =>
        rw [hwidth] at h
        cases h
    | some tileWidth =>
        cases hheight : tiff.tileLength with
        | none =>
            rw [hwidth, hheight] at h
            cases h
        | some tileHeight =>
            rw [hwidth, hheight] at h
            dsimp only at h
            by_cases hempty : tileWidth = 0 ∨ tileHeight = 0
            · rw [if_pos hempty] at h
              cases h
            rw [if_neg hempty] at h
            cases hgeoreferencing : tiff.georeferencing with
            | error message =>
                rw [hgeoreferencing] at h
                cases h
            | ok _ =>
                rw [hgeoreferencing] at h
                cases h
                rw [not_or] at hempty
                exact ⟨rfl, rfl,
                  fun _ => ⟨Nat.pos_of_ne_zero hempty.1,
                    Nat.pos_of_ne_zero hempty.2⟩,
                  fun hstripped => by cases hstripped⟩
  · rw [if_neg htiled] at h
    cases hrows : tiff.rowsPerStrip with
    | none =>
        rw [hrows] at h
        cases h
    | some rowsPerStrip =>
        rw [hrows] at h
        dsimp only at h
        by_cases hempty : rowsPerStrip = 0
        · rw [if_pos hempty] at h
          cases h
        rw [if_neg hempty] at h
        cases hgeoreferencing : tiff.georeferencing with
        | error message =>
            rw [hgeoreferencing] at h
            cases h
        | ok _ =>
            rw [hgeoreferencing] at h
            cases h
            exact ⟨rfl, rfl, fun htiled => (by cases htiled),
              fun _ => Nat.pos_of_ne_zero hempty⟩

/-- A raster that was opened has pixels, and blocks that are not empty. -/
theorem openTiff_layout {path : String} {file : Option Tiff}
    (h : CopernicusRaster.openTiff path file = .ok raster) :
    0 < raster.width ∧ 0 < raster.height ∧
      (raster.tiled = true → 0 < raster.tileWidth ∧ 0 < raster.tileHeight) ∧
      (raster.tiled = false → 0 < raster.rowsPerStrip) := by
  unfold CopernicusRaster.openTiff at h
  cases file with
  | none => cases h
  | some tiff =>
      dsimp only at h
      split at h
      · next width height bits samples format planar hwidth hheight hbits
          hsamples hformat hplanar =>
          by_cases hlayout : width = 0 ∨ height = 0 ∨ bits ≠ 32 ∨ samples ≠ 1
              ∨ format ≠ CopernicusRaster.sampleFormatIeeefp
              ∨ planar ≠ CopernicusRaster.planarConfigContig
          · rw [if_pos hlayout] at h
            cases h
          · rw [if_neg hlayout] at h
            obtain ⟨rfl, rfl, hblocks⟩ := openBlocks_layout h
            exact ⟨by omega, by omega, hblocks⟩
      · cases h

/-- What libtiff decodes is an image, by column and row: its blocks have
the size of the layout and hold the samples row by row. -/
structure Decodes (raster : CopernicusRaster) (image : Nat → Nat → UInt32) :
    Prop where
  tileSize : raster.tiled = true →
    raster.tiff.tileSize = (raster.tileWidth * raster.tileHeight * 4 : Nat)
  stripSize : raster.tiled = false →
    raster.tiff.stripSize
      = (min raster.rowsPerStrip raster.height * raster.width * 4 : Nat)
  tile : raster.tiled = true →
    ∀ x < raster.width, ∀ y < raster.height, ∃ data : Bytes,
      raster.tiff.readEncodedTile (raster.tiff.computeTile x y)
        = some data ∧
      data.length ≤ raster.tileWidth * raster.tileHeight * 4 ∧
      ∀ column < raster.width, ∀ row < raster.height,
        column / raster.tileWidth = x / raster.tileWidth →
        row / raster.tileHeight = y / raster.tileHeight →
        HoldsWord data (row % raster.tileHeight * raster.tileWidth
          + column % raster.tileWidth) (image column row)
  strip : raster.tiled = false →
    ∀ y < raster.height, ∃ data : Bytes,
      raster.tiff.readEncodedStrip (raster.tiff.computeStrip y)
        = some data ∧
      data.length
        ≤ min raster.rowsPerStrip raster.height * raster.width * 4 ∧
      ∀ column < raster.width, ∀ row < raster.height,
        row / raster.rowsPerStrip = y / raster.rowsPerStrip →
        HoldsWord data (row % raster.rowsPerStrip * raster.width + column)
          (image column row)

/-- The row within a strip is right for every row of the raster. -/
def CopernicusRaster.StripsAddressed (raster : CopernicusRaster) : Prop :=
  raster.tiled = true ∨ raster.rowsPerStrip < 2 ^ 31 ∨
    raster.height ≤ 2 ^ 32 - raster.rowsPerStrip

variable {image : Nat → Nat → UInt32} {column row : Nat}

namespace CopernicusRaster.Geometry

/-- The sizes of a raster fit an `int`: its width, -/
theorem ofUnsigned_width (h : raster.Geometry) :
    CInt.ofUnsigned raster.width = raster.width := by
  have hle := h.width_le
  exact CInt.ofUnsigned_of_lt (by omega)

/-- its height, -/
theorem ofUnsigned_height (h : raster.Geometry) :
    CInt.ofUnsigned raster.height = raster.height := by
  have hle := h.height_le
  exact CInt.ofUnsigned_of_lt (by omega)

/-- and those of its tiles, across -/
theorem ofUnsigned_tileWidth (h : raster.Geometry)
    (htiled : raster.tiled = true) :
    CInt.ofUnsigned raster.tileWidth = raster.tileWidth := by
  have hle := h.tile_le htiled
  have hmul : raster.tileWidth * 1 ≤ raster.tileWidth * raster.tileHeight :=
    Nat.mul_le_mul_left _ (h.tileHeight_pos htiled)
  unfold maximumDecodedRasterBlockCacheBytes at hle
  exact CInt.ofUnsigned_of_lt (by omega)

/-- and down. -/
theorem ofUnsigned_tileHeight (h : raster.Geometry)
    (htiled : raster.tiled = true) :
    CInt.ofUnsigned raster.tileHeight = raster.tileHeight := by
  have hle := h.tile_le htiled
  have hmul : 1 * raster.tileHeight ≤ raster.tileWidth * raster.tileHeight :=
    Nat.mul_le_mul_right _ (h.tileWidth_pos htiled)
  unfold maximumDecodedRasterBlockCacheBytes at hle
  exact CInt.ofUnsigned_of_lt (by omega)

/-- The size of a block is one that is decoded. -/
theorem reader_size (h : raster.Geometry) (hdecodes : Decodes raster image) :
    0 < raster.reader.size ∧
      raster.reader.size
        ≤ (maximumDecodedRasterBlockCacheBytes : Int) := by
  unfold CopernicusRaster.reader
  cases htiled : raster.tiled with
  | true =>
      have hsize : raster.tileReader.size
          = (raster.tileWidth * raster.tileHeight * 4 : Nat) :=
        hdecodes.tileSize htiled
      have hpos : 0 < raster.tileWidth * raster.tileHeight :=
        Nat.mul_pos (h.tileWidth_pos htiled) (h.tileHeight_pos htiled)
      have hle := h.tile_le htiled
      rw [if_pos rfl, hsize]
      omega
  | false =>
      have hsize : raster.stripReader.size
          = (min raster.rowsPerStrip raster.height * raster.width * 4 : Nat)
        := hdecodes.stripSize htiled
      have hpos : 0 < min raster.rowsPerStrip raster.height * raster.width :=
        Nat.mul_pos (lt_min (h.rowsPerStrip_pos htiled) h.height_pos)
          h.width_pos
      have hle := h.strip_le htiled
      rw [if_neg (by decide), hsize]
      omega

/-- The row within a strip, where it is right. -/
theorem stripRow_eq (h : raster.Geometry) (htiled : raster.tiled = false)
    (hstrips : raster.StripsAddressed) (hrow : row < raster.height) :
    raster.stripRow row = (row % raster.rowsPerStrip : Nat) := by
  have hheight := h.height_le
  have hpos := h.rowsPerStrip_pos htiled
  have hlt := h.rowsPerStrip_lt htiled
  unfold CopernicusRaster.stripRow
  rcases Nat.lt_or_ge raster.rowsPerStrip (2 ^ 31) with hsmall | hlarge
  · rw [CInt.ofUnsigned_of_lt hsmall, Int.tmod_eq_emod_of_nonneg (by omega)]
    rfl
  · -- one strip, and a remainder by a negative number
    have hfits : raster.height ≤ 2 ^ 32 - raster.rowsPerStrip := by
      rcases hstrips with htrue | hsmall | hfits
      · rw [htiled] at htrue
        cases htrue
      · omega
      · exact hfits
    rw [CInt.ofUnsigned_of_ge hlarge hlt,
      Int.tmod_eq_emod_of_nonneg (by omega), Nat.mod_eq_of_lt (by omega)]
    have hneg : (raster.rowsPerStrip : Int) - 2 ^ 32
        = -(2 ^ 32 - raster.rowsPerStrip : Int) := by ring
    rw [hneg, Int.emod_neg]
    exact Int.emod_eq_of_lt (by omega) (by omega)

end CopernicusRaster.Geometry

-- =============================================================== pixels

/-- A multiple of a block's length and a value in that block. -/
theorem div_mod_of_block {length block value : Nat}
    (hlow : length * block ≤ value) (hhigh : value < length * block + length) :
    value / length = block ∧ value % length = value - length * block := by
  have hpos : 0 < length := by omega
  have hdiv : value / length = block := by
    apply Nat.div_eq_of_lt_le
    · rw [Nat.mul_comm]
      exact hlow
    · rw [Nat.succ_mul, Nat.mul_comm]
      exact hhigh
  refine ⟨hdiv, ?_⟩
  have hsum := Nat.div_add_mod value length
  rw [hdiv] at hsum
  omega

/-- The block of a tile holds the samples of its pixels. -/
theorem tileBlock_spec (hgeometry : raster.Geometry)
    (htiled : raster.tiled = true) (hdecodes : Decodes raster image)
    {x y : Nat} (hx : x < raster.width) (hy : y < raster.height)
    (hcoherent : Coherent raster.reader state) :
    ∃ block : Bytes,
      Outcome raster budgets raster.reader block
        (raster.tileBlock budgets (raster.tiff.computeTile x y) state) ∧
      ∀ column < raster.width, ∀ row < raster.height,
        column / raster.tileWidth = x / raster.tileWidth →
        row / raster.tileHeight = y / raster.tileHeight →
        HoldsWord block (row % raster.tileHeight * raster.tileWidth
          + column % raster.tileWidth) (image column row) := by
  have hreader : raster.reader = raster.tileReader := if_pos htiled
  obtain ⟨hpos, hlimit⟩ := hgeometry.reader_size hdecodes
  obtain ⟨data, hread, hlength, hwords⟩ := hdecodes.tile htiled x hx y hy
  have hsize : raster.tileReader.size
      = (raster.tileWidth * raster.tileHeight * 4 : Nat) :=
    hdecodes.tileSize htiled
  rw [hreader] at hcoherent hpos hlimit ⊢
  refine ⟨_, decodedBlock_spec hcoherent hpos hlimit hread, ?_⟩
  intro column hcolumn row hrow hsameColumn hsameRow
  exact (hwords column hcolumn row hrow hsameColumn hsameRow).decodeBuffer
    (by omega)

/-- The block of a strip holds the samples of its rows. -/
theorem stripBlock_spec (hgeometry : raster.Geometry)
    (htiled : raster.tiled = false) (hdecodes : Decodes raster image)
    {y : Nat} (hy : y < raster.height)
    (hcoherent : Coherent raster.reader state) :
    ∃ block : Bytes,
      Outcome raster budgets raster.reader block
        (raster.stripBlock budgets (raster.tiff.computeStrip y) state) ∧
      ∀ column < raster.width, ∀ row < raster.height,
        row / raster.rowsPerStrip = y / raster.rowsPerStrip →
        HoldsWord block (row % raster.rowsPerStrip * raster.width + column)
          (image column row) := by
  have hreader : raster.reader = raster.stripReader :=
    if_neg (by rw [htiled]; decide)
  obtain ⟨hpos, hlimit⟩ := hgeometry.reader_size hdecodes
  obtain ⟨data, hread, hlength, hwords⟩ := hdecodes.strip htiled y hy
  have hsize : raster.stripReader.size
      = (min raster.rowsPerStrip raster.height * raster.width * 4 : Nat) :=
    hdecodes.stripSize htiled
  rw [hreader] at hcoherent hpos hlimit ⊢
  refine ⟨_, decodedBlock_spec hcoherent hpos hlimit hread, ?_⟩
  intro column hcolumn row hrow hsameRow
  exact (hwords column hcolumn row hrow hsameRow).decodeBuffer (by omega)

/-- A pixel of a tile. -/
theorem tiledPixel_spec (hgeometry : raster.Geometry)
    (htiled : raster.tiled = true) (hdecodes : Decodes raster image)
    (hcolumn : column < raster.width) (hrow : row < raster.height)
    (hcoherent : Coherent raster.reader state) :
    Outcome raster budgets raster.reader (shownPixel (image column row))
      (raster.tiledPixel budgets column row state) := by
  have hwidth := hgeometry.width_le
  have hheight := hgeometry.height_le
  have htileX : column / raster.tileWidth * raster.tileWidth ≤ column :=
    Nat.div_mul_le_self _ _
  have htileY : row / raster.tileHeight * raster.tileHeight ≤ row :=
    Nat.div_mul_le_self _ _
  have hspec := @tileBlock_spec raster budgets state image hgeometry htiled
    hdecodes (column / raster.tileWidth * raster.tileWidth)
    (row / raster.tileHeight * raster.tileHeight) (by omega) (by omega)
    hcoherent
  obtain ⟨block, hblock, hwords⟩ := hspec
  have hword := hwords column hcolumn row hrow
    (Nat.mul_div_cancel _ (hgeometry.tileWidth_pos htiled)).symm
    (Nat.mul_div_cancel _ (hgeometry.tileHeight_pos htiled)).symm
  unfold CopernicusRaster.tiledPixel
  dsimp only
  rw [Int.toNat_natCast, Int.toNat_natCast]
  generalize raster.tileBlock budgets _ state = outcome at hblock
  cases hblock with
  | exhausted state' hcoherent' hrefused =>
      exact Outcome.exhausted state' hcoherent' hrefused
  | value state' hcoherent' =>
      dsimp only
      have hmodColumn := Nat.div_add_mod' column raster.tileWidth
      have hmodRow := Nat.div_add_mod' row raster.tileHeight
      have hlocalColumn : (column : Int) - CInt.ofUnsigned
          (column / raster.tileWidth * raster.tileWidth)
          = (column % raster.tileWidth : Nat) := by
        rw [CInt.ofUnsigned_of_lt (by omega)]
        omega
      have hlocalRow : (row : Int) - CInt.ofUnsigned
          (row / raster.tileHeight * raster.tileHeight)
          = (row % raster.tileHeight : Nat) := by
        rw [CInt.ofUnsigned_of_lt (by omega)]
        omega
      have hoffset : ((row % raster.tileHeight : Nat) : Int)
            * raster.tileWidth + (column % raster.tileWidth : Nat)
          = (row % raster.tileHeight * raster.tileWidth
            + column % raster.tileWidth : Nat) := by
        push_cast
        rfl
      rw [hlocalColumn, hlocalRow, hoffset, floatAt_eq hword]
      exact Outcome.value state' hcoherent'

/-- A pixel of a strip, read in the row the code computes. -/
theorem strippedPixel_spec (hgeometry : raster.Geometry)
    (htiled : raster.tiled = false) (hdecodes : Decodes raster image)
    {localRow localOwner : Nat} (hcolumn : column < raster.width)
    (hrow : row < raster.height)
    (hlocal : raster.stripRow row = localRow)
    (howner : localOwner < raster.height)
    (hsame : localOwner / raster.rowsPerStrip = row / raster.rowsPerStrip)
    (hmod : localOwner % raster.rowsPerStrip = localRow)
    (hcoherent : Coherent raster.reader state) :
    Outcome raster budgets raster.reader
      (shownPixel (image column localOwner))
      (raster.strippedPixel budgets column row state) := by
  have hspec := @stripBlock_spec raster budgets state image hgeometry htiled
    hdecodes row hrow hcoherent
  obtain ⟨block, hblock, hwords⟩ := hspec
  have hword := hwords column hcolumn localOwner howner hsame
  rw [hmod] at hword
  unfold CopernicusRaster.strippedPixel
  rw [Int.toNat_natCast]
  generalize raster.stripBlock budgets _ state = outcome at hblock
  cases hblock with
  | exhausted state' hcoherent' hrefused =>
      exact Outcome.exhausted state' hcoherent' hrefused
  | value state' hcoherent' =>
      dsimp only
      have hoffset : (localRow : Int) * raster.width + column
          = (localRow * raster.width + column : Nat) := by
        push_cast
        rfl
      rw [hlocal, hoffset, floatAt_eq hword]
      exact Outcome.value state' hcoherent'

/-- Inside the raster the checks of `pixel` pass. -/
theorem pixel_of_inside (hgeometry : raster.Geometry)
    (hcolumn : column < raster.width) (hrow : row < raster.height) :
    raster.pixel budgets column row state
      = if raster.tiled then raster.tiledPixel budgets column row state
        else raster.strippedPixel budgets column row state := by
  unfold CopernicusRaster.pixel
  rw [hgeometry.ofUnsigned_width, hgeometry.ofUnsigned_height]
  exact if_neg (by omega)

/-- A pixel is the sample of its column and row. -/
theorem pixel_spec (hgeometry : raster.Geometry)
    (hstrips : raster.StripsAddressed) (hdecodes : Decodes raster image)
    (hcolumn : column < raster.width) (hrow : row < raster.height)
    (hcoherent : Coherent raster.reader state) :
    Outcome raster budgets raster.reader (shownPixel (image column row))
      (raster.pixel budgets column row state) := by
  rw [pixel_of_inside hgeometry hcolumn hrow]
  cases htiled : raster.tiled with
  | true =>
      rw [if_pos rfl]
      exact tiledPixel_spec hgeometry htiled hdecodes hcolumn hrow hcoherent
  | false =>
      rw [if_neg (by decide)]
      exact strippedPixel_spec hgeometry htiled hdecodes hcolumn hrow
        (hgeometry.stripRow_eq htiled hstrips hrow) hrow rfl rfl hcoherent

-- =============================================================== visits

/-- A visit delivers runs: all of them, or the first ones and the refusal
of the budget. -/
inductive Delivers (raster : CopernicusRaster) (budgets : DecodeBudgets)
    (runs : List RowRun) : Visit → Prop
  | all (state : RasterState) (hcoherent : Coherent raster.reader state) :
      Delivers raster budgets runs ⟨runs, .ok (), state⟩
  | exhausted (state : RasterState) (first : List RowRun)
      (hcoherent : Coherent raster.reader state) (hfirst : first <+: runs)
      (hrefused : Refused budgets) :
      Delivers raster budgets runs
        ⟨first, .error raster.exhaustedMessage, state⟩

/-- The visits of a loop deliver one after the other. -/
theorem visitAll_delivers {visit : Int → RasterState → Visit}
    {runs : Int → List RowRun} {values : List Int}
    (h : ∀ value ∈ values, ∀ state, Coherent raster.reader state →
      Delivers raster budgets (runs value) (visit value state)) :
    ∀ state, Coherent raster.reader state →
      Delivers raster budgets (values.flatMap runs)
        (visitAll visit values state) := by
  induction values with
  | nil => exact fun state hcoherent => Delivers.all state hcoherent
  | cons value rest ih =>
      intro state hcoherent
      have hvisit := h value List.mem_cons_self state hcoherent
      have hrest := ih
        (fun other hmem => h other (List.mem_cons_of_mem _ hmem))
      unfold visitAll
      rw [List.flatMap_cons]
      generalize visit value state = visited at hvisit
      cases hvisit with
      | exhausted state' first hcoherent' hfirst hrefused =>
          exact Delivers.exhausted state' first hcoherent'
            (hfirst.trans (List.prefix_append _ _)) hrefused
      | all state' hcoherent' =>
          have hmore := hrest state' hcoherent'
          dsimp only
          generalize visitAll visit rest state' = visited at hmore
          cases hmore with
          | all state'' hcoherent'' =>
              exact Delivers.all state'' hcoherent''
          | exhausted state'' first hcoherent'' hfirst hrefused =>
              exact Delivers.exhausted state'' _ hcoherent''
                ((List.prefix_append_right_inj _).2 hfirst) hrefused

/-- The run of the columns of a row. -/
def imageRun (image : Nat → Nat → UInt32) (first last row : Int) : RowRun where
  row := row
  column := first
  values := (Steps.values first last 1).map fun column =>
    shownFloat (image column.toNat row.toNat)

/-- A run of samples that follow each other in a block. -/
theorem visitRun_delivers {block : Bytes} {first last row : Int}
    {index : Nat} (hcolumns : first ≤ last)
    (h : ∀ column : Int, first ≤ column → column ≤ last →
      HoldsWord block (index + (column - first).toNat)
        (image column.toNat row.toNat))
    (hcoherent : Coherent raster.reader state) :
    Delivers raster budgets [imageRun image first last row]
      (raster.visitRun block row first (index * 4) (last - first + 1)
        state) := by
  obtain ⟨count, hcount⟩ := Int.eq_ofNat_of_zero_le
    (by omega : 0 ≤ last - first + 1)
  have hcopy : raster.copyRun block (index * 4) count
      = .ok ((List.range count).map fun offset : Nat =>
        shownFloat (image (first + offset).toNat row.toNat)) := by
    apply copyRun_eq (by omega)
    intro offset hoffset
    have hword := h (first + offset) (by omega) (by omega)
    have hindex : (first + offset - first).toNat = offset := by omega
    rw [hindex] at hword
    exact hword
  have hvalues : (Steps.values first last 1).map
        (fun column => shownFloat (image column.toNat row.toNat))
      = (List.range count).map fun offset : Nat =>
        shownFloat (image (first + offset).toNat row.toNat) := by
    unfold Steps.values
    have hlength : ((last - first) / 1 + 1).toNat = count := by
      rw [Int.ediv_one]
      omega
    rw [hlength, List.map_map]
    refine List.map_congr_left fun offset _ => ?_
    show shownFloat (image (first + offset * 1).toNat _) = _
    rw [Int.mul_one]
  unfold CopernicusRaster.visitRun imageRun
  rw [hcount, hcopy, hvalues]
  exact Delivers.all state hcoherent

-- ============================================================== windows

/-- A window inside the raster. -/
structure RasterWindow.Inside (window : RasterWindow)
    (raster : CopernicusRaster) : Prop where
  columnFirst_nonneg : 0 ≤ window.columnFirst
  columnFirst_le : window.columnFirst ≤ window.columnLast
  columnLast_lt : window.columnLast < raster.width
  rowFirst_nonneg : 0 ≤ window.rowFirst
  rowFirst_le : window.rowFirst ≤ window.rowLast
  rowLast_lt : window.rowLast < raster.height

variable {window : RasterWindow}

/-- The runs a tile contributes to a window. -/
def tileRuns (raster : CopernicusRaster) (image : Nat → Nat → UInt32)
    (window : RasterWindow) (tileY tileX : Int) : List RowRun :=
  (Steps.part window.rowFirst window.rowLast raster.tileHeight tileY).map
    (imageRun image (max window.columnFirst tileX)
      (min window.columnLast (tileX + raster.tileWidth - 1)))

/-- The part of a window in a tile. -/
theorem visitTile_delivers (hgeometry : raster.Geometry)
    (htiled : raster.tiled = true) (hdecodes : Decodes raster image)
    (hinside : window.Inside raster) {blockX blockY : Nat}
    (hfirstX : window.columnFirst
      < (raster.tileWidth * blockX + raster.tileWidth : Nat))
    (hlastX : (raster.tileWidth * blockX : Nat) ≤ window.columnLast)
    (hlastY : (raster.tileHeight * blockY : Nat) ≤ window.rowLast)
    (hcoherent : Coherent raster.reader state) :
    Delivers raster budgets
      (tileRuns raster image window (raster.tileHeight * blockY : Nat)
        (raster.tileWidth * blockX : Nat))
      (raster.visitTile budgets window (raster.tileHeight * blockY : Nat)
        (raster.tileWidth * blockX : Nat) state) := by
  have htilePos := hgeometry.tileWidth_pos htiled
  have hfirst := hinside.columnFirst_le
  have hcolumns := hinside.columnLast_lt
  have hrows := hinside.rowLast_lt
  have hspec := @tileBlock_spec raster budgets state image hgeometry htiled
    hdecodes (raster.tileWidth * blockX) (raster.tileHeight * blockY)
    (by omega) (by omega) hcoherent
  obtain ⟨block, hblock, hwords⟩ := hspec
  unfold CopernicusRaster.visitTile tileRuns Steps.part
  dsimp only
  rw [Int.toNat_natCast, Int.toNat_natCast,
    hgeometry.ofUnsigned_tileWidth htiled,
    hgeometry.ofUnsigned_tileHeight htiled]
  generalize raster.tileBlock budgets _ state = outcome at hblock
  cases hblock with
  | exhausted state' hcoherent' hrefused =>
      exact Delivers.exhausted state' [] hcoherent' List.nil_prefix hrefused
  | value state' hcoherent' =>
      dsimp only
      rw [← List.flatMap_singleton' ((Steps.values _ _ 1).map _),
        List.flatMap_map]
      refine visitAll_delivers ?_ state' hcoherent'
      intro row hmem state'' hcoherent''
      rw [Steps.mem_values_one] at hmem
      have hrowFirst := hinside.rowFirst_nonneg
      obtain ⟨row, rfl⟩ := Int.eq_ofNat_of_zero_le (by omega : 0 ≤ row)
      obtain ⟨first, hmax⟩ := Int.eq_ofNat_of_zero_le
        (by omega : 0 ≤ max window.columnFirst
          (raster.tileWidth * blockX : Nat))
      obtain ⟨hdivRow, hmodRow⟩ := @div_mod_of_block raster.tileHeight blockY
        row (by omega) (by omega)
      have hoffset : ((row : Int) - (raster.tileHeight * blockY : Nat))
            * raster.tileWidth
            + ((first : Int) - (raster.tileWidth * blockX : Nat))
          = ((row - raster.tileHeight * blockY) * raster.tileWidth
            + (first - raster.tileWidth * blockX) : Nat) := by
        have hlocalRow : (row : Int) - (raster.tileHeight * blockY : Nat)
            = (row - raster.tileHeight * blockY : Nat) := by omega
        have hlocalColumn : (first : Int) - (raster.tileWidth * blockX : Nat)
            = (first - raster.tileWidth * blockX : Nat) := by omega
        rw [hlocalRow, hlocalColumn, Int.natCast_add, Int.natCast_mul]
      show Delivers raster budgets [imageRun image _ _ _] _
      rw [hmax, hoffset]
      refine visitRun_delivers (by omega) ?_ hcoherent''
      intro column hlow hhigh
      obtain ⟨column, rfl⟩ := Int.eq_ofNat_of_zero_le
        (by omega : 0 ≤ column)
      obtain ⟨hdivColumn, hmodColumn⟩ := @div_mod_of_block raster.tileWidth
        blockX column (by omega) (by omega)
      have hword := hwords column (by omega) row (by omega)
        (by rw [hdivColumn, Nat.mul_div_cancel_left _
          (hgeometry.tileWidth_pos htiled)])
        (by rw [hdivRow, Nat.mul_div_cancel_left _
          (hgeometry.tileHeight_pos htiled)])
      have hindex : (row - raster.tileHeight * blockY) * raster.tileWidth
            + (first - raster.tileWidth * blockX)
            + ((column : Int) - first).toNat
          = row % raster.tileHeight * raster.tileWidth
            + column % raster.tileWidth := by
        rw [hmodRow, hmodColumn]
        omega
      rw [hindex]
      exact hword

/-- The row of a window in its strip. -/
theorem visitStripRow_delivers (hgeometry : raster.Geometry)
    (htiled : raster.tiled = false) (hstrips : raster.StripsAddressed)
    (hdecodes : Decodes raster image) (hinside : window.Inside raster)
    {row : Int} (hlow : window.rowFirst ≤ row) (hhigh : row ≤ window.rowLast)
    (hcoherent : Coherent raster.reader state) :
    Delivers raster budgets
      [imageRun image window.columnFirst window.columnLast row]
      (raster.visitStripRow budgets window row state) := by
  have hcolumns := hinside.columnFirst_le
  have hcolumnFirst := hinside.columnFirst_nonneg
  have hcolumnLast := hinside.columnLast_lt
  have hrowFirst := hinside.rowFirst_nonneg
  have hrowLast := hinside.rowLast_lt
  obtain ⟨row, rfl⟩ := Int.eq_ofNat_of_zero_le (by omega : 0 ≤ row)
  obtain ⟨first, hfirst⟩ := Int.eq_ofNat_of_zero_le hcolumnFirst
  have hspec := @stripBlock_spec raster budgets state image hgeometry htiled
    hdecodes row (by omega) hcoherent
  obtain ⟨block, hblock, hwords⟩ := hspec
  unfold CopernicusRaster.visitStripRow
  rw [Int.toNat_natCast]
  generalize raster.stripBlock budgets _ state = outcome at hblock
  cases hblock with
  | exhausted state' hcoherent' hrefused =>
      exact Delivers.exhausted state' [] hcoherent' List.nil_prefix hrefused
  | value state' hcoherent' =>
      dsimp only
      have hoffset : ((row % raster.rowsPerStrip : Nat) : Int) * raster.width
            + first
          = (row % raster.rowsPerStrip * raster.width + first : Nat) := by
        rw [Int.natCast_add, Int.natCast_mul]
      rw [hgeometry.stripRow_eq htiled hstrips (by omega), hfirst, hoffset]
      refine visitRun_delivers (by omega) ?_ hcoherent'
      intro column hcolumnLow hcolumnHigh
      obtain ⟨column, rfl⟩ := Int.eq_ofNat_of_zero_le
        (by omega : 0 ≤ column)
      have hword := hwords column (by omega) row (by omega) rfl
      have hindex : row % raster.rowsPerStrip * raster.width + first
            + ((column : Int) - first).toNat
          = row % raster.rowsPerStrip * raster.width + column := by omega
      rw [hindex]
      exact hword

/-- The starts of the blocks that meet a range. -/
theorem block_of_mem {first last start : Int} {length : Nat}
    (hpos : 0 < length) (hfirst : 0 ≤ first)
    (h : start ∈ Steps.values (first.tdiv length * length) last length) :
    ∃ block : Nat, start = (length * block : Nat) ∧ start ≤ last ∧
      first < start + length := by
  have hstep : (0 : Int) < length := by omega
  obtain ⟨hlow, hhigh, rounds, hrounds⟩ := (Steps.mem_values hstep).1 h
  rw [Int.tdiv_eq_ediv_of_nonneg hfirst] at hlow hrounds
  have hnext := Int.lt_ediv_add_one_mul_self first hstep
  rw [Int.add_mul, Int.one_mul] at hnext
  have hstart : start = length * (first / length + rounds) := by
    rw [Int.mul_add, Int.mul_comm _ (first / length)]
    omega
  have hdiv : 0 ≤ first / length * length :=
    Int.mul_nonneg (Int.ediv_nonneg hfirst hstep.le) hstep.le
  have hblock : 0 ≤ first / length + rounds := by
    by_contra hneg
    have hmul : (length : Int) * (first / length + rounds) < 0 :=
      Int.mul_neg_of_pos_of_neg hstep (by omega)
    omega
  obtain ⟨block, hblock⟩ := Int.eq_ofNat_of_zero_le hblock
  refine ⟨block, ?_, hhigh, by omega⟩
  rw [hstart, hblock, Int.natCast_mul]

/-- The runs of a window, in the order of the loops. -/
def windowRuns (raster : CopernicusRaster) (image : Nat → Nat → UInt32)
    (window : RasterWindow) : List RowRun :=
  if raster.tiled then
    (Steps.values (window.rowFirst.tdiv raster.tileHeight * raster.tileHeight)
      window.rowLast raster.tileHeight).flatMap fun tileY =>
        (Steps.values
          (window.columnFirst.tdiv raster.tileWidth * raster.tileWidth)
          window.columnLast raster.tileWidth).flatMap fun tileX =>
            tileRuns raster image window tileY tileX
  else
    (Steps.values window.rowFirst window.rowLast 1).flatMap fun row =>
      [imageRun image window.columnFirst window.columnLast row]

/-- A visit delivers the runs of its window. -/
theorem visitWindow_delivers (hgeometry : raster.Geometry)
    (hstrips : raster.StripsAddressed) (hdecodes : Decodes raster image)
    (hinside : window.Inside raster)
    (hcoherent : Coherent raster.reader state) :
    Delivers raster budgets (windowRuns raster image window)
      (raster.visitWindow budgets window state) := by
  have hcolumns := hinside.columnFirst_le
  have hcolumnFirst := hinside.columnFirst_nonneg
  have hcolumnLast := hinside.columnLast_lt
  have hrows := hinside.rowFirst_le
  have hrowFirst := hinside.rowFirst_nonneg
  have hrowLast := hinside.rowLast_lt
  have hmeets : ¬ (window.columnFirst < 0 ∨ window.rowFirst < 0
      ∨ (raster.width : Int) ≤ window.columnLast
      ∨ (raster.height : Int) ≤ window.rowLast
      ∨ window.columnLast < window.columnFirst
      ∨ window.rowLast < window.rowFirst) := by omega
  unfold CopernicusRaster.visitWindow windowRuns
  dsimp only
  rw [hgeometry.ofUnsigned_width, hgeometry.ofUnsigned_height,
    if_neg hmeets]
  cases htiled : raster.tiled with
  | false =>
      rw [if_neg (by decide), if_neg (by decide)]
      refine visitAll_delivers ?_ state hcoherent
      intro row hmem state' hcoherent'
      rw [Steps.mem_values_one] at hmem
      exact visitStripRow_delivers hgeometry htiled hstrips hdecodes hinside
        hmem.1 hmem.2 hcoherent'
  | true =>
      rw [if_pos rfl, if_pos rfl, hgeometry.ofUnsigned_tileWidth htiled,
        hgeometry.ofUnsigned_tileHeight htiled]
      refine visitAll_delivers ?_ state hcoherent
      intro tileY hmemY state' hcoherent'
      refine visitAll_delivers ?_ state' hcoherent'
      intro tileX hmemX state'' hcoherent''
      obtain ⟨blockY, rfl, hlastY, -⟩ := block_of_mem
        (hgeometry.tileHeight_pos htiled) hrowFirst hmemY
      obtain ⟨blockX, rfl, hlastX, hfirstX⟩ := block_of_mem
        (hgeometry.tileWidth_pos htiled) hcolumnFirst hmemX
      rw [← Int.natCast_add] at hfirstX
      exact visitTile_delivers hgeometry htiled hdecodes hinside hfirstX
        hlastX hlastY hcoherent''

-- ====================================================== what is shown

/-- The pixels of a run, with their columns and rows. -/
def RowRun.pixels (run : RowRun) : List (Int × Int × UInt32) :=
  run.values.zipIdx.map fun value =>
    (run.column + value.2, run.row, value.1)

/-- The pixels a visitor is given. -/
def Visit.pixels (visit : Visit) : List (Int × Int × UInt32) :=
  visit.runs.flatMap RowRun.pixels

/-- The columns and rows of a window, row by row. -/
def RasterWindow.cells (window : RasterWindow) : List (Int × Int) :=
  (Steps.values window.rowFirst window.rowLast 1).flatMap fun row =>
    (Steps.values window.columnFirst window.columnLast 1).map fun column =>
      (column, row)

/-- The float of a pixel, with its column and row. -/
def cellFloat (image : Nat → Nat → UInt32) (cell : Int × Int) :
    Int × Int × UInt32 :=
  (cell.1, cell.2, shownFloat (image cell.1.toNat cell.2.toNat))

/-- The pixels of a run of the image. -/
theorem imageRun_pixels (first last row : Int) :
    (imageRun image first last row).pixels
      = (Steps.values first last 1).map fun column =>
        cellFloat image (column, row) := by
  unfold RowRun.pixels imageRun Steps.values
  dsimp only
  rw [List.map_map, List.map_map]
  apply List.ext_getElem
  · simp only [List.length_map, List.length_zipIdx, List.length_range]
  · intro index _ _
    simp only [List.getElem_map, List.getElem_zipIdx, List.getElem_range,
      Function.comp_apply, Nat.zero_add, Int.mul_one]
    rfl

/-- The runs of a tile are its part of the window, row by row. -/
theorem tileRuns_pixels (tileY tileX : Int) :
    (tileRuns raster image window tileY tileX).flatMap RowRun.pixels
      = (Steps.part window.rowFirst window.rowLast raster.tileHeight
          tileY).flatMap fun row =>
        (Steps.part window.columnFirst window.columnLast raster.tileWidth
          tileX).map fun column => cellFloat image (column, row) := by
  unfold tileRuns
  rw [List.flatMap_map]
  refine List.flatMap_congr fun row _ => ?_
  exact imageRun_pixels _ _ row

/-- The runs of a window hold each of its pixels once. -/
theorem windowRuns_pixels (hgeometry : raster.Geometry)
    (hinside : window.Inside raster) :
    ((windowRuns raster image window).flatMap RowRun.pixels).Perm
      (window.cells.map (cellFloat image)) := by
  unfold windowRuns RasterWindow.cells
  rw [List.map_flatMap]
  cases htiled : raster.tiled with
  | false =>
      rw [if_neg (by decide), List.flatMap_assoc]
      refine List.Perm.flatMap_left _ fun row _ => ?_
      rw [List.flatMap_singleton, imageRun_pixels, List.map_map]
      rfl
  | true =>
      have hwidth : (0 : Int) < raster.tileWidth := by
        exact_mod_cast hgeometry.tileWidth_pos htiled
      have hheight : (0 : Int) < raster.tileHeight := by
        exact_mod_cast hgeometry.tileHeight_pos htiled
      have hcolumns := Steps.flatMap_part hwidth hinside.columnFirst_nonneg
        hinside.columnFirst_le
      have hrows := Steps.flatMap_part hheight hinside.rowFirst_nonneg
        hinside.rowFirst_le
      rw [if_pos rfl, ← hrows, List.flatMap_assoc, List.flatMap_assoc]
      refine List.Perm.flatMap_left _ fun tileY _ => ?_
      rw [List.flatMap_assoc]
      simp only [tileRuns_pixels]
      -- the columns of all tiles of a row of tiles, row after row
      refine (Steps.flatMap_swap _ _ _).trans ?_
      refine List.Perm.flatMap_left _ fun row _ => ?_
      rw [← List.map_flatMap, hcolumns, List.map_map]
      rfl

/-- No column and row of a window is listed twice. -/
theorem RasterWindow.cells_nodup (window : RasterWindow) :
    window.cells.Nodup := by
  have hvalues : ∀ first last : Int,
      (Steps.values first last 1).Nodup := by
    intro first last
    unfold Steps.values
    refine List.Nodup.map ?_ List.nodup_range
    intro a b hab
    dsimp only at hab
    omega
  unfold RasterWindow.cells
  rw [List.nodup_flatMap]
  refine ⟨fun row _ => ?_, ?_⟩
  · refine List.Nodup.map ?_ (hvalues _ _)
    intro a b hab
    exact congrArg Prod.fst hab
  · refine (hvalues _ _).imp ?_
    intro a b hab cell ha hb
    obtain ⟨_, -, rfl⟩ := List.mem_map.1 ha
    obtain ⟨_, -, hcell⟩ := List.mem_map.1 hb
    exact hab (congrArg Prod.snd hcell).symm

/-- The cells of a window lie between its bounds. -/
theorem RasterWindow.mem_cells {window : RasterWindow} {cell : Int × Int} :
    cell ∈ window.cells
      ↔ (window.columnFirst ≤ cell.1 ∧ cell.1 ≤ window.columnLast) ∧
        window.rowFirst ≤ cell.2 ∧ cell.2 ≤ window.rowLast := by
  obtain ⟨column, row⟩ := cell
  unfold RasterWindow.cells
  simp only [List.mem_flatMap, List.mem_map, Steps.mem_values_one,
    Prod.mk.injEq]
  constructor
  · intro h
    obtain ⟨_, hrow, _, hcolumn, rfl, rfl⟩ := h
    exact ⟨hcolumn, hrow⟩
  · intro h
    exact ⟨row, h.2, column, h.1, rfl, rfl⟩

-- ============================================== which rasters are exact

/-- A raster that is open, after any calls. -/
inductive Reachable (raster : CopernicusRaster) (budgets : DecodeBudgets) :
    RasterState → Prop
  | opened : Reachable raster budgets {}
  | pixel (column row : Int) {state : RasterState}
      (h : Reachable raster budgets state) :
      Reachable raster budgets (raster.pixel budgets column row state).2
  | visitWindow (window : RasterWindow) {state : RasterState}
      (h : Reachable raster budgets state) :
      Reachable raster budgets
        (raster.visitWindow budgets window state).state

/-- A pixel is the sample of its column and row, or the budget for
decoding refused and that is reported. -/
def ShowsPixel (raster : CopernicusRaster) (budgets : DecodeBudgets)
    (image : Nat → Nat → UInt32) (column row : Nat)
    (result : Except String (Option UInt32)) : Prop :=
  result = .ok (shownPixel (image column row)) ∨
    result = .error raster.exhaustedMessage ∧ Refused budgets

/-- A visitor is given each pixel of a window once. If the budget for
decoding refused, that is reported and it is given some of them. -/
def ShowsWindow (raster : CopernicusRaster) (budgets : DecodeBudgets)
    (image : Nat → Nat → UInt32) (window : RasterWindow) (visit : Visit) :
    Prop :=
  visit.result = .ok () ∧
      visit.pixels.Perm (window.cells.map (cellFloat image)) ∨
    (visit.result = .error raster.exhaustedMessage ∧ Refused budgets) ∧
      visit.pixels.Subperm (window.cells.map (cellFloat image))

/-- Reading is exact, whatever was read before. -/
structure Exact (raster : CopernicusRaster) (image : Nat → Nat → UInt32) :
    Prop where
  pixel : ∀ budgets state, Reachable raster budgets state →
    ∀ column < raster.width, ∀ row < raster.height,
      ShowsPixel raster budgets image column row
        (raster.pixel budgets column row state).1
  window : ∀ budgets state, Reachable raster budgets state →
    ∀ window : RasterWindow, window.Inside raster →
      ShowsWindow raster budgets image window
        (raster.visitWindow budgets window state)

/-- However a read ends, the cache keeps to the file. -/
theorem Outcome.coherent {A : Type} {value : A}
    {outcome : Except String A × RasterState}
    (h : Outcome raster budgets reader value outcome) :
    Coherent reader outcome.2 := by
  cases h with
  | value state hcoherent => exact hcoherent
  | exhausted state hcoherent hrefused => exact hcoherent

/-- So it does however a visit ends. -/
theorem Delivers.coherent {runs : List RowRun} {visit : Visit}
    (h : Delivers raster budgets runs visit) :
    Coherent raster.reader visit.state := by
  cases h with
  | all state hcoherent => exact hcoherent
  | exhausted state first hcoherent hfirst hrefused => exact hcoherent

/-- Calls that are outside of the raster change nothing, the others leave
blocks that are what decoding gives. -/
theorem Reachable.coherent (hgeometry : raster.Geometry)
    (hstrips : raster.StripsAddressed) (hdecodes : Decodes raster image)
    (h : Reachable raster budgets state) : Coherent raster.reader state := by
  induction h with
  | opened => exact coherent_opened
  | pixel column row h ih =>
      by_cases houtside : column < 0 ∨ row < 0
          ∨ CInt.ofUnsigned raster.width ≤ column
          ∨ CInt.ofUnsigned raster.height ≤ row
      · unfold CopernicusRaster.pixel
        rw [if_pos houtside]
        exact ih
      · rw [hgeometry.ofUnsigned_width, hgeometry.ofUnsigned_height]
          at houtside
        obtain ⟨column, rfl⟩ := Int.eq_ofNat_of_zero_le
          (by omega : 0 ≤ column)
        obtain ⟨row, rfl⟩ := Int.eq_ofNat_of_zero_le (by omega : 0 ≤ row)
        exact (pixel_spec hgeometry hstrips hdecodes (by omega) (by omega)
          ih).coherent
  | visitWindow window h ih =>
      by_cases houtside : window.columnFirst < 0 ∨ window.rowFirst < 0
          ∨ CInt.ofUnsigned raster.width ≤ window.columnLast
          ∨ CInt.ofUnsigned raster.height ≤ window.rowLast
          ∨ window.columnLast < window.columnFirst
          ∨ window.rowLast < window.rowFirst
      · unfold CopernicusRaster.visitWindow
        rw [if_pos houtside]
        exact ih
      · rw [hgeometry.ofUnsigned_width, hgeometry.ofUnsigned_height]
          at houtside
        have hinside : window.Inside raster :=
          { columnFirst_nonneg := by omega
            columnFirst_le := by omega
            columnLast_lt := by omega
            rowFirst_nonneg := by omega
            rowFirst_le := by omega
            rowLast_lt := by omega }
        exact (visitWindow_delivers hgeometry hstrips hdecodes hinside
          ih).coherent

/-- Where the rows within strips are right, reading is exact. -/
theorem exact_of_stripsAddressed (hgeometry : raster.Geometry)
    (hstrips : raster.StripsAddressed) (hdecodes : Decodes raster image) :
    Exact raster image where
  pixel := by
    intro budgets state hreachable column hcolumn row hrow
    have hspec : Outcome raster budgets raster.reader _
        (raster.pixel budgets column row state) :=
      pixel_spec hgeometry hstrips hdecodes hcolumn hrow
        (hreachable.coherent hgeometry hstrips hdecodes)
    generalize raster.pixel budgets column row state = outcome at hspec
    cases hspec with
    | value state' hcoherent => exact Or.inl rfl
    | exhausted state' hcoherent hrefused => exact Or.inr ⟨rfl, hrefused⟩
  window := by
    intro budgets state hreachable window hinside
    have hspec : Delivers raster budgets _
        (raster.visitWindow budgets window state) :=
      visitWindow_delivers hgeometry hstrips hdecodes hinside
        (hreachable.coherent hgeometry hstrips hdecodes)
    have hpixels : ((windowRuns raster image window).flatMap
        RowRun.pixels).Perm (window.cells.map (cellFloat image)) :=
      windowRuns_pixels hgeometry hinside
    generalize raster.visitWindow budgets window state = visit at hspec
    cases hspec with
    | all state' hcoherent => exact Or.inl ⟨rfl, hpixels⟩
    | exhausted state' first hcoherent hfirst hrefused =>
        refine Or.inr ⟨⟨rfl, hrefused⟩, ?_⟩
        obtain ⟨rest, hrest⟩ := hfirst
        refine List.Subperm.trans ?_ hpixels.subperm
        rw [← hrest, List.flatMap_append]
        exact (List.sublist_append_left _ _).subperm

-- ------------------------------------------------ one strip of any length

/-- A file of one strip that shows an image. -/
def stripTiff (width height rowsPerStrip : Nat)
    (image : Nat → Nat → UInt32) : Tiff where
  imageWidth := some width
  imageLength := some height
  bitsPerSample := some 32
  samplesPerPixel := some 1
  sampleFormat := some CopernicusRaster.sampleFormatIeeefp
  planarConfig := some CopernicusRaster.planarConfigContig
  isTiled := false
  tileWidth := none
  tileLength := none
  rowsPerStrip := some rowsPerStrip
  georeferencing := .ok ()
  tileSize := 0
  stripSize := (min rowsPerStrip height * width * 4 : Nat)
  computeTile _ _ := 0
  computeStrip _ := 0
  readEncodedTile _ := none
  readEncodedStrip _ :=
    some (LittleEndian.flatten 4 ((List.range (height * width)).map
      fun index => (image (index % width) (index / width)).toNat))

/-- Words written one behind the other are found in their places. -/
theorem flatten_holdsWord {words : List UInt32} {index : Nat} {word : UInt32}
    (h : words[index]? = some word) :
    HoldsWord (LittleEndian.flatten 4 (words.map UInt32.toNat)) index word
    := by
  obtain ⟨hindex, hword⟩ := List.getElem?_eq_some_iff.1 h
  have hread := @LittleEndian.readAll_flatten 4 (words.map UInt32.toNat)
    (fun code hmem => by
      obtain ⟨word, -, rfl⟩ := List.mem_map.1 hmem
      exact word.toNat_lt)
  rw [List.length_map] at hread
  have hat := congrArg (fun codes => codes[index]?) hread
  unfold LittleEndian.readAll at hat
  rw [List.getElem?_map, List.getElem?_range hindex, List.getElem?_map, h]
    at hat
  refine ⟨?_, ?_⟩
  · rw [LittleEndian.length_flatten, List.length_map]
    omega
  · have hat : LittleEndian.readAt 4
        (LittleEndian.flatten 4 (words.map UInt32.toNat)) (index * 4)
        = word.toNat := Option.some_inj.1 hat
    unfold CopernicusRaster.wordAt
    rw [hat]
    exact UInt32.ofNat_toNat

/-- The raster with another file of the same layout. -/
def CopernicusRaster.withTiff (raster : CopernicusRaster) (tiff : Tiff) :
    CopernicusRaster :=
  { raster with tiff := tiff }

/-- The raster with a file of one strip. -/
def CopernicusRaster.oneStrip (raster : CopernicusRaster)
    (image : Nat → Nat → UInt32) : CopernicusRaster :=
  raster.withTiff
    (stripTiff raster.width raster.height raster.rowsPerStrip image)

/-- What is in the file is no matter of the geometry. -/
theorem CopernicusRaster.Geometry.withTiff (h : raster.Geometry)
    (tiff : Tiff) : (raster.withTiff tiff).Geometry where
  width_pos := h.width_pos
  width_le := h.width_le
  height_pos := h.height_pos
  height_le := h.height_le
  tileWidth_pos := h.tileWidth_pos
  tileHeight_pos := h.tileHeight_pos
  tile_le := h.tile_le
  rowsPerStrip_pos := h.rowsPerStrip_pos
  rowsPerStrip_lt := h.rowsPerStrip_lt
  strip_le := h.strip_le

/-- The samples of a strip of the whole height. -/
theorem stripTiff_holdsWord (hcolumn : column < raster.width)
    (hrow : row < raster.height) :
    HoldsWord (LittleEndian.flatten 4
      ((List.range (raster.height * raster.width)).map fun index =>
        (image (index % raster.width) (index / raster.width)).toNat))
      (row * raster.width + column) (image column row) := by
  have hpos : 0 < raster.width := by omega
  have hlast : (row + 1) * raster.width ≤ raster.height * raster.width :=
    Nat.mul_le_mul_right _ hrow
  rw [Nat.succ_mul] at hlast
  have hwords : (List.range (raster.height * raster.width)).map
        (fun index =>
          (image (index % raster.width) (index / raster.width)).toNat)
      = ((List.range (raster.height * raster.width)).map fun index =>
          image (index % raster.width) (index / raster.width)).map
        UInt32.toNat := by
    rw [List.map_map]
    rfl
  have hmod : (row * raster.width + column) % raster.width = column := by
    rw [Nat.add_comm, Nat.add_mul_mod_self_right, Nat.mod_eq_of_lt hcolumn]
  have hdiv : (row * raster.width + column) / raster.width = row := by
    rw [Nat.add_comm, Nat.add_mul_div_right _ _ hpos,
      Nat.div_eq_of_lt hcolumn, Nat.zero_add]
  rw [hwords]
  apply flatten_holdsWord
  rw [List.getElem?_map, List.getElem?_range (by omega), Option.map_some,
    hmod, hdiv]

/-- The strip shows the image, if it has all rows. -/
theorem stripTiff_decodes (htiled : raster.tiled = false)
    (hstrip : raster.height ≤ raster.rowsPerStrip) :
    Decodes (raster.oneStrip image) image where
  tileSize := by
    intro h
    have h : raster.tiled = true := h
    rw [htiled] at h
    cases h
  stripSize := fun _ => rfl
  tile := by
    intro h
    have h : raster.tiled = true := h
    rw [htiled] at h
    cases h
  strip := by
    intro _ y hy
    refine ⟨_, rfl, ?_, ?_⟩
    · show _ ≤ min raster.rowsPerStrip raster.height * raster.width * 4
      rw [LittleEndian.length_flatten, List.length_map, List.length_range,
        min_eq_right hstrip]
    · intro column hcolumn row hrow _
      have hrow : row < raster.height := hrow
      show HoldsWord _ (row % raster.rowsPerStrip * raster.width + column) _
      rw [Nat.mod_eq_of_lt (by omega)]
      exact stripTiff_holdsWord hcolumn hrow

/-- An image whose first row differs from all others. -/
def firstRowImage (_ row : Nat) : UInt32 :=
  if row = 0 then 0x3F800000 else 0x40000000

/-- A later row that is taken for the first one. -/
theorem not_exact_of_stripRow (hgeometry : raster.Geometry)
    (htiled : raster.tiled = false)
    (hstrip : raster.height ≤ raster.rowsPerStrip)
    (hrow : row < raster.height) (hpos : 0 < row)
    (hlocal : raster.stripRow row = (0 : Nat)) :
    ¬ Exact (raster.oneStrip firstRowImage) firstRowImage := by
  intro hexact
  have hstriped : (raster.oneStrip firstRowImage).Geometry :=
    hgeometry.withTiff _
  have hopened := hexact.pixel ⟨fun _ => true, fun _ => true⟩ {}
    Reachable.opened 0 hgeometry.width_pos row hrow
  have hspec : Outcome (raster.oneStrip firstRowImage)
      ⟨fun _ => true, fun _ => true⟩ (raster.oneStrip firstRowImage).reader
      (shownPixel (firstRowImage 0 0))
      ((raster.oneStrip firstRowImage).strippedPixel
        ⟨fun _ => true, fun _ => true⟩ (0 : Nat) row {}) := by
    refine strippedPixel_spec hstriped htiled
      (stripTiff_decodes htiled hstrip) hgeometry.width_pos hrow hlocal
      hgeometry.height_pos ?_ (Nat.zero_mod _) coherent_opened
    show 0 / raster.rowsPerStrip = row / raster.rowsPerStrip
    rw [Nat.zero_div, Nat.div_eq_of_lt (by omega)]
  have hlayout : (raster.oneStrip firstRowImage).tiled = false := htiled
  rw [pixel_of_inside hstriped hgeometry.width_pos hrow,
    hlayout, if_neg (by decide)] at hopened
  generalize (raster.oneStrip firstRowImage).strippedPixel
    ⟨fun _ => true, fun _ => true⟩ (0 : Nat) row {} = outcome
    at hspec hopened
  have hshown : shownPixel (firstRowImage 0 0) = some 0x3F800000 := by
    decide +kernel
  have hother : shownPixel (firstRowImage 0 row) = some 0x40000000 := by
    have himage : firstRowImage 0 row = 0x40000000 := if_neg hpos.ne'
    rw [himage]
    decide +kernel
  cases hspec with
  | exhausted state' hcoherent hrefused =>
      obtain ⟨_, hrefused⟩ := hrefused
      cases hrefused
  | value state' hcoherent =>
      rcases hopened with hvalue | hrefused
      · have hvalue := Except.ok.inj hvalue
        rw [hshown, hother] at hvalue
        exact absurd hvalue (by decide)
      · cases hrefused.1

/-- Whatever image the file of a raster shows, and whatever the cache and
the budgets do, reading it is exact, exactly if the rows within strips are
right: the raster is tiled, `rows_per_strip` is below `2 ^ 31`, or the
raster is not higher than what is left to `2 ^ 32`. -/
theorem raster_exact_iff {raster : CopernicusRaster}
    (hgeometry : raster.Geometry) :
    (∀ (tiff : Tiff) (image : Nat → Nat → UInt32),
      Decodes (raster.withTiff tiff) image →
        Exact (raster.withTiff tiff) image)
      ↔ raster.StripsAddressed := by
  constructor
  · intro hexact
    by_contra hstrips
    unfold CopernicusRaster.StripsAddressed at hstrips
    push Not at hstrips
    obtain ⟨htiled, hlarge, hhigh⟩ := hstrips
    have htiled : raster.tiled = false := Bool.eq_false_iff.2 htiled
    have hlt := hgeometry.rowsPerStrip_lt htiled
    have hheight := hgeometry.height_le
    have hlocal : raster.stripRow (2 ^ 32 - raster.rowsPerStrip : Nat)
        = (0 : Nat) := by
      unfold CopernicusRaster.stripRow
      have hneg : (raster.rowsPerStrip : Int) - 2 ^ 32
          = -((2 ^ 32 - raster.rowsPerStrip : Nat) : Int) := by omega
      rw [CInt.ofUnsigned_of_ge hlarge hlt, hneg,
        Int.tmod_eq_emod_of_nonneg (by omega), Int.emod_neg, Int.emod_self]
      rfl
    exact not_exact_of_stripRow hgeometry htiled (by omega) hhigh (by omega)
      hlocal (hexact _ _ (stripTiff_decodes htiled (by omega)))
  · intro hstrips tiff image hdecodes
    exact exact_of_stripsAddressed (hgeometry.withTiff tiff) hstrips hdecodes

/-- A raster of one column and two rows, in strips. -/
def twoRows (rowsPerStrip : Nat) : CopernicusRaster where
  path := "cell.tif"
  tiff := stripTiff 1 2 rowsPerStrip firstRowImage
  width := 1
  height := 2
  rowsPerStrip := rowsPerStrip

/-- One column of two rows, in strips of any height. -/
theorem twoRows_geometry {rowsPerStrip : Nat} (hpos : 0 < rowsPerStrip)
    (hlt : rowsPerStrip < 2 ^ 32) : (twoRows rowsPerStrip).Geometry where
  width_pos := Nat.one_pos
  width_le := Nat.one_le_two_pow
  height_pos := Nat.two_pos
  height_le := by
    show 2 ≤ 2 ^ 30
    decide
  tileWidth_pos := fun h => by cases h
  tileHeight_pos := fun h => by cases h
  tile_le := fun h => by cases h
  rowsPerStrip_pos := fun _ => hpos
  rowsPerStrip_lt := fun _ => hlt
  strip_le := fun _ => by
    show min rowsPerStrip 2 * 1 * 4 ≤ maximumDecodedRasterBlockCacheBytes
    unfold maximumDecodedRasterBlockCacheBytes
    omega

/-- With the tag, both rows stand in one strip. -/
theorem raster_exact_twoRows : Exact (twoRows 2) firstRowImage :=
  (raster_exact_iff (twoRows_geometry (by decide) (by decide))).2
    (Or.inr (Or.inl (by decide))) (twoRows 2).tiff firstRowImage
    (stripTiff_decodes rfl (by decide))

/-- With the default of `rows_per_strip` every row is read as the first
one. -/
theorem raster_not_exact_default :
    CopernicusRaster.openTiff "cell.tif"
        (some (stripTiff 1 2 (2 ^ 32 - 1) firstRowImage))
      = .ok (twoRows (2 ^ 32 - 1)) ∧
    (twoRows (2 ^ 32 - 1)).Geometry ∧
    Decodes (twoRows (2 ^ 32 - 1)) firstRowImage ∧
    ((twoRows (2 ^ 32 - 1)).pixel ⟨fun _ => true, fun _ => true⟩ 0 1 {}).1
      = .ok (some 0x3F800000) ∧
    shownPixel (firstRowImage 0 1) = some 0x40000000 ∧
    ¬ Exact (twoRows (2 ^ 32 - 1)) firstRowImage := by
  have hgeometry : (twoRows (2 ^ 32 - 1)).Geometry :=
    twoRows_geometry (by decide) (by decide)
  have hdecodes : Decodes ((twoRows (2 ^ 32 - 1)).oneStrip firstRowImage)
      firstRowImage := stripTiff_decodes rfl (by decide)
  refine ⟨rfl, hgeometry, hdecodes, by decide +kernel, by decide +kernel,
    ?_⟩
  exact not_exact_of_stripRow hgeometry rfl (by decide)
    (by decide : 1 < 2) Nat.one_pos (by decide)

end AowisMap.Terrain
