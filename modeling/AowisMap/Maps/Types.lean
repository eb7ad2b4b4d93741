/-
Data of the map tile store: providers, tile addresses and keys, files
and the bytes in them.

Bytes carry where they came from (`Blob.origin`): the upstream download
whose response body they are, or nothing when they were put on disk by
somebody else. No transition reads the origin; it is what the deletion
results are stated about.
-/
import AowisMap.Lib.Cyclic
import AowisMap.Lib.QString
import AowisMap.Terrain.Types

namespace AowisMap.Maps

open Lib Terrain

/-- The fields of `Aowis::Map::MapProvider` the tile store reads. -/
structure MapProvider where
  id : String
  urlTemplate : String
  /-- Empty inherits the default coverage. -/
  coverage : String := ""
  enabled : Bool := true
  remoteFetchEnabled : Bool := true
  minimumZoom : Int := 0
  maximumZoom : Int := 19
deriving DecidableEq, Repr

/-- `defaultMapProviders`. -/
def defaultMapProviders : List MapProvider :=
  [ { id := "0381bc44-67e9-5af9-aeb0-023ccba36658"
      urlTemplate := "https://tile.openstreetmap.org/{z}/{x}/{y}.png"
      maximumZoom := 19 },
    { id := "49bda1b9-15aa-55e6-8933-2172c785e775"
      urlTemplate :=
        "https://{s}.tile-cyclosm.openstreetmap.fr/cyclosm/{z}/{x}/{y}.png"
      maximumZoom := 20 },
    { id := "178a60e6-178a-507b-af86-f45427150986"
      urlTemplate := "https://tile.opentopomap.org/{z}/{x}/{y}.png"
      maximumZoom := 17 },
    { id := "a0d790c2-f231-55fd-b95e-23c9bd6cb3fc"
      urlTemplate := "https://server.arcgisonline.com/ArcGIS/rest/services/World_Imagery/MapServer/tile/{z}/{y}/{x}"
      maximumZoom := 17 } ]

/-- The tiles a `DownloadCoverage` lets a policy fetch. -/
structure Coverage where
  permitsTile : String → Int → Int → Int → Bool

/-- A default-constructed coverage knows no profile. -/
def Coverage.empty : Coverage where
  permitsTile profile _ _ _ := profile == ""

-- ============================================================== tiles

/-- A tile of a provider. -/
structure Tile where
  provider : String
  zoom : Int
  x : Int
  y : Int
deriving DecidableEq, Repr

/-- The directory `<base>/maptiles/<provider>` of a provider's tiles, or
a `variants/<name>` directory below it. -/
structure TileDir where
  base : String
  provider : String
  variant : Option String := none
deriving DecidableEq, Repr

/-- The file `<zoom>/<x>/<y>.png` of a tile directory. -/
structure TilePath where
  dir : TileDir
  zoom : Int
  x : Int
  y : Int
deriving DecidableEq, Repr

/-- The tile a path is the cache file of. -/
def TilePath.tile (path : TilePath) : Tile where
  provider := path.dir.provider
  zoom := path.zoom
  x := path.x
  y := path.y

/-- `MapTiles::canonicalTileKey`. -/
def canonicalTileKey (provider : String) (zoom x y : Int) : String :=
  String.ofList (QString.arg (QString.arg (QString.arg (QString.arg
    "%1/%2/%3/%4".toList provider.toList) (QString.number zoom))
    (QString.number x)) (QString.number y))

/-- The canonical key of a tile. -/
def Tile.key (t : Tile) : String := canonicalTileKey t.provider t.zoom t.x t.y

/-- `parseCanonicalTileKey`. -/
def parseCanonicalTileKey (key : String) : Option Tile :=
  match key.toList.splitOn '/' with
  | [provider, zoom, x, y] =>
      if provider = [] then none
      else match QString.toInt zoom, QString.toInt x, QString.toInt y with
        | some zoom, some x, some y =>
            some ⟨String.ofList provider, zoom, x, y⟩
        | _, _, _ => none
  | _ => none

/-- `positiveModulo`. -/
def positiveModulo (value divisor : Int) : Int :=
  Cyclic.positiveModulo value divisor

/-- `1 << zoom`. -/
def tileCount (zoom : Int) : Int := 2 ^ zoom.toNat

/-- `tileXInsideRange`. -/
def tileXInsideRange (tileX tileCount xMin xMax : Int) : Bool :=
  Cyclic.insideRange tileX tileCount xMin xMax

/-- The arguments of a deletion. -/
structure TileRange where
  provider : String
  zoom : Int
  xMin : Int
  xMax : Int
  yMin : Int
  yMax : Int
deriving DecidableEq, Repr

/-- The range test `deleteTiles` makes on a parsed key. -/
def TileRange.contains (r : TileRange) (t : Tile) : Bool :=
  let boundedYMin := max 0 r.yMin
  let boundedYMax := min (tileCount r.zoom - 1) r.yMax
  t.provider == r.provider && t.zoom == r.zoom &&
    (boundedYMin ≤ t.y && t.y ≤ boundedYMax) &&
    tileXInsideRange t.x (tileCount r.zoom) r.xMin r.xMax

-- ============================================================== bytes

/-- Identity of a `TileHttpClient`: clients are numbered as they start.
-/
abbrev ClientId := Nat

/-- The download some bytes are the response body of. -/
structure Origin where
  client : ClientId
  tile : Tile
deriving DecidableEq, Repr

/-- A byte array and where it came from. -/
structure Blob where
  bytes : Bytes
  origin : Option Origin := none
deriving DecidableEq

/-- `QByteArray::isEmpty`. -/
def Blob.isEmpty (b : Blob) : Bool := b.bytes.isEmpty

/-- `QByteArray::size`. -/
def Blob.size (b : Blob) : Nat := b.bytes.length

/-- A tile file: its content, and whether it can be opened. -/
structure TileFile where
  blob : Blob
  readable : Bool := true
deriving DecidableEq

-- ============================================================ requests

inductive TileFailureReason
  | upstreamError | timeout | cancelled
deriving DecidableEq, Repr

inductive TileRequestStatus
  | ready | pending | invalidRequest | serverBusy
deriving DecidableEq, Repr

structure TileRequestResult where
  status : TileRequestStatus := .invalidRequest
  data : Blob := { bytes := [] }
deriving DecidableEq

/-- What the tile store emits for a response key. -/
inductive Signal
  | tileReady (key : String) (data : Blob)
  | tileFailed (key : String) (reason : TileFailureReason)
deriving DecidableEq

/-- The response key of a signal. -/
def Signal.key : Signal → String
  | .tileReady key _ => key
  | .tileFailed key _ => key

-- ===================================================== keys read back

/-- The key is a text with four places. -/
theorem canonicalTileKey_places (provider : String) (zoom x y : Int) :
    (canonicalTileKey provider zoom x y).toList
      = QString.fourPlaces '/' provider.toList zoom x y := by
  rw [canonicalTileKey, String.toList_ofList]
  rfl

/-- The id has a place marker that the chain of `arg` fills. -/
def fillsMarker (provider : String) : Bool :=
  (QString.lowestMarker provider.toList).any fun marker => marker ≤ 4

/-- The canonical name of a tile: its provider and its three numbers. -/
def Tile.text (t : Tile) : String :=
  String.ofList (t.provider.toList ++ '/' :: (QString.number t.zoom
    ++ '/' :: (QString.number t.x ++ '/' :: QString.number t.y)))

/-- The key the code builds is the canonical name, for ids of which it fills
no marker. -/
theorem Tile.key_eq_text {t : Tile} (h : fillsMarker t.provider = false) :
    t.key = t.text := by
  apply String.toList_inj.1
  rw [Tile.key, canonicalTileKey_places, Tile.text, String.toList_ofList]
  refine QString.fourPlaces_high QString.separator_slash _ _ _ ?_
  intro marker hmarker
  rw [fillsMarker, hmarker] at h
  exact Nat.lt_of_not_le (of_decide_eq_false h)

/-- An id without a percent sign has no place marker. -/
theorem fillsMarker_plain {provider : String} (h : '%' ∉ provider.toList) :
    fillsMarker provider = false := by
  rw [fillsMarker, QString.lowestMarker_plain h]
  rfl

/-- The key of a provider id without place markers, written out. -/
theorem canonicalTileKey_toList {provider : String}
    (h : '%' ∉ provider.toList) (zoom x y : Int) :
    (canonicalTileKey provider zoom x y).toList
      = provider.toList ++ '/' :: (QString.number zoom
        ++ '/' :: (QString.number x ++ '/' :: QString.number y)) := by
  have htext := Tile.key_eq_text (t := ⟨provider, zoom, x, y⟩)
    (fillsMarker_plain h)
  rw [Tile.key, Tile.text] at htext
  rw [htext, String.toList_ofList]

/-- Canonical names read back. -/
theorem parse_text {t : Tile} (hnonempty : t.provider ≠ "")
    (hslash : '/' ∉ t.provider.toList) (hz : QString.fitsInt t.zoom)
    (hx : QString.fitsInt t.x) (hy : QString.fitsInt t.y) :
    parseCanonicalTileKey t.text = some t := by
  have hnumber : ∀ n : Int, '/' ∉ QString.number n := by
    intro n hmem
    rcases QString.mem_number hmem with heq | hdigit
    · cases heq
    · cases hdigit
  have hsplit : t.text.toList.splitOn '/'
      = [t.provider.toList, QString.number t.zoom, QString.number t.x,
        QString.number t.y] := by
    rw [Tile.text, String.toList_ofList,
      List.splitOn_append_cons_self_of_not_mem hslash,
      List.splitOn_append_cons_self_of_not_mem (hnumber _),
      List.splitOn_append_cons_self_of_not_mem (hnumber _),
      List.splitOn_eq_singleton (hnumber _)]
  have hne : t.provider.toList ≠ [] := by
    intro hnil
    exact hnonempty (String.toList_inj.1 hnil)
  unfold parseCanonicalTileKey
  rw [hsplit]
  simp only [hne, if_false, QString.toInt_number hz,
    QString.toInt_number hx, QString.toInt_number hy, String.ofList_toList]

/-- The ids every stored provider catalogue holds: without a separator
and without place markers. -/
structure PlainId (provider : String) : Prop where
  nonempty : provider ≠ ""
  noSlash : '/' ∉ provider.toList
  noPercent : '%' ∉ provider.toList

/-- Keys of plain ids read back. -/
theorem parse_key {t : Tile} (h : PlainId t.provider)
    (hz : QString.fitsInt t.zoom) (hx : QString.fitsInt t.x)
    (hy : QString.fitsInt t.y) : parseCanonicalTileKey t.key = some t := by
  rw [Tile.key_eq_text (fillsMarker_plain h.noPercent)]
  exact parse_text h.nonempty h.noSlash hz hx hy

-- ============================================================== ranges

/-- The tiles a zoom has. -/
structure Tile.Valid (t : Tile) : Prop where
  zoom_nonneg : 0 ≤ t.zoom
  zoom_le : t.zoom ≤ 30
  x_nonneg : 0 ≤ t.x
  x_lt : t.x < tileCount t.zoom
  y_nonneg : 0 ≤ t.y
  y_lt : t.y < tileCount t.zoom

theorem tileCount_pos (zoom : Int) : 0 < tileCount zoom :=
  Int.pow_pos (by decide)

theorem tileCount_le {zoom : Int} (h : zoom ≤ 30) :
    tileCount zoom ≤ 2 ^ 30 := by
  unfold tileCount
  exact_mod_cast Nat.pow_le_pow_right (by decide) (by omega : zoom.toNat ≤ 30)

/-- `positiveModulo` is the remainder of the floored division. -/
theorem positiveModulo_eq (value : Int) {divisor : Int} (h : 0 < divisor) :
    positiveModulo value divisor = value % divisor :=
  Cyclic.positiveModulo_eq value h

theorem tileXInsideRange_eq (x count xMin xMax : Int) :
    tileXInsideRange x count xMin xMax
      = Cyclic.insideRange x count xMin xMax := rfl

/-- Tiles of a deletion's range: rows between its bounds, columns between
its bounds up to whole turns. -/
structure TileRange.Covers (r : TileRange) (t : Tile) : Prop where
  provider : t.provider = r.provider
  zoom : t.zoom = r.zoom
  rows : r.yMin ≤ t.y ∧ t.y ≤ r.yMax
  columns : ∃ k : Int, r.xMin ≤ t.x + k * tileCount r.zoom ∧
    t.x + k * tileCount r.zoom ≤ r.xMax

/-- The code's range test finds every tile of the range. -/
theorem TileRange.Covers.contains {r : TileRange} {t : Tile}
    (h : r.Covers t) (hvalid : t.Valid) : r.contains t = true := by
  obtain ⟨k, hmin, hmax⟩ := h.columns
  have hcolumns : tileXInsideRange t.x (tileCount r.zoom) r.xMin r.xMax
      = true := by
    rw [tileXInsideRange_eq, Cyclic.insideRange_iff (tileCount_pos r.zoom)]
    exact ⟨t.x + k * tileCount r.zoom, hmin, hmax,
      (Int.add_mul_emod_self_right t.x k _).symm⟩
  have hrows := h.rows
  have hy := hvalid.y_lt
  have hy0 := hvalid.y_nonneg
  rw [h.zoom] at hy
  unfold TileRange.contains
  simp only [h.provider, h.zoom, beq_self_eq_true, Bool.true_and, hcolumns,
    Bool.and_true, Bool.and_eq_true, decide_eq_true_eq]
  omega

/-- The numbers of a valid tile fit an `int`. -/
theorem Tile.Valid.fits {t : Tile} (h : t.Valid) :
    QString.fitsInt t.zoom ∧ QString.fitsInt t.x ∧ QString.fitsInt t.y := by
  have hcount := tileCount_le h.zoom_le
  have hx := h.x_lt
  have hy := h.y_lt
  have hx0 := h.x_nonneg
  have hy0 := h.y_nonneg
  have hz := h.zoom_le
  have hz0 := h.zoom_nonneg
  simp only [QString.fitsInt, Bool.and_eq_true, decide_eq_true_eq]
  omega

/-- Keys of valid tiles of plain ids read back. -/
theorem Tile.Valid.parse_key {t : Tile} (h : t.Valid)
    (hplain : PlainId t.provider) :
    parseCanonicalTileKey t.key = some t :=
  Maps.parse_key hplain h.fits.1 h.fits.2.1 h.fits.2.2

end AowisMap.Maps
