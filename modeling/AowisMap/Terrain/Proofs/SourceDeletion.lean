/-
`deleteSourceData` visits the source cells its range meets, where its
arithmetic stays inside an `int`.

# Two directions

A box that spans at most a turn has its cells visited, each row of cells
through all columns, if the columns and what the fold adds to them fit
(`cells_spec`). If they do not fit, some conversion or addition of the
walk is undefined (`columnsFit_of_cells`). The edges of a range are
degrees that grow with its columns, so a range far from column 0 need
not fit; the widest ones count from the west of the ring instead.
-/
import AowisMap.Terrain.SourceDeletion

namespace AowisMap.Terrain

open Lib
open Lib.CInt (Fits)

-- ============================================================ one column

/-- The column of cells an unwrapped one lies on. -/
def foldedWestDeg (unwrapped : Int) : Int := (unwrapped + 180) % 360 - 180

theorem foldedWestDeg_bounds (unwrapped : Int) :
    -180 ≤ foldedWestDeg unwrapped ∧ foldedWestDeg unwrapped ≤ 179 := by
  unfold foldedWestDeg
  omega

/-- A column of the ring is the fold of all that differ from it by whole
turns. -/
theorem eq_foldedWestDeg_iff {westDeg unwrapped : Int}
    (hlow : -180 ≤ westDeg) (hhigh : westDeg ≤ 179) :
    westDeg = foldedWestDeg unwrapped ↔ unwrapped % 360 = westDeg % 360 := by
  unfold foldedWestDeg
  omega

theorem wrappedWestDeg_eq {unwrapped : Int} (h : Fits (unwrapped + 180)) :
    wrappedWestDeg unwrapped = some (foldedWestDeg unwrapped) := by
  have hmodulo : (if (unwrapped + 180).tmod 360 < 0
      then (unwrapped + 180).tmod 360 + 360
      else (unwrapped + 180).tmod 360) = (unwrapped + 180) % 360 :=
    Cyclic.positiveModulo_eq (unwrapped + 180) (by decide)
  have hbounds := foldedWestDeg_bounds unwrapped
  unfold wrappedWestDeg
  rw [CInt.add_of_fits h]
  simp only [Option.bind_eq_bind, Option.bind_some]
  rw [hmodulo]
  refine CInt.sub_of_fits ?_
  unfold foldedWestDeg at hbounds
  unfold Fits
  omega

theorem fits_of_wrappedWestDeg {unwrapped westDeg : Int}
    (h : wrappedWestDeg unwrapped = some westDeg) : Fits (unwrapped + 180) := by
  unfold wrappedWestDeg at h
  obtain ⟨shifted, hadd, -⟩ := Option.bind_eq_some_iff.1 h
  exact (CInt.add_eq_some.1 hadd).1

-- ============================================================== one row

/-- The cells of a row between two columns. -/
structure InRow (southDeg first behind : Int)
    (cell : CopernicusSourceAddress) : Prop where
  row : cell.southDeg = southDeg
  column : ∃ unwrapped, (first ≤ unwrapped ∧ unwrapped < behind) ∧
    cell.westDeg = foldedWestDeg unwrapped

/-- The inner loop visits its row, if no column is too large to fold. -/
theorem visitColumns_spec (southDeg : Int) :
    ∀ (rounds : Nat) (first : Int), -2147483648 ≤ first →
      first + rounds + 179 ≤ 2147483647 →
      ∃ row, visitColumns southDeg rounds first = some row ∧
        ∀ cell, cell ∈ row ↔ InRow southDeg first (first + rounds) cell := by
  intro rounds
  induction rounds with
  | zero =>
    intro first _ _
    refine ⟨[], rfl, fun cell => ?_⟩
    constructor
    · intro hmem
      cases hmem
    · rintro ⟨-, unwrapped, hbounds, -⟩
      omega
  | succ rounds ih =>
    intro first hlow hhigh
    have hshifted : Fits (first + 180) := by
      unfold Fits
      omega
    have hnext : Fits (first + 1) := by
      unfold Fits
      omega
    obtain ⟨rest, hrest, hspec⟩ := ih (first + 1) (by omega) (by omega)
    refine ⟨⟨southDeg, foldedWestDeg first⟩ :: rest, ?_, fun cell => ?_⟩
    · unfold visitColumns
      rw [wrappedWestDeg_eq hshifted, CInt.add_of_fits hnext]
      simp only [Option.bind_eq_bind, Option.bind_some]
      rw [hrest]
      rfl
    · rw [List.mem_cons, hspec]
      constructor
      · rintro (rfl | ⟨hrow, unwrapped, hbounds, hfold⟩)
        · exact ⟨rfl, first, by omega, rfl⟩
        · exact ⟨hrow, unwrapped, by omega, hfold⟩
      · rintro ⟨hrow, unwrapped, hbounds, hfold⟩
        by_cases hfirst : unwrapped = first
        · left
          subst hfirst
          cases cell
          cases hrow
          cases hfold
          rfl
        · right
          exact ⟨hrow, unwrapped, by omega, hfold⟩

/-- The columns a loop got through can be folded. -/
theorem fits_of_visitColumns {southDeg : Int} :
    ∀ {rounds : Nat} {first : Int} {row : List CopernicusSourceAddress},
      visitColumns southDeg rounds first = some row →
      ∀ {unwrapped : Int}, first ≤ unwrapped → unwrapped < first + rounds →
        Fits (unwrapped + 180) := by
  intro rounds
  induction rounds with
  | zero =>
    intro first row _ unwrapped hle hlt
    omega
  | succ rounds ih =>
    intro first row h unwrapped hle hlt
    unfold visitColumns at h
    obtain ⟨westDeg, hwrapped, h⟩ := Option.bind_eq_some_iff.1 h
    obtain ⟨next, hnext, h⟩ := Option.bind_eq_some_iff.1 h
    obtain ⟨rest, hrest, -⟩ := Option.bind_eq_some_iff.1 h
    by_cases hfirst : unwrapped = first
    · subst hfirst
      exact fits_of_wrappedWestDeg hwrapped
    · obtain ⟨-, rfl⟩ := CInt.add_eq_some.1 hnext
      exact ih hrest (by omega) (by omega)

-- ============================================================== all rows

/-- The outer loop visits its rows, if each of them can be visited. -/
theorem visitRows_spec {westFirst westLast : Int}
    (hlow : -2147483648 ≤ westFirst) (hle : westFirst ≤ westLast + 1)
    (hhigh : westLast + 180 ≤ 2147483647) :
    ∀ (rounds : Nat) (first : Int), -90 ≤ first → first + rounds ≤ 90 →
      ∃ cells, visitRows westFirst westLast rounds first = some cells ∧
        ∀ cell, cell ∈ cells ↔
          ∃ southDeg, (first ≤ southDeg ∧ southDeg < first + rounds) ∧
            InRow southDeg westFirst (westLast + 1) cell := by
  intro rounds
  induction rounds with
  | zero =>
    intro first _ _
    refine ⟨[], rfl, fun cell => ?_⟩
    constructor
    · intro hmem
      cases hmem
    · rintro ⟨southDeg, hbounds, -⟩
      omega
  | succ rounds ih =>
    intro first hsouth hnorth
    have hcount : ((westLast - westFirst + 1).toNat : Int)
        = westLast - westFirst + 1 := Int.toNat_of_nonneg (by omega)
    obtain ⟨row, hrow, hrowSpec⟩ := visitColumns_spec first
      (westLast - westFirst + 1).toNat westFirst hlow (by omega)
    obtain ⟨rest, hrest, hspec⟩ := ih (first + 1) (by omega) (by omega)
    have hnext : Fits (first + 1) := by
      unfold Fits
      omega
    have hbehind : westFirst + ((westLast - westFirst + 1).toNat : Int)
        = westLast + 1 := by omega
    rw [hbehind] at hrowSpec
    refine ⟨row ++ rest, ?_, fun cell => ?_⟩
    · unfold visitRows
      rw [hrow, CInt.add_of_fits hnext]
      simp only [Option.bind_eq_bind, Option.bind_some]
      rw [hrest]
      rfl
    · rw [List.mem_append, hrowSpec, hspec]
      constructor
      · rintro (hin | ⟨southDeg, hbounds, hin⟩)
        · exact ⟨first, by omega, hin⟩
        · exact ⟨southDeg, by omega, hin⟩
      · rintro ⟨southDeg, hbounds, hin⟩
        by_cases hfirst : southDeg = first
        · left
          rwa [hfirst] at hin
        · right
          exact ⟨southDeg, by omega, hin⟩

/-- A walk over at least one row went through its columns. -/
theorem fits_of_visitRows {westFirst westLast first : Int} {rounds : Nat}
    {cells : List CopernicusSourceAddress} (hrounds : 0 < rounds)
    (h : visitRows westFirst westLast rounds first = some cells)
    (hle : westFirst ≤ westLast) : Fits (westLast + 180) := by
  cases rounds with
  | zero => omega
  | succ rounds =>
    unfold visitRows at h
    obtain ⟨row, hrow, -⟩ := Option.bind_eq_some_iff.1 h
    exact fits_of_visitColumns hrow hle (by omega)

-- ============================================================== one box

variable {K : Type*} [Field K] [LinearOrder K]

/-- The cell shares an interior point with the box, longitudes up to
whole turns. -/
structure TerrainGeographicBox.MeetsCell (box : TerrainGeographicBox K)
    (cell : CopernicusSourceAddress) : Prop where
  ring : -180 ≤ cell.westDeg ∧ cell.westDeg ≤ 179
  column : UnitCells.RingMeets 360 box.westDeg box.eastDeg cell.westDeg
  row : UnitCells.Meets box.southDeg box.northDeg cell.southDeg

/-- A box on the globe that spans at most a turn. -/
structure TerrainGeographicBox.OnGlobe (box : TerrainGeographicBox K) :
    Prop where
  width : box.westDeg < box.eastDeg
  turn : box.eastDeg ≤ box.westDeg + 360
  height : box.southDeg < box.northDeg
  south : -90 ≤ box.southDeg
  north : box.northDeg ≤ 90

/-- The columns of cells from the first to behind the last one can be
addressed: they fit, and so does the last one moved by half a turn,
unless the columns make up a turn. -/
def ColumnsFit (first behind : Int) : Prop :=
  -2147483648 ≤ first ∧ behind ≤ 2147483647 ∧
    (360 ≤ behind - first ∨ behind ≤ 2147483468)

instance (first behind : Int) : Decidable (ColumnsFit first behind) :=
  inferInstanceAs (Decidable (_ ∧ _ ∧ (_ ∨ _)))

variable [FloorRing K]

/-- The rows of cells of a box are on the globe. -/
theorem rows_of_onGlobe {box : TerrainGeographicBox K} (hbox : box.OnGlobe) :
    -90 ≤ ⌊box.southDeg⌋ ∧ ⌊box.southDeg⌋ < ⌈box.northDeg⌉ ∧
      ⌈box.northDeg⌉ ≤ 90 := by
  refine ⟨Int.le_floor.2 ?_, ?_, Int.ceil_le.2 ?_⟩
  · push_cast
    exact hbox.south
  · have hfloor : (⌊box.southDeg⌋ : K) < box.northDeg :=
      (Int.floor_le _).trans_lt hbox.height
    exact Int.lt_ceil.2 hfloor
  · push_cast
    exact hbox.north

variable [IsStrictOrderedRing K]

/-- The columns of cells of a box are at least one and at most two more
than the degrees it spans. -/
theorem columns_of_onGlobe {box : TerrainGeographicBox K}
    (hbox : box.OnGlobe) :
    ⌊box.westDeg⌋ < ⌈box.eastDeg⌉ ∧
      ⌈box.eastDeg⌉ ≤ ⌊box.westDeg⌋ + 361 := by
  constructor
  · have hfloor : (⌊box.westDeg⌋ : K) < box.eastDeg :=
      (Int.floor_le _).trans_lt hbox.width
    exact Int.lt_ceil.2 hfloor
  · refine Int.ceil_le.2 ?_
    have hfloor := Int.lt_floor_add_one box.westDeg
    have hturn := hbox.turn
    push_cast
    linarith

theorem westBounds_eq {westFirst westLast : Int}
    (hle : westFirst ≤ westLast) (hturn : westLast ≤ westFirst + 360) :
    westBounds westFirst westLast
      = some (if westLast - westFirst + 1 ≥ 360 then (-180, 179)
          else (westFirst, westLast)) := by
  have hsub : Fits (westLast - westFirst) := by
    unfold Fits
    omega
  have hadd : Fits (westLast - westFirst + 1) := by
    unfold Fits
    omega
  unfold westBounds
  rw [CInt.sub_of_fits hsub]
  simp only [Option.bind_eq_bind, Option.bind_some]
  rw [CInt.add_of_fits hadd]
  rfl

/-- The rows the walk goes through. -/
theorem clampSouth_eq {southDeg : Int} (hlow : -90 ≤ southDeg)
    (hhigh : southDeg ≤ 89) : clampSouth southDeg = southDeg := by
  unfold clampSouth
  omega

/-- The columns between the bounds fold to those the box meets. -/
theorem ring_iff {box : TerrainGeographicBox K} (hbox : box.OnGlobe)
    {cell : CopernicusSourceAddress} :
    ((-180 ≤ cell.westDeg ∧ cell.westDeg ≤ 179) ∧
      UnitCells.RingMeets 360 box.westDeg box.eastDeg cell.westDeg) ↔
    ∃ unwrapped, (⌊box.westDeg⌋ ≤ unwrapped ∧ unwrapped < ⌈box.eastDeg⌉) ∧
      cell.westDeg = foldedWestDeg unwrapped := by
  rw [UnitCells.ringMeets_iff hbox.width]
  constructor
  · rintro ⟨hring, unwrapped, hbounds, hmod⟩
    exact ⟨unwrapped, hbounds,
      (eq_foldedWestDeg_iff hring.1 hring.2).2 hmod⟩
  · rintro ⟨unwrapped, hbounds, hfold⟩
    have hring := foldedWestDeg_bounds unwrapped
    rw [← hfold] at hring
    exact ⟨hring, unwrapped, hbounds,
      (eq_foldedWestDeg_iff hring.1 hring.2).1 hfold⟩

/-- The values the walk has before its loops. -/
structure TerrainGeographicBox.BoundsFit (box : TerrainGeographicBox K) :
    Prop where
  south : Fits ⌊box.southDeg⌋
  north : Fits ⌈box.northDeg⌉
  northLast : Fits (⌈box.northDeg⌉ - 1)
  west : Fits ⌊box.westDeg⌋
  east : Fits ⌈box.eastDeg⌉
  eastLast : Fits (⌈box.eastDeg⌉ - 1)

theorem boundsFit_of_columnsFit {box : TerrainGeographicBox K}
    (hbox : box.OnGlobe)
    (hfit : ColumnsFit ⌊box.westDeg⌋ ⌈box.eastDeg⌉) : box.BoundsFit := by
  obtain ⟨hsouth, hrows, hnorth⟩ := rows_of_onGlobe hbox
  obtain ⟨hcolumns, -⟩ := columns_of_onGlobe hbox
  obtain ⟨hlow, hhigh, -⟩ := hfit
  constructor
  all_goals
    unfold Fits
    omega

/-- The cells of a box whose columns fit. -/
theorem cells_spec {box : TerrainGeographicBox K} (hbox : box.OnGlobe)
    (hfit : ColumnsFit ⌊box.westDeg⌋ ⌈box.eastDeg⌉) :
    ∃ cells, box.cells = some cells ∧
      ∀ cell, cell ∈ cells ↔ box.MeetsCell cell := by
  obtain ⟨hsouth, hrows, hnorth⟩ := rows_of_onGlobe hbox
  obtain ⟨hcolumns, hturn⟩ := columns_of_onGlobe hbox
  have hfits := boundsFit_of_columnsFit hbox hfit
  obtain ⟨hlow, hhigh, hfold⟩ := hfit
  have hbounds : westBounds ⌊box.westDeg⌋ (⌈box.eastDeg⌉ - 1) = _ :=
    westBounds_eq (by omega) (by omega)
  -- Either way the walk gets bounds that fold to the columns of the box.
  obtain ⟨first, last, hpair, hle, hfirst, hlast, hcover⟩ :
      ∃ first last, westBounds ⌊box.westDeg⌋ (⌈box.eastDeg⌉ - 1)
          = some (first, last) ∧ first ≤ last + 1 ∧
        -2147483648 ≤ first ∧ last + 180 ≤ 2147483647 ∧
        ∀ westDeg, (∃ unwrapped, (first ≤ unwrapped ∧ unwrapped < last + 1) ∧
            westDeg = foldedWestDeg unwrapped) ↔
          ∃ unwrapped, (⌊box.westDeg⌋ ≤ unwrapped ∧
            unwrapped < ⌈box.eastDeg⌉) ∧ westDeg = foldedWestDeg unwrapped := by
    by_cases hwide : ⌈box.eastDeg⌉ - 1 - ⌊box.westDeg⌋ + 1 ≥ 360
    · rw [if_pos hwide] at hbounds
      refine ⟨-180, 179, hbounds, by omega, by omega, by omega, ?_⟩
      intro westDeg
      constructor
      · rintro ⟨unwrapped, -, rfl⟩
        -- The copy of the column in the first turn from the west edge.
        refine ⟨⌊box.westDeg⌋ + (unwrapped - ⌊box.westDeg⌋) % 360, by omega, ?_⟩
        unfold foldedWestDeg
        omega
      · rintro ⟨unwrapped, -, rfl⟩
        have hring := foldedWestDeg_bounds unwrapped
        refine ⟨foldedWestDeg unwrapped, by omega, ?_⟩
        unfold foldedWestDeg
        omega
    · rw [if_neg hwide] at hbounds
      refine ⟨⌊box.westDeg⌋, ⌈box.eastDeg⌉ - 1, hbounds, by omega, hlow,
        by omega, fun westDeg => ?_⟩
      rw [Int.sub_add_cancel]
  obtain ⟨cells, hcells, hspec⟩ := visitRows_spec hfirst hle hlast
    (⌈box.northDeg⌉ - 1 - ⌊box.southDeg⌋ + 1).toNat ⌊box.southDeg⌋ hsouth
    (by omega)
  refine ⟨cells, ?_, fun cell => ?_⟩
  · unfold TerrainGeographicBox.cells
    rw [CInt.ofInt_of_fits hfits.south, CInt.ofInt_of_fits hfits.north,
      CInt.ofInt_of_fits hfits.west, CInt.ofInt_of_fits hfits.east]
    simp only [Option.bind_eq_bind, Option.bind_some]
    rw [CInt.sub_of_fits hfits.northLast, CInt.sub_of_fits hfits.eastLast]
    simp only [Option.bind_some]
    rw [hpair, clampSouth_eq hsouth (by omega),
      clampSouth_eq (by omega : -90 ≤ ⌈box.northDeg⌉ - 1) (by omega)]
    exact hcells
  · rw [hspec]
    constructor
    · rintro ⟨southDeg, hin, hrow, hcolumn⟩
      obtain ⟨hring, hmeets⟩ := (ring_iff hbox).2 ((hcover _).1 hcolumn)
      refine ⟨hring, hmeets, (UnitCells.meets_iff hbox.height).2 ?_⟩
      omega
    · rintro ⟨hring, hmeets, hrow⟩
      have hrow := (UnitCells.meets_iff hbox.height).1 hrow
      exact ⟨cell.southDeg, by omega, rfl,
        (hcover _).2 ((ring_iff hbox).1 ⟨hring, hmeets⟩)⟩

/-- A walk that is defined has columns that fit. -/
theorem columnsFit_of_cells {box : TerrainGeographicBox K}
    (hbox : box.OnGlobe) {cells : List CopernicusSourceAddress}
    (h : box.cells = some cells) :
    ColumnsFit ⌊box.westDeg⌋ ⌈box.eastDeg⌉ := by
  obtain ⟨hsouth, hrows, hnorth⟩ := rows_of_onGlobe hbox
  obtain ⟨hcolumns, hturn⟩ := columns_of_onGlobe hbox
  unfold TerrainGeographicBox.cells at h
  obtain ⟨south, hfloorSouth, h⟩ := Option.bind_eq_some_iff.1 h
  obtain ⟨north, hceilNorth, h⟩ := Option.bind_eq_some_iff.1 h
  obtain ⟨southLast, hsouthLast, h⟩ := Option.bind_eq_some_iff.1 h
  obtain ⟨west, hfloorWest, h⟩ := Option.bind_eq_some_iff.1 h
  obtain ⟨east, hceilEast, h⟩ := Option.bind_eq_some_iff.1 h
  obtain ⟨westLast, hwestLast, h⟩ := Option.bind_eq_some_iff.1 h
  obtain ⟨bounds, hbounds, h⟩ := Option.bind_eq_some_iff.1 h
  obtain ⟨-, rfl⟩ := CInt.ofInt_eq_some.1 hfloorSouth
  obtain ⟨-, rfl⟩ := CInt.ofInt_eq_some.1 hceilNorth
  obtain ⟨-, rfl⟩ := CInt.sub_eq_some.1 hsouthLast
  obtain ⟨hwestFits, rfl⟩ := CInt.ofInt_eq_some.1 hfloorWest
  obtain ⟨heastFits, rfl⟩ := CInt.ofInt_eq_some.1 hceilEast
  obtain ⟨-, rfl⟩ := CInt.sub_eq_some.1 hwestLast
  refine ⟨hwestFits.1, heastFits.2, ?_⟩
  by_cases hwide : ⌈box.eastDeg⌉ - 1 - ⌊box.westDeg⌋ + 1 ≥ 360
  · left
    omega
  · right
    rw [westBounds_eq (by omega) (by omega), if_neg hwide] at hbounds
    cases hbounds
    rw [clampSouth_eq hsouth (by omega),
      clampSouth_eq (by omega : -90 ≤ ⌈box.northDeg⌉ - 1) (by omega)] at h
    have hfits := fits_of_visitRows (by omega) h (by omega)
    have hhigh := hfits.2
    omega

-- ============================================================ one range

variable {latitude : K → K → K} {range : TerrainRange}

/-- The edges of a range, unwrapped. -/
def TerrainRange.westEdge (range : TerrainRange) : K :=
  (range.xMin : K) / (tileCount range.zoom : K) * 360 - 180

def TerrainRange.eastEdge (range : TerrainRange) : K :=
  ((range.xMax + 1 : Int) : K) / (tileCount range.zoom : K) * 360 - 180

/-- The cell shares an interior point with a tile of the range: with the
stretch of its columns, up to whole turns, and with the stretch of its
rows inside the zoom. -/
structure TerrainRange.MeetsCell (latitude : K → K → K)
    (range : TerrainRange) (cell : CopernicusSourceAddress) : Prop where
  ring : -180 ≤ cell.westDeg ∧ cell.westDeg ≤ 179
  column : UnitCells.RingMeets 360 (range.westEdge : K) range.eastEdge
    cell.westDeg
  row : UnitCells.Meets
    (latitude (min (tileCount range.zoom - 1) range.yMax + 1 : Int)
      (tileCount range.zoom))
    (latitude (max 0 range.yMin : Int) (tileCount range.zoom)) cell.southDeg

/-- The first column of cells of a range and the one behind its last. -/
def TerrainRange.firstColumn (range : TerrainRange) : Int :=
  360 * range.xMin / tileCount range.zoom - 180

def TerrainRange.behindColumn (range : TerrainRange) : Int :=
  -(-(360 * (range.xMax + 1)) / tileCount range.zoom) - 180

/-- A range without rows, one of a whole turn, or one whose columns of
cells can be addressed. -/
def TerrainRange.Addressable (range : TerrainRange) : Prop :=
  min (tileCount range.zoom - 1) range.yMax < max 0 range.yMin ∨
    tileCount range.zoom ≤ range.xMax - range.xMin + 1 ∨
    ColumnsFit range.firstColumn range.behindColumn

instance (range : TerrainRange) : Decidable range.Addressable :=
  inferInstanceAs (Decidable (_ ∨ _ ∨ _))

/-- What the walk uses of the latitudes of rows. -/
structure RowLatitudes (latitude : K → K → K) : Prop where
  decreasing : ∀ {y y' count : K}, 0 < count → y < y' →
    latitude y' count < latitude y count
  south : ∀ y count, -90 ≤ latitude y count
  north : ∀ y count, latitude y count ≤ 90

theorem floor_westEdge : ⌊(range.westEdge : K)⌋ = range.firstColumn := by
  have hcount : (0 : Int) ≤ tileCount range.zoom := (tileCount_pos _).le
  have hedge : (range.westEdge : K)
      = ((360 * range.xMin : Int) : K) / (tileCount range.zoom : K)
        - (180 : Int) := by
    unfold TerrainRange.westEdge
    push_cast
    ring
  rw [hedge, Int.floor_sub_intCast, Int.floor_div_cast_of_nonneg hcount,
    Int.floor_intCast]
  rfl

theorem ceil_eastEdge : ⌈(range.eastEdge : K)⌉ = range.behindColumn := by
  have hcount : (0 : Int) ≤ tileCount range.zoom := (tileCount_pos _).le
  have hedge : (range.eastEdge : K)
      = -(((-(360 * (range.xMax + 1)) : Int) : K) / (tileCount range.zoom : K))
        - (180 : Int) := by
    unfold TerrainRange.eastEdge
    push_cast
    ring
  rw [hedge, Int.ceil_sub_intCast, Int.ceil_neg,
    Int.floor_div_cast_of_nonneg hcount, Int.floor_intCast]
  rfl

omit [LinearOrder K] [FloorRing K] [IsStrictOrderedRing K] in
/-- The edges lie as far apart as the columns make it. -/
theorem eastEdge_sub_westEdge :
    (range.eastEdge : K) - range.westEdge
      = ((range.xMax - range.xMin + 1 : Int) : K)
        / (tileCount range.zoom : K) * 360 := by
  unfold TerrainRange.eastEdge TerrainRange.westEdge
  push_cast
  ring

theorem tileCount_cast_pos (zoom : Int) : (0 : K) < (tileCount zoom : K) := by
  exact_mod_cast tileCount_pos zoom

theorem westEdge_lt_eastEdge (hle : range.xMin ≤ range.xMax) :
    (range.westEdge : K) < range.eastEdge := by
  have hwidth : (0 : K) < ((range.xMax - range.xMin + 1 : Int) : K) := by
    exact_mod_cast (by omega : (0 : Int) < range.xMax - range.xMin + 1)
  have hpos := mul_pos (div_pos hwidth (tileCount_cast_pos range.zoom))
    (by norm_num : (0 : K) < 360)
  rw [← eastEdge_sub_westEdge] at hpos
  linarith

theorem floor_west : ⌊(-180 : K)⌋ = -180 := by
  exact_mod_cast Int.floor_intCast (R := K) (-180)

theorem ceil_east : ⌈(180 : K)⌉ = 180 := by
  exact_mod_cast Int.ceil_intCast (R := K) 180

/-- A range of a whole turn meets every column of the ring. -/
theorem ringMeets_of_wide (hle : range.xMin ≤ range.xMax)
    (hwide : tileCount range.zoom ≤ range.xMax - range.xMin + 1)
    (westDeg : Int) :
    UnitCells.RingMeets 360 (range.westEdge : K) range.eastEdge westDeg := by
  have hratio : (1 : K) ≤ ((range.xMax - range.xMin + 1 : Int) : K)
      / (tileCount range.zoom : K) := by
    rw [one_le_div (tileCount_cast_pos range.zoom)]
    exact_mod_cast hwide
  have hturn : (360 : K) ≤ range.eastEdge - range.westEdge := by
    rw [eastEdge_sub_westEdge]
    linarith
  have hcolumns : ((⌊(range.westEdge : K)⌋ + 360 : Int) : K)
      ≤ ((⌈(range.eastEdge : K)⌉ : Int) : K) := by
    have hfloor := Int.floor_le (range.westEdge : K)
    have hceil := Int.le_ceil (range.eastEdge : K)
    push_cast
    linarith
  refine UnitCells.ringMeets_of_turn (by decide) (westEdge_lt_eastEdge hle) ?_
    westDeg
  exact_mod_cast hcolumns

/-- The box of a range with rows, and the cells it meets. -/
theorem sourceBox_spec (hlatitude : RowLatitudes latitude)
    (hle : range.xMin ≤ range.xMax)
    (hrows : max 0 range.yMin ≤ min (tileCount range.zoom - 1) range.yMax) :
    ∃ box, range.sourceBox latitude = some box ∧ box.OnGlobe ∧
      (∀ cell, box.MeetsCell cell ↔ range.MeetsCell latitude cell) ∧
      (ColumnsFit ⌊box.westDeg⌋ ⌈box.eastDeg⌉ ↔
        tileCount range.zoom ≤ range.xMax - range.xMin + 1 ∨
          ColumnsFit range.firstColumn range.behindColumn) := by
  have hcount : (0 : K) < (tileCount range.zoom : K) := tileCount_cast_pos _
  have hedges : (range.westEdge : K) < range.eastEdge := westEdge_lt_eastEdge hle
  have hspan : (range.eastEdge : K) - range.westEdge = _ := eastEdge_sub_westEdge
  have hheight : latitude
      (min (tileCount range.zoom - 1) range.yMax + 1 : Int)
      (tileCount range.zoom)
      < latitude (max 0 range.yMin : Int) (tileCount range.zoom) := by
    refine hlatitude.decreasing hcount ?_
    exact_mod_cast (by omega : max 0 range.yMin
      < min (tileCount range.zoom - 1) range.yMax + 1)
  by_cases hwide : range.xMax - range.xMin + 1 ≥ tileCount range.zoom
  · refine ⟨⟨-180, 180, _, _⟩, ?_, ⟨by norm_num, by norm_num, hheight,
      hlatitude.south _ _, hlatitude.north _ _⟩, fun cell => ?_, ?_⟩
    · unfold TerrainRange.sourceBox
      rw [if_neg (by omega)]
      simp only [if_pos hwide]
    · constructor
      · rintro ⟨hring, -, hrow⟩
        exact ⟨hring, ringMeets_of_wide hle hwide _, hrow⟩
      · rintro ⟨hring, -, hrow⟩
        refine ⟨hring, UnitCells.ringMeets_of_turn (by decide) (by norm_num) ?_
          _, hrow⟩
        rw [floor_west, ceil_east]
        decide
    · rw [floor_west, ceil_east]
      unfold ColumnsFit
      omega
  · refine ⟨⟨range.westEdge, range.eastEdge, _, _⟩, ?_, ⟨hedges, ?_, hheight,
      hlatitude.south _ _, hlatitude.north _ _⟩, fun cell => ?_, ?_⟩
    · unfold TerrainRange.sourceBox
      rw [if_neg (by omega)]
      simp only [if_neg hwide]
      rfl
    · have hratio : ((range.xMax - range.xMin + 1 : Int) : K)
          / (tileCount range.zoom : K) ≤ 1 := by
        rw [div_le_one hcount]
        exact_mod_cast (by omega :
          range.xMax - range.xMin + 1 ≤ tileCount range.zoom)
      linarith
    · constructor
      · rintro ⟨hring, hcolumn, hrow⟩
        exact ⟨hring, hcolumn, hrow⟩
      · rintro ⟨hring, hcolumn, hrow⟩
        exact ⟨hring, hcolumn, hrow⟩
    · rw [floor_westEdge, ceil_eastEdge]
      constructor
      · exact Or.inr
      · rintro (hturn | hfit)
        · omega
        · exact hfit

/-- A range whose walk is defined has its cells visited. -/
theorem sourceCells_spec (hlatitude : RowLatitudes latitude)
    (hle : range.xMin ≤ range.xMax) (haddressable : range.Addressable) :
    ∃ cells, range.sourceCells latitude = some cells ∧
      ∀ cell, cell ∈ cells ↔ range.MeetsCell latitude cell := by
  by_cases hrows : max 0 range.yMin ≤ min (tileCount range.zoom - 1) range.yMax
  · obtain ⟨box, hbox, hglobe, hmeets, hfit⟩ :=
      sourceBox_spec hlatitude hle hrows
    have hcolumns := hfit.2 (haddressable.resolve_left (by omega))
    obtain ⟨cells, hcells, hspec⟩ := cells_spec hglobe hcolumns
    refine ⟨cells, ?_, fun cell => (hspec cell).trans (hmeets cell)⟩
    unfold TerrainRange.sourceCells
    rw [hbox]
    exact hcells
  · refine ⟨[], ?_, fun cell => ?_⟩
    · unfold TerrainRange.sourceCells TerrainRange.sourceBox
      rw [if_pos (by omega)]
    · constructor
      · intro hmem
        cases hmem
      · rintro ⟨-, -, hrow⟩
        -- The rows end north of where they start.
        have hnorth : latitude (max 0 range.yMin : Int) (tileCount range.zoom)
            ≤ latitude (min (tileCount range.zoom - 1) range.yMax + 1 : Int)
              (tileCount range.zoom) := by
          have hcast : ((min (tileCount range.zoom - 1) range.yMax + 1 : Int) : K)
              ≤ ((max 0 range.yMin : Int) : K) := by
            exact_mod_cast (by omega :
              min (tileCount range.zoom - 1) range.yMax + 1 ≤ max 0 range.yMin)
          rcases hcast.lt_or_eq with hlt | heq
          · exact (hlatitude.decreasing (tileCount_cast_pos _) hlt).le
          · rw [heq]
        exact absurd hrow (UnitCells.not_meets_of_le hnorth _)

/-- A range without undefined operations is one that can be addressed. -/
theorem addressable_of_sourceCells (hlatitude : RowLatitudes latitude)
    (hle : range.xMin ≤ range.xMax) {cells : List CopernicusSourceAddress}
    (h : range.sourceCells latitude = some cells) : range.Addressable := by
  by_cases hrows : max 0 range.yMin ≤ min (tileCount range.zoom - 1) range.yMax
  · obtain ⟨box, hbox, hglobe, -, hfit⟩ := sourceBox_spec hlatitude hle hrows
    unfold TerrainRange.sourceCells at h
    rw [hbox] at h
    exact Or.inr (hfit.1 (columnsFit_of_cells hglobe h))
  · left
    omega

-- ================================================================ shifts

/-- Whole turns of a range meet the same cells. -/
theorem shifted_meetsCell (turns : Int) (cell : CopernicusSourceAddress) :
    (range.shifted turns).MeetsCell latitude cell
      ↔ range.MeetsCell latitude cell := by
  have hcount : (tileCount range.zoom : K) ≠ 0 := (tileCount_cast_pos _).ne'
  have hwest : ((range.shifted turns).westEdge : K)
      = range.westEdge + ((360 * turns : Int) : K) := by
    unfold TerrainRange.westEdge TerrainRange.shifted
    push_cast
    field_simp
    ring
  have heast : ((range.shifted turns).eastEdge : K)
      = range.eastEdge + ((360 * turns : Int) : K) := by
    unfold TerrainRange.eastEdge TerrainRange.shifted
    push_cast
    field_simp
    ring
  constructor
  · rintro ⟨hring, hcolumn, hrow⟩
    rw [hwest, heast, UnitCells.ringMeets_add] at hcolumn
    exact ⟨hring, hcolumn, hrow⟩
  · rintro ⟨hring, hcolumn, hrow⟩
    refine ⟨hring, ?_, hrow⟩
    rw [hwest, heast, UnitCells.ringMeets_add]
    exact hcolumn

-- ======================================================== the real rows

/-- The latitudes of rows fall from pole to pole. -/
theorem rowLatitudes_tileYToLatitudeDeg :
    RowLatitudes tileYToLatitudeDeg where
  decreasing := by
    intro y y' count hcount hlt
    unfold tileYToLatitudeDeg
    have hratio : 2 * y / count < 2 * y' / count := by
      rw [div_lt_div_iff_of_pos_right hcount]
      linarith
    have harg : Real.pi * (1 - 2 * y' / count)
        < Real.pi * (1 - 2 * y / count) :=
      mul_lt_mul_of_pos_left (by linarith) Real.pi_pos
    have harctan := Real.arctan_strictMono (Real.sinh_strictMono harg)
    rw [div_lt_div_iff_of_pos_right Real.pi_pos]
    linarith
  south := by
    intro y count
    unfold tileYToLatitudeDeg
    rw [le_div_iff₀ Real.pi_pos]
    have harctan := Real.neg_pi_div_two_lt_arctan
      (Real.sinh (Real.pi * (1 - 2 * y / count)))
    linarith
  north := by
    intro y count
    unfold tileYToLatitudeDeg
    rw [div_le_iff₀ Real.pi_pos]
    have harctan := Real.arctan_lt_pi_div_two
      (Real.sinh (Real.pi * (1 - 2 * y / count)))
    linarith

/-- The bounds of a range that is not rejected. -/
theorem le_of_accepted {config : TileStore.Config}
    (h : rejectCacheDeletion config range = none) :
    range.xMin ≤ range.xMax := by
  unfold rejectCacheDeletion at h
  by_cases hrange : range.zoom < 0 ∨ range.zoom > terrainTileMaximumZoom ∨
      range.xMin > range.xMax ∨ range.yMin > range.yMax
  · rw [if_pos hrange] at h
    split_ifs at h
  · omega

-- ============================================================= the store

theorem deleteSourceCell_unavailable (directory : String)
    (fate : CopernicusSourceAddress → SourceFileFate)
    (r : TerrainSourceDeletionResult × SourceStore)
    (cell address : CopernicusSourceAddress) :
    (deleteSourceCell directory fate r cell).2.unavailableSourceUntil.lookup
        address
      = if address = cell then none
        else r.2.unavailableSourceUntil.lookup address := by
  have hrecord :
      (deleteSourceCell directory fate r cell).2.unavailableSourceUntil
        = r.2.unavailableSourceUntil.erase cell := by
    unfold deleteSourceCell
    dsimp only
    by_cases hfile : (r.2.files.lookup cell).isNone = true
    · rw [if_pos hfile]
    · rw [if_neg hfile]
      cases fate cell with
      | locked => rfl
      | removed => rfl
      | refused => rfl
  rw [hrecord]
  by_cases hcell : address = cell
  · rw [if_pos hcell, hcell]
    exact AList.lookup_erase _ _
  · rw [if_neg hcell]
    exact AList.lookup_erase_ne hcell

theorem deleteSourceCell_files (directory : String)
    (fate : CopernicusSourceAddress → SourceFileFate)
    (r : TerrainSourceDeletionResult × SourceStore)
    (cell address : CopernicusSourceAddress) :
    (deleteSourceCell directory fate r cell).2.files.lookup address
      = if address = cell ∧ fate cell = .removed then none
        else r.2.files.lookup address := by
  unfold deleteSourceCell
  dsimp only
  by_cases hfile : (r.2.files.lookup cell).isNone = true
  · rw [if_pos hfile]
    by_cases hcell : address = cell ∧ fate cell = .removed
    · rw [if_pos hcell, hcell.1]
      exact Option.isNone_iff_eq_none.1 hfile
    · rw [if_neg hcell]
  · rw [if_neg hfile]
    cases hfate : fate cell with
    | locked => exact (if_neg (fun h => by cases h.2)).symm
    | refused => exact (if_neg (fun h => by cases h.2)).symm
    | removed =>
      by_cases hcell : address = cell
      · subst hcell
        exact (AList.lookup_erase _ _).trans (if_pos ⟨rfl, rfl⟩).symm
      · exact (AList.lookup_erase_ne hcell).trans
          (if_neg (fun h => hcell h.1)).symm

/-- What the loops leave: a cell they visit is no longer unavailable, and
its file goes unless someone holds its lock or the system refuses. -/
theorem foldl_deleteSourceCell_store (directory : String)
    (fate : CopernicusSourceAddress → SourceFileFate)
    (cells : List CopernicusSourceAddress) :
    ∀ (r : TerrainSourceDeletionResult × SourceStore)
      (address : CopernicusSourceAddress),
      (cells.foldl (deleteSourceCell directory fate)
          r).2.unavailableSourceUntil.lookup address
          = (if address ∈ cells then none
            else r.2.unavailableSourceUntil.lookup address) ∧
        (cells.foldl (deleteSourceCell directory fate)
          r).2.files.lookup address
          = if address ∈ cells ∧ fate address = .removed then none
            else r.2.files.lookup address := by
  induction cells with
  | nil =>
    intro r address
    refine ⟨rfl, ?_⟩
    rw [if_neg]
    · rfl
    · rintro ⟨hmem, -⟩
      cases hmem
  | cons cell cells ih =>
    intro r address
    obtain ⟨hrecord, hfile⟩ := ih (deleteSourceCell directory fate r cell) address
    rw [List.foldl_cons, hrecord, hfile, deleteSourceCell_unavailable,
      deleteSourceCell_files]
    constructor
    · by_cases hcell : address = cell
      · subst hcell
        simp
      · simp [hcell]
    · by_cases hcell : address = cell
      · subst hcell
        by_cases hfate : fate address = .removed
        · simp [hfate]
        · simp [hfate]
      · simp [hcell]

/-- A deletion the provider gets goes through the visited cells. -/
theorem deleteSourceData_eq {config : TileStore.Config} {directory : String}
    (fate : CopernicusSourceAddress → SourceFileFate) (store : SourceStore)
    (hlatitude : RowLatitudes latitude)
    (haccepted : rejectCacheDeletion config range = none)
    (hprovider : config.copernicusEnabled = true)
    (hdataset : TileStore.Copernicus.supportsDataset range.dataset = true)
    (hdirectory : QString.trimmed directory.toList ≠ []) :
    (deleteSourceData latitude config directory range fate store).map
        Prod.snd
      = (range.sourceCells latitude).map fun cells =>
          (cells.foldl (deleteSourceCell directory fate) ({}, store)).2 := by
  unfold deleteSourceData TerrainRange.sourceCells
  rw [haccepted]
  dsimp only
  by_cases hrows : max 0 range.yMin ≤ min (tileCount range.zoom - 1) range.yMax
  · obtain ⟨box, hbox, hglobe, -, -⟩ :=
      sourceBox_spec hlatitude (le_of_accepted haccepted) hrows
    have hvalid : ¬ (box.eastDeg ≤ box.westDeg ∨ box.northDeg ≤ box.southDeg ∨
        QString.trimmed directory.toList = []) := by
      rintro (hwest | hsouth | hblank)
      · exact absurd hglobe.width (not_lt.2 hwest)
      · exact absurd hglobe.height (not_lt.2 hsouth)
      · exact hdirectory hblank
    rw [hbox]
    dsimp only
    rw [if_pos ⟨hprovider, hdataset⟩]
    unfold Copernicus.deleteSourceData
    rw [if_neg (by rw [hdataset]; simp), if_neg hvalid]
    cases box.cells with
    | none => rfl
    | some cells => rfl
  · have hnone : range.sourceBox latitude = none := by
      unfold TerrainRange.sourceBox
      rw [if_pos (by omega)]
    rw [hnone]
    rfl

/-- What a deletion leaves of the source cells: those its range meets are
asked for again, and their files go unless someone holds their lock or
the system refuses. All others stay. -/
theorem deleteSourceData_store {config : TileStore.Config}
    {directory : String} (fate : CopernicusSourceAddress → SourceFileFate)
    (store : SourceStore)
    (haccepted : rejectCacheDeletion config range = none)
    (hprovider : config.copernicusEnabled = true)
    (hdataset : TileStore.Copernicus.supportsDataset range.dataset = true)
    (hdirectory : QString.trimmed directory.toList ≠ [])
    (haddressable : range.Addressable) :
    ∃ result store', deleteSourceData tileYToLatitudeDeg config directory range
        fate store = some (result, store') ∧
      ∀ address,
        (range.MeetsCell tileYToLatitudeDeg address →
          store'.unavailableSourceUntil.lookup address = none ∧
          (fate address = .removed → store'.files.lookup address = none)) ∧
        (¬ range.MeetsCell tileYToLatitudeDeg address →
          store'.unavailableSourceUntil.lookup address
              = store.unavailableSourceUntil.lookup address ∧
            store'.files.lookup address = store.files.lookup address) ∧
        (fate address ≠ .removed →
          store'.files.lookup address = store.files.lookup address) := by
  obtain ⟨cells, hcells, hspec⟩ := sourceCells_spec
    rowLatitudes_tileYToLatitudeDeg (le_of_accepted haccepted) haddressable
  have hrun := deleteSourceData_eq fate store rowLatitudes_tileYToLatitudeDeg
    haccepted hprovider hdataset hdirectory
  rw [hcells, Option.map_some] at hrun
  obtain ⟨⟨result, store'⟩, hresult, hstore⟩ := Option.map_eq_some_iff.1 hrun
  refine ⟨result, store', hresult, fun address => ?_⟩
  obtain ⟨hrecord, hfile⟩ :=
    foldl_deleteSourceCell_store directory fate cells ({}, store) address
  dsimp only at hstore
  rw [← hstore] at hrecord hfile
  have hmem := hspec address
  refine ⟨fun hmeets => ?_, fun hmeets => ?_, fun hfate => ?_⟩
  · rw [hrecord, hfile, if_pos (hmem.2 hmeets)]
    exact ⟨rfl, fun hfate => if_pos ⟨hmem.2 hmeets, hfate⟩⟩
  · rw [hrecord, hfile, if_neg (fun h => hmeets (hmem.1 h)),
      if_neg (fun h => hmeets (hmem.1 h.1))]
    exact ⟨rfl, rfl⟩
  · rw [hfile, if_neg (fun h => hfate h.2)]

-- =============================================================== results

/-- The deletion of a range uses no undefined operation, visits exactly
the cells the range meets, and visits those wherever the range is moved by
whole turns, exactly if the range can be addressed. -/
theorem sourceCells_iff (config : TileStore.Config) (range : TerrainRange)
    (haccepted : rejectCacheDeletion config range = none) :
    (∃ cells, range.sourceCells tileYToLatitudeDeg = some cells ∧
      (∀ cell, cell ∈ cells ↔ range.MeetsCell tileYToLatitudeDeg cell) ∧
      ∀ turns cells', (range.shifted turns).sourceCells tileYToLatitudeDeg
          = some cells' → ∀ cell, cell ∈ cells' ↔ cell ∈ cells)
      ↔ range.Addressable := by
  have hle := le_of_accepted haccepted
  constructor
  · rintro ⟨cells, hcells, -, -⟩
    exact addressable_of_sourceCells rowLatitudes_tileYToLatitudeDeg hle hcells
  · intro haddressable
    obtain ⟨cells, hcells, hspec⟩ :=
      sourceCells_spec rowLatitudes_tileYToLatitudeDeg hle haddressable
    refine ⟨cells, hcells, hspec, fun turns cells' hcells' cell => ?_⟩
    have hle' : (range.shifted turns).xMin ≤ (range.shifted turns).xMax := by
      unfold TerrainRange.shifted
      dsimp only
      omega
    have hshifted := addressable_of_sourceCells
      rowLatitudes_tileYToLatitudeDeg hle' hcells'
    obtain ⟨visited, hvisited, hmem⟩ :=
      sourceCells_spec rowLatitudes_tileYToLatitudeDeg hle' hshifted
    rw [hcells'] at hvisited
    cases hvisited
    rw [hmem, hspec]
    exact shifted_meetsCell turns cell

/-- A tile east of the antimeridian. -/
theorem sourceCells_iff_east :
    ∃ cells, (TerrainRange.mk "copernicus-glo30" 8 256 256 90 90).sourceCells
      tileYToLatitudeDeg = some cells := by
  obtain ⟨cells, hcells, -, -⟩ := (sourceCells_iff {}
    ⟨"copernicus-glo30", 8, 256, 256, 90, 90⟩ (by decide)).2
    (by decide)
  exact ⟨cells, hcells⟩

/-- The last column a request can name, at zoom 1. -/
theorem sourceCells_lastColumn :
    rejectCacheDeletion {} ⟨"copernicus-glo30", 1, 2147483647, 2147483647, 0, 0⟩
        = none ∧
      (TerrainRange.mk "copernicus-glo30" 1 2147483647 2147483647 0 0).sourceCells
        tileYToLatitudeDeg = none := by
  refine ⟨by decide, ?_⟩
  cases hcells : (TerrainRange.mk "copernicus-glo30" 1 2147483647 2147483647 0
      0).sourceCells tileYToLatitudeDeg with
  | none => rfl
  | some cells =>
      exfalso
      have haddressable := addressable_of_sourceCells
        rowLatitudes_tileYToLatitudeDeg (le_refl _) hcells
      exact absurd haddressable (by decide)

end AowisMap.Terrain
