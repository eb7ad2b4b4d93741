/-
The averages are those of their definition.

# Overlaps

The scans over the edges note for each box how much of the footprint of a
pixel column or row it shares (`under_columnOverlaps`,
`under_rowOverlaps`).

# Runs

A run is summed by columns of boxes into rows that are all zero before and
after it, then spread over the rows of boxes. For a box that is the sum
over the pixels of the run of the area shared (`visit_spec`).

# Cells

A window leaves out only pixels that share nothing with the boxes
(`outside_window`), and the loops over the cells only cells of which no
pixel does (`outside_cells`). So a box gets the sum over all pixels of all
cells, each once (`accumulateAreaAverages_spec`).
-/
import Mathlib.Algebra.BigOperators.Group.Finset.Piecewise
import Mathlib.Algebra.BigOperators.Ring.List
import Mathlib.Data.Finset.Prod
import Mathlib.Data.List.GetD
import Mathlib.Data.List.TakeWhile
import Mathlib.Tactic.FieldSimp
import AowisMap.Lib.Tally
import AowisMap.Terrain.AreaAverage
import AowisMap.Terrain.Proofs.Raster

namespace AowisMap.Terrain

open Lib Lib.Tally

-- ============================================================= overlaps

section

variable {K : Type*} [Field K] [LinearOrder K] {edges : List K}

/-- Edges from west to east. -/
theorem edge_le_edge (hedges : edges.Pairwise (· ≤ ·)) {a b : Nat}
    (hab : a ≤ b) (hb : b < edges.length) : edge edges a ≤ edge edges b := by
  unfold edge
  rw [List.getD_eq_getElem _ _ (hab.trans_lt hb),
    List.getD_eq_getElem _ _ hb]
  rcases Nat.lt_or_eq_of_le hab with hlt | rfl
  · exact List.pairwise_iff_getElem.1 hedges a b _ hb hlt
  · exact le_refl _

/-- Edges from north to south. -/
theorem edge_ge_edge (hedges : edges.Pairwise (· ≥ ·)) {a b : Nat}
    (hab : a ≤ b) (hb : b < edges.length) : edge edges b ≤ edge edges a := by
  unfold edge
  rw [List.getD_eq_getElem _ _ (hab.trans_lt hb),
    List.getD_eq_getElem _ _ hb]
  rcases Nat.lt_or_eq_of_le hab with hlt | rfl
  · exact List.pairwise_iff_getElem.1 hedges a b _ hb hlt
  · exact le_refl _

variable {low high : K}

/-- The edges up to the last one that is not east of a place. -/
theorem edge_le_of_takeWhile {number : Nat}
    (h : number < (edges.takeWhile fun value => value ≤ low).length) :
    edge edges number ≤ low := by
  have hlength := h.trans_le (List.takeWhile_sublist _).length_le
  have hmem := List.getElem_mem h
  have hle := List.mem_takeWhile_imp hmem
  rw [(List.takeWhile_prefix _).getElem h, decide_eq_true_eq] at hle
  unfold edge
  rw [List.getD_eq_getElem _ _ hlength]
  exact hle

/-- A column of boxes is noted with what it shares of a pixel column. -/
theorem under_columnOverlaps [IsStrictOrderedRing K]
    (hedges : edges.Pairwise (· ≤ ·)) {column : Nat}
    (hcolumn : column + 1 < edges.length) :
    under (columnOverlaps edges low high) column
      = shared low high (edge edges column) (edge edges (column + 1)) := by
  unfold columnOverlaps
  refine under_scan ?_ (by omega) ?_ ?_
  · intro box _ hbox hwanted
    rw [decide_eq_true_eq] at hwanted ⊢
    exact (edge_le_edge hedges (Nat.le_succ box) (by omega)).trans_lt hwanted
  · intro hbefore
    have hle := edge_le_of_takeWhile
      (show column + 1 < (edges.takeWhile fun value => value ≤ low).length
        by omega)
    apply sub_nonpos.2
    exact (min_le_right _ _).trans (hle.trans (le_max_left _ _))
  · intro hunwanted
    rw [decide_eq_false_iff_not, not_lt] at hunwanted
    apply sub_nonpos.2
    exact (min_le_left _ _).trans (hunwanted.trans (le_max_right _ _))

theorem columnOverlaps_lt {entry : Nat × K}
    (h : entry ∈ columnOverlaps edges low high) :
    entry.1 < edges.length - 1 := by
  have hrange := noted_range h
  omega

/-- A row of boxes is noted with what it shares of a pixel row. -/
theorem under_rowOverlaps [IsStrictOrderedRing K]
    (hedges : edges.Pairwise (· ≥ ·)) {row : Nat}
    (hrow : row + 1 < edges.length) :
    under (rowOverlaps edges low high) row
      = shared low high (edge edges (row + 1)) (edge edges row) := by
  unfold rowOverlaps
  refine under_scan ?_ (by omega) ?_ ?_
  · intro box _ hbox hwanted
    rw [decide_eq_true_eq] at hwanted ⊢
    exact hwanted.trans_le (edge_ge_edge hedges (Nat.le_succ box) (by omega))
  · intro hbefore
    have hmem := List.getElem_mem hbefore
    have hle := List.mem_takeWhile_imp hmem
    rw [(List.takeWhile_prefix _).getElem hbefore, List.getElem_range,
      decide_eq_true_eq] at hle
    apply sub_nonpos.2
    exact (min_le_left _ _).trans (hle.trans (le_max_right _ _))
  · intro hunwanted
    rw [decide_eq_false_iff_not, not_lt] at hunwanted
    apply sub_nonpos.2
    exact (min_le_right _ _).trans (hunwanted.trans (le_max_left _ _))

end

-- ============================================================== tallies

/-- What is gathered in a box: the elevations, or the areas alone. -/
inductive AreaTally
  | sums
  | weights

namespace AreaTally

variable {K : Type*} [Field K]

/-- What an elevation counts. -/
def count : AreaTally → K → K
  | .sums, value => value
  | .weights, _ => 1

/-- What a delivered pixel counts, nothing if it is no number. -/
def weigh (tally : AreaTally) (bits : UInt32) : K :=
  if isNaN bits then 0
  else tally.count (CopernicusRasterSet.elevationOf bits)

/-- What a run has gathered, by column of boxes. -/
def run : AreaTally → RunSums K → Nat → K
  | .sums, run => run.sums
  | .weights, run => run.weights

/-- The scratch row of the code. -/
def scratch : AreaTally → AreaSums K → Nat → K
  | .sums, area => area.rowSums
  | .weights, area => area.rowWeights

/-- What the boxes have gathered. -/
def box : AreaTally → AreaSums K → Nat → K
  | .sums, area => area.sums
  | .weights, area => area.weights

end AreaTally

-- ================================================================= runs

section

variable {K : Type*} [Field K] {columns : Nat}
  {tally : AreaTally}

/-- A run has only touched columns of boxes, all noted as touched. -/
structure TouchedInv (columns : Nat) (run : RunSums K) : Prop where
  first_nonneg : 0 ≤ run.touchedFirst
  last_lt : run.touchedLast < columns
  untouched : ∀ (tally : AreaTally) (column : Nat),
    (column : Int) < run.touchedFirst ∨ run.touchedLast < column →
      tally.run run column = 0

/-- A pixel in one column of boxes. -/
theorem addOverlap_spec {value : K} {run : RunSums K}
    (hrun : TouchedInv columns run) {entry : Nat × K}
    (hentry : entry.1 < columns) (column : Nat) :
    TouchedInv columns (run.addOverlap value entry) ∧
      tally.run (run.addOverlap value entry) column
        = tally.run run column
          + (if entry.1 = column then entry.2 else 0) * tally.count value := by
  have hupdate : ∀ (tally : AreaTally) (column : Nat),
      tally.run (run.addOverlap value entry) column
        = tally.run run column
          + (if entry.1 = column then entry.2 else 0)
            * tally.count value := by
    intro tally column
    by_cases hcolumn : entry.1 = column
    · subst hcolumn
      rw [if_pos rfl]
      cases tally with
      | sums => exact Function.update_self ..
      | weights =>
          rw [AreaTally.count, mul_one]
          exact Function.update_self ..
    · rw [if_neg hcolumn, zero_mul, add_zero]
      cases tally with
      | sums => exact Function.update_of_ne (Ne.symm hcolumn) ..
      | weights => exact Function.update_of_ne (Ne.symm hcolumn) ..
  refine ⟨⟨le_min hrun.first_nonneg (Int.natCast_nonneg _),
    max_lt hrun.last_lt (Int.ofNat_lt.2 hentry), ?_⟩,
    hupdate tally column⟩
  intro tally column hout
  have hfirst : (run.addOverlap value entry).touchedFirst
      = min run.touchedFirst entry.1 := rfl
  have hlast : (run.addOverlap value entry).touchedLast
      = max run.touchedLast entry.1 := rfl
  rw [hfirst, hlast] at hout
  have hcolumn : entry.1 ≠ column := by omega
  rw [hupdate, if_neg hcolumn, zero_mul, add_zero]
  apply hrun.untouched
  omega

/-- A pixel in the columns of boxes it overlaps. -/
theorem foldl_addOverlap {value : K} {entries : List (Nat × K)}
    (hentries : ∀ entry ∈ entries, entry.1 < columns) {run : RunSums K}
    (hrun : TouchedInv columns run) (column : Nat) :
    TouchedInv columns (entries.foldl (RunSums.addOverlap value) run) ∧
      tally.run (entries.foldl (RunSums.addOverlap value) run) column
        = tally.run run column + under entries column * tally.count value := by
  unfold under
  rw [← List.sum_map_mul_right]
  exact foldl_gain (TouchedInv columns) (fun run => tally.run run column) _
    (fun run hrun entry hentry =>
      addOverlap_spec hrun (hentries entry hentry) column) hrun

/-- A pixel of a run. -/
theorem addPixel_spec {overlaps : Int → List (Nat × K)}
    (hoverlaps : ∀ pixel, ∀ entry ∈ overlaps pixel, entry.1 < columns)
    {run : RunSums K} (hrun : TouchedInv columns run)
    (pixel : UInt32 × Int) (column : Nat) :
    TouchedInv columns (run.addPixel overlaps pixel) ∧
      tally.run (run.addPixel overlaps pixel) column
        = tally.run run column
          + under (overlaps pixel.2) column * tally.weigh pixel.1 := by
  unfold RunSums.addPixel AreaTally.weigh
  by_cases hnan : isNaN pixel.1 = true
  · rw [if_pos hnan, if_pos hnan, mul_zero, add_zero]
    exact ⟨hrun, rfl⟩
  · rw [if_neg hnan, if_neg hnan]
    exact foldl_addOverlap (hoverlaps pixel.2) hrun column

/-- The pixels of a run. -/
theorem foldl_addPixel {overlaps : Int → List (Nat × K)}
    (hoverlaps : ∀ pixel, ∀ entry ∈ overlaps pixel, entry.1 < columns)
    {run : RunSums K} (hrun : TouchedInv columns run)
    (pixels : List (UInt32 × Int)) (column : Nat) :
    TouchedInv columns (pixels.foldl (RunSums.addPixel overlaps) run) ∧
      tally.run (pixels.foldl (RunSums.addPixel overlaps) run) column
        = tally.run run column + (pixels.map fun pixel =>
          under (overlaps pixel.2) column * tally.weigh pixel.1).sum :=
  foldl_gain (TouchedInv columns) (fun run => tally.run run column) _
    (fun _ hrun pixel _ => addPixel_spec hoverlaps hrun pixel column) hrun

-- ----------------------------------------------------- rows of boxes

/-- Boxes are numbered row by row. -/
theorem box_eq_iff {row column row' column' : Nat} (h : column < columns)
    (h' : column' < columns) :
    row * columns + column = row' * columns + column' ↔
      row = row' ∧ column = column' := by
  constructor
  · intro heq
    have hmod := congrArg (· % columns) heq
    simp only [Nat.mul_add_mod_of_lt h, Nat.mul_add_mod_of_lt h'] at hmod
    rw [hmod, Nat.add_right_cancel_iff] at heq
    exact ⟨Nat.eq_of_mul_eq_mul_right (by omega) heq, hmod⟩
  · intro heq
    rw [heq.1, heq.2]

/-- A run in one row of boxes. -/
theorem addRow_spec {run : RunSums K} (hrun : TouchedInv columns run)
    (area : AreaSums K) (entry : Nat × K) {row column : Nat}
    (hcolumn : column < columns) :
    tally.box (area.addRow columns run entry) (row * columns + column)
      = tally.box area (row * columns + column)
        + (if entry.1 = row then entry.2 else 0)
          * tally.run run column := by
  have hsum : ((Steps.values run.touchedFirst run.touchedLast 1).map
      fun sample => if sample = (column : Int) then
        (if entry.1 = row then entry.2 else 0) * tally.run run column
      else 0).sum
      = (if entry.1 = row then entry.2 else 0) * tally.run run column := by
    rw [← List.sum_toFinset _ Steps.nodup_values_one, Finset.sum_ite_eq']
    split
    · rfl
    · -- the run has nothing in a column it has not touched
      rename_i hout
      rw [List.mem_toFinset, Steps.mem_values_one] at hout
      rw [hrun.untouched tally column (by omega), mul_zero]
  unfold AreaSums.addRow
  rw [← hsum]
  refine (foldl_gain (fun _ => True)
    (fun area => tally.box area (row * columns + column)) _
    (fun area _ sample hsample => ⟨trivial, ?_⟩) trivial).2
  rw [Steps.mem_values_one] at hsample
  have hfirst := hrun.first_nonneg
  have hlast := hrun.last_lt
  obtain ⟨sample, rfl⟩ := Int.eq_ofNat_of_zero_le
    (hfirst.trans hsample.1)
  have hbox := @box_eq_iff columns entry.1 sample row column (by omega)
    hcolumn
  rw [Int.toNat_natCast]
  by_cases hsame : entry.1 = row ∧ sample = column
  · obtain ⟨rfl, rfl⟩ := hsame
    rw [if_pos rfl, if_pos rfl]
    cases tally with
    | sums => exact Function.update_self ..
    | weights => exact Function.update_self ..
  · have hgain : (if ((sample : Nat) : Int) = column then
        (if entry.1 = row then entry.2 else 0) * tally.run run column
      else 0) = 0 := by
      split
      · rename_i hsample
        rw [if_neg fun hrow => hsame ⟨hrow, Int.ofNat_inj.1 hsample⟩,
          zero_mul]
      · rfl
    rw [hgain, add_zero]
    have hother := fun heq => hsame (hbox.1 (Eq.symm heq))
    cases tally with
    | sums => exact Function.update_of_ne hother ..
    | weights => exact Function.update_of_ne hother ..

/-- The scratch row is all zero. -/
def ScratchClear (area : AreaSums K) : Prop :=
  ∀ (tally : AreaTally) (column : Nat), tally.scratch area column = 0

/-- A run in the rows of boxes it overlaps. -/
theorem foldl_addRow {run : RunSums K} (hrun : TouchedInv columns run)
    (area : AreaSums K) (entries : List (Nat × K)) {row column : Nat}
    (hcolumn : column < columns) :
    tally.box (entries.foldl (AreaSums.addRow columns run) area)
        (row * columns + column)
      = tally.box area (row * columns + column)
        + under entries row * tally.run run column := by
  unfold under
  rw [← List.sum_map_mul_right]
  exact (foldl_gain (fun _ => True)
    (fun area => tally.box area (row * columns + column)) _
    (fun area _ entry _ => ⟨trivial, addRow_spec hrun area entry hcolumn⟩)
    trivial).2

/-- What a run leaves of its sums is zero. -/
theorem clear_touched {run : RunSums K} (hrun : TouchedInv columns run)
    (tally : AreaTally) (column : Nat) :
    clear run.touchedFirst run.touchedLast (tally.run run) column = 0 := by
  unfold clear
  split
  · rfl
  · apply hrun.untouched
    omega

variable {across down : Int → List (Nat × K)}

/-- A box gets the area it shares of the pixels of a run. -/
theorem visit_spec
    (hacross : ∀ pixel, ∀ entry ∈ across pixel, entry.1 < columns)
    {area : AreaSums K} (harea : ScratchClear area) (run : RowRun)
    {row column : Nat} (hcolumn : column < columns) :
    ScratchClear (area.visit columns across down run) ∧
      tally.box (area.visit columns across down run)
          (row * columns + column)
        = tally.box area (row * columns + column)
          + (run.pixels.map fun pixel => under (across pixel.1) column
            * under (down pixel.2.1) row * tally.weigh pixel.2.2).sum := by
  -- the pixels of the run are all in its row
  have hpixels : (run.pixels.map fun pixel => under (across pixel.1) column
        * under (down pixel.2.1) row * tally.weigh pixel.2.2).sum
      = under (down run.row) row * ((run.values.zipIdx.map fun value =>
        (value.1, run.column + value.2)).map fun pixel =>
          under (across pixel.2) column * tally.weigh pixel.1).sum := by
    unfold RowRun.pixels
    rw [← List.sum_map_mul_left, List.map_map, List.map_map]
    refine congrArg List.sum (List.map_congr_left fun value _ => ?_)
    simp only [Function.comp_apply]
    ring
  have hstart : TouchedInv columns
      { sums := area.rowSums
        weights := area.rowWeights
        touchedFirst := columns
        touchedLast := -1 } :=
    ⟨Int.natCast_nonneg _, by show (-1 : Int) < columns; omega,
      fun tally column _ => by
        cases tally with
        | sums => exact harea .sums column
        | weights => exact harea .weights column⟩
  have hrow := fun tally column => @foldl_addPixel K _ columns tally across
    hacross _ hstart (run.values.zipIdx.map fun value =>
      (value.1, run.column + value.2)) column
  have hempty : ∀ (tally : AreaTally) column, tally.run
      { sums := area.rowSums
        weights := area.rowWeights
        touchedFirst := columns
        touchedLast := -1 } column = 0 := by
    intro tally column
    cases tally with
    | sums => exact harea .sums column
    | weights => exact harea .weights column
  simp only [hempty, zero_add] at hrow
  rw [hpixels]
  unfold AreaSums.visit
  dsimp only
  generalize (run.values.zipIdx.map fun value =>
      (value.1, run.column + value.2)).foldl (RunSums.addPixel across)
    { sums := area.rowSums
      weights := area.rowWeights
      touchedFirst := columns
      touchedLast := -1 } = touched at hrow ⊢
  have htouched := (hrow .sums 0).1
  rw [← (hrow tally column).2]
  by_cases hnone : touched.touchedLast < touched.touchedFirst
  · rw [if_pos hnone]
    have hzero : ∀ (tally : AreaTally) column,
        tally.run touched column = 0 := by
      intro tally column
      apply htouched.untouched
      omega
    constructor
    · intro tally column
      cases tally with
      | sums => exact hzero .sums column
      | weights => exact hzero .weights column
    · rw [hzero, mul_zero, add_zero]
      cases tally with
      | sums => rfl
      | weights => rfl
  · rw [if_neg hnone]
    constructor
    · intro tally column
      cases tally with
      | sums => exact clear_touched htouched .sums column
      | weights => exact clear_touched htouched .weights column
    · have hrows := @foldl_addRow K _ columns tally touched htouched area
        (down run.row) row column hcolumn
      cases tally with
      | sums => exact hrows
      | weights => exact hrows

/-- A box gets the area it shares of the pixels of all runs. -/
theorem foldl_visit
    (hacross : ∀ pixel, ∀ entry ∈ across pixel, entry.1 < columns)
    {area : AreaSums K} (harea : ScratchClear area) (runs : List RowRun)
    {row column : Nat} (hcolumn : column < columns) :
    ScratchClear (runs.foldl (AreaSums.visit columns across down) area) ∧
      tally.box (runs.foldl (AreaSums.visit columns across down) area)
          (row * columns + column)
        = tally.box area (row * columns + column)
          + ((runs.flatMap RowRun.pixels).map fun pixel =>
            under (across pixel.1) column * under (down pixel.2.1) row
              * tally.weigh pixel.2.2).sum := by
  rw [List.map_flatMap, List.flatMap_def, List.sum_flatten, List.map_map]
  exact foldl_gain ScratchClear
    (fun area => tally.box area (row * columns + column)) _
    (fun _ harea run _ => visit_spec hacross harea run hcolumn) harea

end

-- ============================================================== sources

/-- A window that is delivered is delivered pixel for pixel. -/
def SourceRaster.Shows (raster : SourceRaster)
    (image : Nat → Nat → UInt32) : Prop :=
  ∀ {window : RasterWindow} {runs : List RowRun},
    0 ≤ window.columnFirst → window.columnFirst ≤ window.columnLast →
    window.columnLast < raster.pixelWidth → 0 ≤ window.rowFirst →
    window.rowFirst ≤ window.rowLast →
    window.rowLast < raster.pixelHeight →
    raster.visitWindow window = (runs, .ok ()) →
    (runs.flatMap RowRun.pixels).Perm (window.cells.map (cellFloat image))

/-- The source rasters show images of the sizes of the source data. -/
structure AveragedSources (load : CopernicusSourceAddress → SourceLoad)
    (image : CopernicusSourceAddress → Nat → Nat → UInt32) : Prop where
  width : ∀ {address raster downloaded},
    load address = .ready raster downloaded → 600 ≤ raster.pixelWidth
  height : ∀ {address raster downloaded},
    load address = .ready raster downloaded → raster.pixelHeight = 3600
  shows : ∀ {address raster downloaded},
    load address = .ready raster downloaded → raster.Shows (image address)

/-- An open raster, as a set of rasters sees it. -/
def CopernicusRaster.source (raster : CopernicusRaster)
    (budgets : DecodeBudgets) (state : RasterState) : SourceRaster where
  pixelWidth := CInt.ofUnsigned raster.width
  pixelHeight := CInt.ofUnsigned raster.height
  pixel column row :=
    match (raster.pixel budgets column row state).1 with
    | .ok value => (value, "")
    | .error errorMessage => (none, errorMessage)
  visitWindow window :=
    let visit := raster.visitWindow budgets window state
    (visit.runs, visit.result)

/-- A raster that is exact shows its image, whatever was read before. -/
theorem Exact.shows {raster : CopernicusRaster}
    {image : Nat → Nat → UInt32} (hexact : Exact raster image)
    (hgeometry : raster.Geometry) {budgets : DecodeBudgets}
    {state : RasterState} (hreachable : Reachable raster budgets state) :
    (raster.source budgets state).Shows image := by
  intro window runs hcolumnFirst hcolumns hcolumnLast hrowFirst hrows
    hrowLast hvisit
  unfold CopernicusRaster.source at hcolumnLast hrowLast hvisit
  dsimp only at hcolumnLast hrowLast hvisit
  rw [hgeometry.ofUnsigned_width] at hcolumnLast
  rw [hgeometry.ofUnsigned_height] at hrowLast
  have hresult : (raster.visitWindow budgets window state).result = .ok () :=
    congrArg Prod.snd hvisit
  have hruns : (raster.visitWindow budgets window state).runs = runs :=
    congrArg Prod.fst hvisit
  rcases hexact.window budgets state hreachable window
    ⟨hcolumnFirst, hcolumns, hcolumnLast, hrowFirst, hrows, hrowLast⟩
    with ⟨-, hpixels⟩ | ⟨⟨herror, -⟩, -⟩
  · rw [← hruns]
    exact hpixels
  · rw [hresult] at herror
    cases herror

-- ================================================================ cells

section

variable {K : Type*} [Field K] [LinearOrder K] [FloorRing K]

/-- What a sample of a raster counts, nothing if it is not valid. -/
def AreaTally.value (tally : AreaTally) (word : UInt32) : K :=
  if validElevation word then
    tally.count (CopernicusRasterSet.elevationOf word)
  else 0

omit [LinearOrder K] [FloorRing K] in
/-- Samples that are not valid are delivered as no number. -/
theorem AreaTally.weigh_shownFloat (tally : AreaTally) (word : UInt32) :
    (tally.weigh (shownFloat word) : K) = tally.value word := by
  unfold weigh value shownFloat
  by_cases hvalid : validElevation word = true
  · rw [if_pos hvalid, if_pos hvalid]
    have hnumber : isNaN word = false := by
      unfold isNaN
      rw [decide_eq_false_iff_not]
      intro hnan
      unfold validElevation at hvalid
      rw [hnan] at hvalid
      cases hvalid
    rw [hnumber, if_neg (by decide)]
  · have hnan : isNaN quietNaN = true := by decide
    rw [if_neg hvalid, if_neg hvalid, hnan, if_pos rfl]

variable (load : CopernicusSourceAddress → SourceLoad)
  (image : CopernicusSourceAddress → Nat → Nat → UInt32)
  (longitudeEdges latitudeEdges : List K)

/-- The area a box shares of the footprint of a pixel of a cell. -/
def sharedArea (cell : Int × Int) (pixelColumns pixelRows : Int)
    (row column : Nat) (pixel : Int × Int) : K :=
  shared (pixelWest cell.2 pixelColumns pixel.1)
      (pixelEast cell.2 pixelColumns pixel.1)
      (edge longitudeEdges column) (edge longitudeEdges (column + 1))
    * shared (pixelSouth (cell.1 + 1) pixelRows pixel.2)
      (pixelNorth (cell.1 + 1) pixelRows pixel.2)
      (edge latitudeEdges (row + 1)) (edge latitudeEdges row)

/-- What a box gets of all pixels of a cell. -/
def cellTally (tally : AreaTally) (row column : Nat) (cell : Int × Int) : K :=
  match load ⟨cell.1, wrappedSourceWest cell.2⟩ with
  | .ready raster _ =>
      ∑ pixel ∈ between 0 (raster.pixelWidth - 1)
          ×ˢ between 0 (raster.pixelHeight - 1),
        sharedArea longitudeEdges latitudeEdges cell raster.pixelWidth
            raster.pixelHeight row column pixel
          * tally.value (image ⟨cell.1, wrappedSourceWest cell.2⟩
            pixel.1.toNat pixel.2.toNat)
  | _ => 0

variable {load image longitudeEdges latitudeEdges} [IsStrictOrderedRing K]

/-- The pixels of a cell that its window leaves out share nothing with a
box. -/
theorem outside_window (hlongitudes : longitudeEdges.Pairwise (· ≤ ·))
    (hlatitudes : latitudeEdges.Pairwise (· ≥ ·)) {row column : Nat}
    (hrow : row + 1 < latitudeEdges.length)
    (hcolumn : column + 1 < longitudeEdges.length) {cell pixel : Int × Int}
    {pixelColumns pixelRows : Int} (hcolumns : 0 < pixelColumns)
    (hrows : 0 < pixelRows)
    (hpixel : (0 ≤ pixel.1 ∧ pixel.1 < pixelColumns) ∧
      0 ≤ pixel.2 ∧ pixel.2 < pixelRows)
    (hout : pixel ∉ (pixelWindow longitudeEdges latitudeEdges cell.1 cell.2
      pixelColumns pixelRows).cells) :
    sharedArea longitudeEdges latitudeEdges cell pixelColumns pixelRows row
      column pixel = 0 := by
  have hwest := edge_le_edge hlongitudes (Nat.zero_le column) (by omega)
  have heast := edge_le_edge hlongitudes
    (show column + 1 ≤ longitudeEdges.length - 1 by omega) (by omega)
  have hnorth := edge_ge_edge hlatitudes (Nat.zero_le row) (by omega)
  have hsouth := edge_ge_edge hlatitudes
    (show row + 1 ≤ latitudeEdges.length - 1 by omega) (by omega)
  have hcolumnsPos : (0 : K) < pixelColumns := by exact_mod_cast hcolumns
  have hrowsPos : (0 : K) < pixelRows := by exact_mod_cast hrows
  obtain ⟨⟨hcolumnLow, hcolumnHigh⟩, hrowLow, hrowHigh⟩ := hpixel
  rw [RasterWindow.mem_cells] at hout
  unfold pixelWindow at hout
  simp only [max_le_iff, le_min_iff, Int.add_one_le_iff, Int.le_sub_one_iff,
    Int.floor_lt, Int.lt_ceil] at hout
  unfold sharedArea
  by_cases hbefore : (pixel.1 : K)
      ≤ (edge longitudeEdges 0 - cell.2) * pixelColumns - 1 / 2
  · -- the pixel column ends before the first box
    rw [shared_before, zero_mul]
    refine le_trans ?_ hwest
    unfold pixelEast
    have hdiv : ((pixel.1 : K) + 1 / 2) / pixelColumns
        ≤ edge longitudeEdges 0 - cell.2 := by
      rw [div_le_iff₀ hcolumnsPos]
      linarith
    linarith
  by_cases hafter : (edge longitudeEdges (longitudeEdges.length - 1) - cell.2)
      * pixelColumns + 1 / 2 ≤ (pixel.1 : K)
  · -- it starts after the last one
    rw [shared_after, zero_mul]
    refine le_trans heast ?_
    unfold pixelWest
    have hdiv : edge longitudeEdges (longitudeEdges.length - 1) - cell.2
        ≤ ((pixel.1 : K) - 1 / 2) / pixelColumns := by
      rw [le_div_iff₀ hcolumnsPos]
      linarith
    linarith
  by_cases habove : (pixel.2 : K)
      ≤ ((cell.1 + 1 : Int) - edge latitudeEdges 0) * pixelRows - 1 / 2
  · -- the pixel row ends north of the boxes
    rw [mul_comm, shared_after, zero_mul]
    refine le_trans hnorth ?_
    unfold pixelSouth
    have hdiv : ((pixel.2 : K) + 1 / 2) / pixelRows
        ≤ ((cell.1 + 1 : Int) : K) - edge latitudeEdges 0 := by
      rw [div_le_iff₀ hrowsPos]
      linarith
    linarith
  by_cases hbelow : ((cell.1 + 1 : Int)
      - edge latitudeEdges (latitudeEdges.length - 1)) * pixelRows + 1 / 2
      ≤ (pixel.2 : K)
  · -- it starts south of them
    rw [mul_comm, shared_before, zero_mul]
    refine le_trans ?_ hsouth
    unfold pixelNorth
    have hdiv : ((cell.1 + 1 : Int) : K)
        - edge latitudeEdges (latitudeEdges.length - 1)
        ≤ ((pixel.2 : K) - 1 / 2) / pixelRows := by
      rw [le_div_iff₀ hrowsPos]
      linarith
    linarith
  rw [not_le] at hbefore hafter habove hbelow
  exact absurd ⟨⟨⟨hcolumnLow, hbefore⟩, hcolumnHigh, hafter⟩,
    ⟨hrowLow, habove⟩, hrowHigh, hbelow⟩ hout

/-- The pixels of a window hold all a box shares of a cell. -/
theorem window_tally (hlongitudes : longitudeEdges.Pairwise (· ≤ ·))
    (hlatitudes : latitudeEdges.Pairwise (· ≥ ·)) {row column : Nat}
    (hrow : row + 1 < latitudeEdges.length)
    (hcolumn : column + 1 < longitudeEdges.length) {cell : Int × Int}
    {pixelColumns pixelRows : Int} (hcolumns : 0 < pixelColumns)
    (hrows : 0 < pixelRows) (tally : AreaTally) (shown : Nat → Nat → UInt32) :
    ((pixelWindow longitudeEdges latitudeEdges cell.1 cell.2 pixelColumns
        pixelRows).cells.map fun pixel =>
      sharedArea longitudeEdges latitudeEdges cell pixelColumns pixelRows row
        column pixel * tally.value (shown pixel.1.toNat pixel.2.toNat)).sum
      = ∑ pixel ∈ between 0 (pixelColumns - 1) ×ˢ between 0 (pixelRows - 1),
        sharedArea longitudeEdges latitudeEdges cell pixelColumns pixelRows
          row column pixel
            * tally.value (shown pixel.1.toNat pixel.2.toNat) := by
  rw [← List.sum_toFinset _ (RasterWindow.cells_nodup _)]
  apply Finset.sum_subset
  · intro pixel hpixel
    rw [List.mem_toFinset, RasterWindow.mem_cells] at hpixel
    obtain ⟨⟨hcolumnFirst, hcolumnLast⟩, hrowFirst, hrowLast⟩ := hpixel
    have hcolumnLow := (le_max_left _ _).trans hcolumnFirst
    have hrowLow := (le_max_left _ _).trans hrowFirst
    have hcolumnHigh := hcolumnLast.trans (min_le_left _ _)
    have hrowHigh := hrowLast.trans (min_le_left _ _)
    rw [Finset.mem_product, mem_between, mem_between]
    omega
  · intro pixel hpixel hout
    rw [Finset.mem_product, mem_between, mem_between, Int.le_sub_one_iff,
      Int.le_sub_one_iff] at hpixel
    rw [List.mem_toFinset] at hout
    rw [outside_window hlongitudes hlatitudes hrow hcolumn hcolumns hrows
      hpixel hout, zero_mul]

open CopernicusRasterSet in
/-- One round of the loops over the cells. -/
theorem accumulateCell_spec (hlongitudes : longitudeEdges.Pairwise (· ≤ ·))
    (hlatitudes : latitudeEdges.Pairwise (· ≥ ·))
    (hsources : AveragedSources load image) {row column : Nat}
    (hrow : row + 1 < latitudeEdges.length)
    (hcolumn : column + 1 < longitudeEdges.length) (cell : Int × Int)
    {area area' : AreaSums K} {rasters rasters' : CopernicusRasterSet}
    (harea : ScratchClear area) (tally : AreaTally)
    (h : accumulateCell load longitudeEdges latitudeEdges cell.1 cell.2 area
      rasters = (true, area', rasters')) :
    ScratchClear area' ∧
      tally.box area' (row * (longitudeEdges.length - 1) + column)
        = tally.box area (row * (longitudeEdges.length - 1) + column)
          + cellTally load image longitudeEdges latitudeEdges tally row
            column cell := by
  unfold accumulateCell raster at h
  unfold cellTally
  cases hload : load ⟨cell.1, wrappedSourceWest cell.2⟩ with
  | unavailable =>
      simp only [hload] at h
      split at h
      · cases h
      · cases h
        exact ⟨harea, (add_zero _).symm⟩
  | failed status errorMessage =>
      simp only [hload, Option.isSome_some, if_true, Prod.mk.injEq,
        Bool.false_eq_true, false_and] at h
  | ready raster downloaded =>
      have hwidth := hsources.width hload
      have hheight := hsources.height hload
      have hcolumns : 0 < raster.pixelWidth := by omega
      have hrows : 0 < raster.pixelHeight := by omega
      have hwindow := @window_tally K _ _ _ _ _ _ hlongitudes hlatitudes row
        column hrow hcolumn cell _ _ hcolumns hrows tally
        (image ⟨cell.1, wrappedSourceWest cell.2⟩)
      simp only [hload] at h
      dsimp only
      rw [← hwindow]
      split at h
      · cases h
      split at h
      · -- no pixel is in the window
        rename_i hempty
        cases h
        refine ⟨harea, ?_⟩
        have hcells : (pixelWindow longitudeEdges latitudeEdges cell.1 cell.2
            raster.pixelWidth raster.pixelHeight).cells = [] := by
          rw [List.eq_nil_iff_forall_not_mem]
          intro pixel hpixel
          rw [RasterWindow.mem_cells] at hpixel
          omega
        rw [hcells, List.map_nil, List.sum_nil, add_zero]
      · rename_i hwhole
        rw [not_or, Int.not_lt, Int.not_lt] at hwhole
        split at h
        · rename_i hresult
          cases h
          have hshown := hsources.shows hload (le_max_left _ _) hwhole.1
            ((min_le_left _ _).trans_lt (sub_one_lt _)) (le_max_left _ _)
            hwhole.2 ((min_le_left _ _).trans_lt (sub_one_lt _))
            (Prod.ext_iff.2 ⟨rfl, hresult⟩)
          have hacross : ∀ pixelColumn : Int, ∀ entry ∈ columnOverlaps
              longitudeEdges
              (pixelWest cell.2 raster.pixelWidth pixelColumn)
              (pixelEast cell.2 raster.pixelWidth pixelColumn),
              entry.1 < longitudeEdges.length - 1 :=
            fun _ _ hentry => columnOverlaps_lt hentry
          have hvisits := @foldl_visit K _ _ tally _
            (fun pixelRow : Int => rowOverlaps latitudeEdges
              (pixelSouth (cell.1 + 1) raster.pixelHeight pixelRow)
              (pixelNorth (cell.1 + 1) raster.pixelHeight pixelRow))
            hacross _ harea (raster.visitWindow (pixelWindow longitudeEdges
              latitudeEdges cell.1 cell.2 raster.pixelWidth
              raster.pixelHeight)).1 row column (Nat.lt_sub_of_add_lt hcolumn)
          refine ⟨hvisits.1, hvisits.2.trans (congrArg _ ?_)⟩
          rw [(hshown.map _).sum_eq, List.map_map]
          refine congrArg List.sum (List.map_congr_left fun pixel _ => ?_)
          rw [Function.comp_apply, cellFloat]
          dsimp only
          rw [tally.weigh_shownFloat, under_columnOverlaps hlongitudes hcolumn,
            under_rowOverlaps hlatitudes hrow]
          rfl
        · cases h

open CopernicusRasterSet in
/-- The loops over the cells. -/
theorem accumulateCells_spec (hlongitudes : longitudeEdges.Pairwise (· ≤ ·))
    (hlatitudes : latitudeEdges.Pairwise (· ≥ ·))
    (hsources : AveragedSources load image) {row column : Nat}
    (hrow : row + 1 < latitudeEdges.length)
    (hcolumn : column + 1 < longitudeEdges.length) (tally : AreaTally) :
    ∀ {cells : List (Int × Int)} {area area' : AreaSums K}
      {rasters rasters' : CopernicusRasterSet}, ScratchClear area →
      accumulateCells load longitudeEdges latitudeEdges cells area rasters
        = (true, area', rasters') →
      tally.box area' (row * (longitudeEdges.length - 1) + column)
        = tally.box area (row * (longitudeEdges.length - 1) + column)
          + (cells.map (cellTally load image longitudeEdges latitudeEdges
            tally row column)).sum := by
  intro cells
  induction cells with
  | nil =>
      intro area area' rasters rasters' _ h
      cases h
      exact (add_zero _).symm
  | cons cell rest ih =>
      intro area area' rasters rasters' harea h
      obtain ⟨cellSouth, unwrappedWest⟩ := cell
      unfold accumulateCells at h
      split at h
      · rename_i area₁ rasters₁ hcell
        obtain ⟨harea₁, hbox⟩ := accumulateCell_spec hlongitudes hlatitudes
          hsources hrow hcolumn (cellSouth, unwrappedWest) harea tally hcell
        rw [ih harea₁ h, hbox, List.map_cons, List.sum_cons, add_assoc]
      · cases h

open CopernicusRasterSet in
/-- A cell the loops leave out has no pixel that shares anything with a
box. -/
theorem outside_cells (hlongitudes : longitudeEdges.Pairwise (· ≤ ·))
    (hlatitudes : latitudeEdges.Pairwise (· ≥ ·))
    (hsources : AveragedSources load image) {row column : Nat}
    (hrow : row + 1 < latitudeEdges.length)
    (hcolumn : column + 1 < longitudeEdges.length) (tally : AreaTally)
    {cell : Int × Int} (hlow : -90 ≤ cell.1) (hhigh : cell.1 ≤ 89)
    (hout : cell ∉ candidateCells longitudeEdges latitudeEdges) :
    cellTally load image longitudeEdges latitudeEdges tally row column cell
      = 0 := by
  have hwest := edge_le_edge hlongitudes (Nat.zero_le column) (by omega)
  have heast := edge_le_edge hlongitudes
    (show column + 1 ≤ longitudeEdges.length - 1 by omega) (by omega)
  have hnorth := edge_ge_edge hlatitudes (Nat.zero_le row) (by omega)
  have hsouth := edge_ge_edge hlatitudes
    (show row + 1 ≤ latitudeEdges.length - 1 by omega) (by omega)
  unfold cellTally
  cases hload : load ⟨cell.1, wrappedSourceWest cell.2⟩ with
  | unavailable => rfl
  | failed status errorMessage => rfl
  | ready raster downloaded =>
      have hwidth := hsources.width hload
      have hheight := hsources.height hload
      have hwidthK : (600 : K) ≤ raster.pixelWidth := by
        exact_mod_cast hwidth
      apply Finset.sum_eq_zero
      intro pixel hpixel
      rw [Finset.mem_product, mem_between, mem_between, Int.le_sub_one_iff,
        Int.le_sub_one_iff, hheight] at hpixel
      obtain ⟨⟨hcolumnLow, hcolumnHigh⟩, hrowLow, hrowHigh⟩ := hpixel
      have hcolumnK : (0 : K) ≤ pixel.1 := by exact_mod_cast hcolumnLow
      have hcolumnK' : (pixel.1 : K) + 1 ≤ raster.pixelWidth := by
        exact_mod_cast hcolumnHigh
      have hrowK : (0 : K) ≤ pixel.2 := by exact_mod_cast hrowLow
      have hrowK' : (pixel.2 : K) + 1 ≤ 3600 := by exact_mod_cast hrowHigh
      have hwidthPos : (0 : K) < raster.pixelWidth := by linarith
      have hcell : ¬ ((⌊edge latitudeEdges (latitudeEdges.length - 1)
            - maximumSourceHalfPixelLatitudeDeg⌋ ≤ cell.1 ∧
          cell.1 < ⌈edge latitudeEdges 0
            - maximumSourceHalfPixelLatitudeDeg⌉) ∧
          ⌊edge longitudeEdges 0⌋ ≤ cell.2 ∧
          cell.2 ≤ ⌊edge longitudeEdges (longitudeEdges.length - 1)
            + maximumSourceHalfPixelLongitudeDeg⌋) := by
        intro hinside
        apply hout
        unfold candidateCells
        dsimp only
        rw [List.mem_flatMap]
        refine ⟨cell.1, Steps.mem_values_one.2 ⟨?_, ?_⟩, List.mem_map.2
          ⟨cell.2, Steps.mem_values_one.2 hinside.2, rfl⟩⟩
        · exact max_le hlow hinside.1.1
        · exact le_min hhigh (Int.le_sub_one_of_lt hinside.1.2)
      unfold sharedArea
      by_cases hbefore : cell.2 < ⌊edge longitudeEdges 0⌋
      · -- the whole cell lies west of the boxes
        rw [shared_before, zero_mul, zero_mul]
        refine le_trans ?_ hwest
        have hfloor : ((cell.2 + 1 : Int) : K) ≤ edge longitudeEdges 0 :=
          Int.le_floor.1 hbefore
        push_cast at hfloor
        have hdiv : ((pixel.1 : K) + 1 / 2) / raster.pixelWidth ≤ 1 := by
          rw [div_le_iff₀ hwidthPos]
          linarith
        unfold pixelEast
        linarith
      by_cases hafter : ⌊edge longitudeEdges (longitudeEdges.length - 1)
          + maximumSourceHalfPixelLongitudeDeg⌋ < cell.2
      · -- it lies east of them, by half a pixel at least
        rw [shared_after, zero_mul, zero_mul]
        refine le_trans heast ?_
        have hfloor := Int.floor_lt.1 hafter
        have hdiv : -maximumSourceHalfPixelLongitudeDeg
            ≤ ((pixel.1 : K) - 1 / 2) / raster.pixelWidth := by
          unfold maximumSourceHalfPixelLongitudeDeg
          rw [le_div_iff₀ hwidthPos]
          linarith
        unfold pixelWest
        linarith
      by_cases hbelow : cell.1 < ⌊edge latitudeEdges (latitudeEdges.length - 1)
          - maximumSourceHalfPixelLatitudeDeg⌋
      · -- it lies south of them
        rw [mul_comm (shared _ _ _ _), shared_before, zero_mul, zero_mul]
        refine le_trans ?_ hsouth
        have hfloor : ((cell.1 + 1 : Int) : K) ≤ _ := Int.le_floor.1 hbelow
        have hdiv : -maximumSourceHalfPixelLatitudeDeg
            ≤ ((pixel.2 : K) - 1 / 2) / raster.pixelHeight := by
          unfold maximumSourceHalfPixelLatitudeDeg
          rw [hheight, le_div_iff₀ (by norm_num)]
          push_cast
          linarith
        unfold pixelNorth
        linarith
      by_cases habove : ⌈edge latitudeEdges 0
          - maximumSourceHalfPixelLatitudeDeg⌉ ≤ cell.1
      · -- it lies north of them
        rw [mul_comm (shared _ _ _ _), shared_after, zero_mul, zero_mul]
        refine le_trans hnorth ?_
        have hceil := Int.ceil_le.1 habove
        have hdiv : ((pixel.2 : K) + 1 / 2) / raster.pixelHeight
            ≤ 1 - maximumSourceHalfPixelLatitudeDeg := by
          unfold maximumSourceHalfPixelLatitudeDeg
          rw [hheight, div_le_iff₀ (by norm_num)]
          push_cast
          linarith
        unfold pixelSouth
        push_cast
        linarith
      omega

omit [IsStrictOrderedRing K] in
open CopernicusRasterSet in
/-- The loops have no cell twice. -/
theorem nodup_candidateCells :
    (candidateCells longitudeEdges latitudeEdges).Nodup := by
  unfold candidateCells
  dsimp only
  rw [List.nodup_flatMap]
  refine ⟨fun cellSouth _ => ?_, ?_⟩
  · refine Steps.nodup_values_one.map ?_
    intro a b hab
    exact congrArg Prod.snd hab
  · refine Steps.nodup_values_one.imp ?_
    intro a b hab cell ha hb
    obtain ⟨_, -, rfl⟩ := List.mem_map.1 ha
    obtain ⟨_, -, hcell⟩ := List.mem_map.1 hb
    exact hab (congrArg Prod.fst hcell).symm

open CopernicusRasterSet in
theorem mem_candidateCells {cell : Int × Int}
    (h : cell ∈ candidateCells longitudeEdges latitudeEdges) :
    (-90 ≤ cell.1 ∧ cell.1 ≤ 89) ∧
      edge longitudeEdges 0 - 1 < cell.2 ∧
      (cell.2 : K)
        < edge longitudeEdges (longitudeEdges.length - 1) + 1 := by
  unfold candidateCells at h
  obtain ⟨cellSouth, hsouth, hcells⟩ := List.mem_flatMap.1 h
  obtain ⟨unwrappedWest, hwest, rfl⟩ := List.mem_map.1 hcells
  rw [Steps.mem_values_one] at hsouth hwest
  obtain ⟨hfirstSouth, hlastSouth⟩ := hsouth
  obtain ⟨hfirstWest, hlastWest⟩ := hwest
  refine ⟨⟨(le_max_left _ _).trans hfirstSouth,
    hlastSouth.trans (min_le_left _ _)⟩, ?_, ?_⟩
  · have hfloor := Int.floor_lt.1 (Int.lt_add_one_iff.2 hfirstWest)
    push_cast at hfloor
    linarith
  · have hfloor := Int.le_floor.1 hlastWest
    have hhalf : (maximumSourceHalfPixelLongitudeDeg : K) < 1 := by
      unfold maximumSourceHalfPixelLongitudeDeg
      norm_num
    linarith

open CopernicusRasterSet in
/-- The scan gathers in each box what the candidate cells share with it. -/
theorem box_candidates
    (hlongitudes : longitudeEdges.Pairwise (· ≤ ·))
    (hlatitudes : latitudeEdges.Pairwise (· ≥ ·))
    (hsources : AveragedSources load image) {row column : Nat}
    (hrow : row + 1 < latitudeEdges.length)
    (hcolumn : column + 1 < longitudeEdges.length) (tally : AreaTally)
    {area : AreaSums K} {rasters rasters' : CopernicusRasterSet}
    (h : rasters.accumulateAreaAverages load longitudeEdges latitudeEdges
      = (true, area, rasters')) :
    tally.box area (row * (longitudeEdges.length - 1) + column)
      = ((candidateCells longitudeEdges latitudeEdges).map
          (cellTally load image longitudeEdges latitudeEdges tally row
            column)).sum := by
  have hclear : ScratchClear (AreaSums.zero : AreaSums K) := by
    intro tally column
    cases tally with
    | sums => rfl
    | weights => rfl
  have hzero : tally.box (AreaSums.zero : AreaSums K)
      (row * (longitudeEdges.length - 1) + column) = 0 := by
    cases tally with
    | sums => rfl
    | weights => rfl
  rw [accumulateCells_spec hlongitudes hlatitudes hsources hrow hcolumn tally
    hclear h, hzero, zero_add]

open CopernicusRasterSet in
/-- Cells that are no candidates share nothing with a box. -/
theorem sum_candidateCells
    (hlongitudes : longitudeEdges.Pairwise (· ≤ ·))
    (hlatitudes : latitudeEdges.Pairwise (· ≥ ·))
    (hsources : AveragedSources load image) {row column : Nat}
    (hrow : row + 1 < latitudeEdges.length)
    (hcolumn : column + 1 < longitudeEdges.length) (tally : AreaTally)
    (cells : Finset (Int × Int))
    (hcells : ∀ cell ∈ cells, -90 ≤ cell.1 ∧ cell.1 ≤ 89)
    (hwhole : ∀ cell : Int × Int, -90 ≤ cell.1 → cell.1 ≤ 89 →
      edge longitudeEdges 0 - 1 < cell.2 →
      (cell.2 : K) < edge longitudeEdges (longitudeEdges.length - 1) + 1 →
      cell ∈ cells) :
    ((candidateCells longitudeEdges latitudeEdges).map
        (cellTally load image longitudeEdges latitudeEdges tally row
          column)).sum
      = ∑ cell ∈ cells, cellTally load image longitudeEdges latitudeEdges
        tally row column cell := by
  rw [← List.sum_toFinset _ nodup_candidateCells]
  apply Finset.sum_subset
  · intro cell hcell
    rw [List.mem_toFinset] at hcell
    obtain ⟨⟨hlow, hhigh⟩, hwest, heast⟩ := mem_candidateCells hcell
    exact hwhole cell hlow hhigh hwest heast
  · intro cell hcell hout
    rw [List.mem_toFinset] at hout
    obtain ⟨hlow, hhigh⟩ := hcells cell hcell
    exact outside_cells hlongitudes hlatitudes hsources hrow hcolumn tally
      hlow hhigh hout

end

-- ---------------------------------------------------- one plain source

/-- A raster of one value that delivers its windows row by row. -/
def plainSource (word : UInt32) : SourceRaster where
  pixelWidth := 600
  pixelHeight := 3600
  pixel _ _ := (some word, "")
  visitWindow window :=
    ((Steps.values window.rowFirst window.rowLast 1).map
      (imageRun (fun _ _ => word) window.columnFirst window.columnLast),
      .ok ())

/-- The same raster in every cell. -/
def plainLoad (word : UInt32) (_ : CopernicusSourceAddress) : SourceLoad :=
  .ready (plainSource word) false

def plainImage (word : UInt32) (_ : CopernicusSourceAddress)
    (_ _ : Nat) : UInt32 :=
  word

/-- Rows of one value show an image of it. -/
theorem plainRuns_perm (word : UInt32) (window : RasterWindow) :
    (((Steps.values window.rowFirst window.rowLast 1).map
      (imageRun (fun _ _ => word) window.columnFirst
        window.columnLast)).flatMap RowRun.pixels).Perm
      (window.cells.map (cellFloat fun _ _ => word)) := by
  unfold RasterWindow.cells
  rw [List.map_flatMap, List.flatMap_map]
  refine List.Perm.flatMap_left _ fun row _ => ?_
  rw [imageRun_pixels, List.map_map]
  rfl

theorem averagedSources_plain (word : UInt32) :
    AveragedSources (plainLoad word) (plainImage word) where
  width := by
    intro address raster downloaded hload
    cases hload
    exact le_refl _
  height := by
    intro address raster downloaded hload
    cases hload
    rfl
  shows := by
    intro address raster downloaded hload window runs _ _ _ _ _ _ hvisit
    cases hload
    cases hvisit
    exact plainRuns_perm word window

end AowisMap.Terrain
