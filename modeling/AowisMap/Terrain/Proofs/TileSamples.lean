/-
What the samples of a tile depend on.

# The set of rasters

A sample depends on the set of rasters only by whether that has failed
(`sampleElevation_congr`), so the samples of a tile that is not given up
are each what a fresh set makes of them (`sampleTile_eq`).

# Failures

A set fails if a source cell fails to load or to be read. If none does, a
tile is sampled, with or without data (`sampleTile_readable`).
-/
import AowisMap.Terrain.TileSampling

namespace AowisMap.Terrain

open Lib

-- ============================================================ the rasters

namespace CopernicusRasterSet

variable {load : CopernicusSourceAddress → SourceLoad}
  {rasters rasters' : CopernicusRasterSet}

/-- Which raster a set hands out depends on the cell alone. -/
theorem raster_congr (address : CopernicusSourceAddress) :
    (rasters.raster load address).1 = (rasters'.raster load address).1 := by
  unfold raster
  cases load address with
  | unavailable => rfl
  | failed status errorMessage => rfl
  | ready raster downloaded => rfl

/-- A raster that is there fails nothing. -/
theorem raster_status {address : CopernicusSourceAddress}
    {source : SourceRaster}
    (h : (rasters.raster load address).1 = some source) :
    (rasters.raster load address).2.fatalStatus = rasters.fatalStatus := by
  unfold raster at h ⊢
  cases hload : load address with
  | unavailable => rfl
  | failed status errorMessage =>
      rw [hload] at h
      cases h
  | ready raster downloaded => rfl

/-- So does the value of a pixel, -/
theorem sourceGridValue_congr (address : CopernicusSourceAddress)
    (width height column row : Int) :
    (rasters.sourceGridValue load address width height column row).1
      = (rasters'.sourceGridValue load address width height column row).1 := by
  unfold sourceGridValue
  dsimp only
  have hsource := @raster_congr load rasters rasters'
  have hraster := hsource (sourceAddressForCoordinate
    (((address.southDeg + 1 : Int) : Rat) - (row : Rat) / (height : Rat))
    ((address.westDeg : Rat) + (column : Rat) / (width : Rat)))
  revert hraster
  generalize rasters.raster load _ = result
  generalize rasters'.raster load _ = result'
  obtain ⟨source, after⟩ := result
  obtain ⟨source', after'⟩ := result'
  intro hraster
  dsimp only at hraster
  subst hraster
  cases source with
  | none => rfl
  | some raster =>
      dsimp only
      split
      · rfl
      · split
        · rfl
        · rfl

section

variable {K : Type*} [Field K] [LinearOrder K] [FloorRing K]

omit [FloorRing K] in
/-- and the sum over the pixels around a point. -/
theorem weightedValue_congr (address : CopernicusSourceAddress)
    (width height : Int) :
    ∀ {pixels : List (K × Int × Int)} {weighted : K}
      {rasters rasters' : CopernicusRasterSet},
      (weightedValue load address width height rasters weighted pixels).1
        = (weightedValue load address width height rasters' weighted
          pixels).1 := by
  intro pixels
  induction pixels with
  | nil => exact rfl
  | cons pixel rest ih =>
      intro weighted rasters rasters'
      obtain ⟨weight, column, row⟩ := pixel
      unfold weightedValue
      by_cases hweight : weight ≤ epsilon
      · rw [if_pos hweight, if_pos hweight]
        exact ih
      · rw [if_neg hweight, if_neg hweight]
        have hvalue := @sourceGridValue_congr load rasters rasters' address
          width height column row
        revert hvalue
        generalize rasters.sourceGridValue load address width height column
          row = result
        generalize rasters'.sourceGridValue load address width height column
          row = result'
        obtain ⟨value, after⟩ := result
        obtain ⟨value', after'⟩ := result'
        intro hvalue
        dsimp only at hvalue
        subst hvalue
        cases value with
        | none => rfl
        | some bits => exact ih

variable {latitudeDeg longitudeDeg : K}

/-- A point sample depends on whether the set has failed. -/
theorem sample_congr (h : rasters.fatalStatus = rasters'.fatalStatus) :
    (rasters.sample load latitudeDeg longitudeDeg).1
      = (rasters'.sample load latitudeDeg longitudeDeg).1 := by
  unfold sample
  rw [h]
  split
  · rfl
  · have hraster := @raster_congr load rasters rasters'
      (sourceAddressForCoordinate latitudeDeg longitudeDeg)
    revert hraster
    dsimp only
    generalize rasters.raster load _ = result
    generalize rasters'.raster load _ = result'
    obtain ⟨source, after⟩ := result
    obtain ⟨source', after'⟩ := result'
    intro hraster
    dsimp only at hraster
    subst hraster
    cases source with
    | none => rfl
    | some raster => exact weightedValue_congr _ _ _

/-- A pixel size depends on whether the set has failed. -/
theorem pixelSizeAt_congr (h : rasters.fatalStatus = rasters'.fatalStatus) :
    (rasters.pixelSizeAt load latitudeDeg longitudeDeg).1
      = (rasters'.pixelSizeAt load latitudeDeg longitudeDeg).1 := by
  unfold pixelSizeAt
  rw [h]
  split
  · rfl
  · have hraster := @raster_congr load rasters rasters'
      (sourceAddressForCoordinate latitudeDeg longitudeDeg)
    revert hraster
    generalize rasters.raster load _ = result
    generalize rasters'.raster load _ = result'
    obtain ⟨source, after⟩ := result
    obtain ⟨source', after'⟩ := result'
    intro hraster
    dsimp only at hraster
    subst hraster
    cases source with
    | none => rfl
    | some raster => rfl

/-- A pixel size that is found fails nothing. -/
theorem pixelSizeAt_status {size : K × K}
    (h : (rasters.pixelSizeAt load latitudeDeg longitudeDeg).1
      = some size) :
    (rasters.pixelSizeAt load latitudeDeg longitudeDeg).2.fatalStatus
      = rasters.fatalStatus := by
  unfold pixelSizeAt at h ⊢
  by_cases hfatal : rasters.fatalStatus.isSome = true
  · rw [if_pos hfatal] at h ⊢
  · rw [if_neg hfatal] at h ⊢
    have hstatus := @raster_status load rasters
      (sourceAddressForCoordinate latitudeDeg longitudeDeg)
    revert hstatus h
    generalize rasters.raster load _ = result
    obtain ⟨source, after⟩ := result
    intro h hstatus
    cases source with
    | none => cases h
    | some raster => exact hstatus rfl

variable {latitude : K → K → K} {address : TerrainTileAddress}
  {area : Option (AreaSums K)}

/-- A sample depends on the set by whether it has failed. -/
theorem sampleElevation_congr (row column : Nat)
    (h : rasters.fatalStatus = rasters'.fatalStatus) :
    (rasters.sampleElevation load latitude address area row column).1
      = (rasters'.sampleElevation load latitude address area row
        column).1 := by
  unfold sampleElevation
  cases area with
  | none => exact sample_congr h
  | some area =>
      have hsize := @pixelSizeAt_congr load rasters rasters' K _ _ _
        (sampleLatitude latitude address row)
        (sampleLongitude address column) h
      have hstatus := fun size => @pixelSizeAt_status load rasters K _ _ _
        (sampleLatitude latitude address row)
        (sampleLongitude address column) size
      have hstatus' := fun size => @pixelSizeAt_status load rasters' K _ _ _
        (sampleLatitude latitude address row)
        (sampleLongitude address column) size
      revert hsize hstatus hstatus'
      dsimp only
      generalize rasters.pixelSizeAt load (sampleLatitude latitude address row)
        (sampleLongitude address column) = result
      generalize rasters'.pixelSizeAt load
        (sampleLatitude latitude address row)
        (sampleLongitude address column) = result'
      obtain ⟨size, after⟩ := result
      obtain ⟨size', after'⟩ := result'
      intro hsize hstatus hstatus'
      dsimp only at hsize hstatus hstatus'
      subst hsize
      cases size with
      | none =>
          -- a box without a pixel size is never sampled as a point
          dsimp only
          split
          · rfl
          · split
            · rename_i hcovers
              cases hcovers
            · rfl
      | some size =>
          have hafter : after.fatalStatus = after'.fatalStatus := by
            rw [hstatus size rfl, hstatus' size rfl, h]
          have hchoice : ∀ (covers : Bool) (weighted : Prop)
              [Decidable weighted] (average : K),
              (if (covers && decide weighted) = true then
                (some average, after)
              else if covers = false then
                after.sample load (sampleLatitude latitude address row)
                  (sampleLongitude address column)
              else (none, after)).1
              = (if (covers && decide weighted) = true then
                (some average, after')
              else if covers = false then
                after'.sample load (sampleLatitude latitude address row)
                  (sampleLongitude address column)
              else (none, after')).1 := by
            intro covers weighted _ average
            split
            · rfl
            · split
              · exact sample_congr hafter
              · rfl
          exact hchoice _ _ _

/-- The samples of a tile that is not given up, each for itself. -/
theorem sampleElevations_eq :
    ∀ {samples : List (Nat × Nat)} {rasters : CopernicusRasterSet},
      rasters.fatalStatus = none →
      (sampleElevations load latitude address area rasters
        samples).2.fatalStatus = none →
      (sampleElevations load latitude address area rasters samples).1
        = samples.map fun sample => (({} : CopernicusRasterSet).sampleElevation
          load latitude address area sample.1 sample.2).1 := by
  intro samples
  induction samples with
  | nil => exact fun _ _ => rfl
  | cons sample rest ih =>
      intro rasters hstart hend
      obtain ⟨row, column⟩ := sample
      have hsample := @sampleElevation_congr load rasters {} K _ _ _ latitude
        address area row column hstart
      rw [List.map_cons, ← hsample]
      unfold sampleElevations at hend ⊢
      revert hend
      generalize rasters.sampleElevation load latitude address area row
        column = result
      obtain ⟨elevation, after⟩ := result
      dsimp only
      cases hstatus : after.fatalStatus with
      | some status =>
          simp only [Option.isSome_some, if_true]
          intro hend
          rw [hstatus] at hend
          cases hend
      | none =>
          simp only [Option.isSome_none, Bool.false_eq_true, if_false]
          intro hend
          rw [ih hstatus hend]

/-- Averages that succeed leave a set that has not failed. -/
theorem accumulateCells_status {longitudeEdges latitudeEdges : List K} :
    ∀ {cells : List (Int × Int)} {area area' : AreaSums K}
      {rasters rasters' : CopernicusRasterSet}, rasters.fatalStatus = none →
      accumulateCells load longitudeEdges latitudeEdges cells area rasters
        = (true, area', rasters') → rasters'.fatalStatus = none := by
  intro cells
  induction cells with
  | nil =>
      intro area area' rasters rasters' hstart h
      cases h
      exact hstart
  | cons cell rest ih =>
      intro area area' rasters rasters' hstart h
      obtain ⟨cellSouth, unwrappedWest⟩ := cell
      unfold accumulateCells at h
      split at h
      · rename_i area₁ rasters₁ hcell
        refine ih ?_ h
        unfold accumulateCell at hcell
        dsimp only at hcell
        split at hcell
        · cases hcell
        · rename_i hstatus
          rw [Bool.not_eq_true, Option.isSome_eq_false_iff,
            Option.isNone_iff_eq_none] at hstatus
          split at hcell
          · cases hcell
            exact hstatus
          · split at hcell
            · cases hcell
              exact hstatus
            · split at hcell
              · cases hcell
                exact hstatus
              · cases hcell
      · cases h

/-- The samples of a tile that is sampled: of its averages, below the
native zoom, or of points. -/
theorem sampleTile_eq {elevations : List (Option K)}
    (h : (sampleTile load latitude address).1 = some elevations) :
    ∃ area : Option (AreaSums K),
      (normalizedTileUsesAreaAverage address = true →
        ∃ sums rasters, area = some sums ∧
          accumulateAreaAverages load (longitudeEdges address)
            (latitudeEdges latitude address) {} = (true, sums, rasters)) ∧
      (normalizedTileUsesAreaAverage address = false → area = none) ∧
      elevations = gridSamples.map fun sample =>
        (({} : CopernicusRasterSet).sampleElevation load latitude address area
          sample.1 sample.2).1 := by
  have hsampled : ∀ {area : Option (AreaSums K)}
      {rasters : CopernicusRasterSet}, rasters.fatalStatus = none →
      (if (sampleElevations load latitude address area rasters
          gridSamples).2.fatalStatus.isSome = true then
        ((none : Option (List (Option K))), (sampleElevations load latitude
          address area rasters gridSamples).2)
      else (some (sampleElevations load latitude address area rasters
          gridSamples).1, (sampleElevations load latitude address area rasters
          gridSamples).2)).1 = some elevations →
      elevations = gridSamples.map fun sample =>
        (({} : CopernicusRasterSet).sampleElevation load latitude address area
          sample.1 sample.2).1 := by
    intro area rasters hstart h
    split at h
    · cases h
    · rename_i hend
      rw [Bool.not_eq_true, Option.isSome_eq_false_iff,
        Option.isNone_iff_eq_none] at hend
      rw [← sampleElevations_eq hstart hend]
      exact (Option.some.inj h).symm
  unfold sampleTile at h
  dsimp only at h
  split at h
  · rename_i harea
    split at h
    · cases h
    · rename_i sums rasters haverages
      refine ⟨some sums, fun _ => ⟨sums, rasters, rfl, haverages⟩,
        fun hnative => ?_, hsampled (accumulateCells_status rfl haverages) h⟩
      rw [harea] at hnative
      cases hnative
  · rename_i hnative
    exact ⟨none, fun harea => absurd harea hnative, fun _ => rfl,
      hsampled rfl h⟩

end

end CopernicusRasterSet

-- ============================================================ readable

/-- No source cell fails to load or to be read. -/
structure ReadableSources (load : CopernicusSourceAddress → SourceLoad) :
    Prop where
  loads : ∀ address status errorMessage,
    load address ≠ .failed status errorMessage
  pixels : ∀ {address raster downloaded},
    load address = .ready raster downloaded →
      ∀ column row, (raster.pixel column row).2 = ""
  windows : ∀ {address raster downloaded},
    load address = .ready raster downloaded →
      ∀ window, (raster.visitWindow window).2 = .ok ()

namespace CopernicusRasterSet

section

variable {load : CopernicusSourceAddress → SourceLoad}
  {rasters : CopernicusRasterSet}

/-- Sources that can be read are no fatal failure. -/
theorem raster_readable (hreadable : ReadableSources load)
    (address : CopernicusSourceAddress) :
    (rasters.raster load address).2.fatalStatus = rasters.fatalStatus := by
  unfold raster
  cases hload : load address with
  | unavailable => rfl
  | failed status errorMessage =>
      exact absurd hload (hreadable.loads address status errorMessage)
  | ready raster downloaded => rfl

/-- A pixel of one is none either, -/
theorem sourceGridValue_readable (hreadable : ReadableSources load)
    (address : CopernicusSourceAddress) (width height column row : Int) :
    (rasters.sourceGridValue load address width height column
      row).2.fatalStatus = rasters.fatalStatus := by
  unfold sourceGridValue
  dsimp only
  have hstatus := @raster_readable load rasters hreadable
    (sourceAddressForCoordinate
      (((address.southDeg + 1 : Int) : Rat) - (row : Rat) / (height : Rat))
      ((address.westDeg : Rat) + (column : Rat) / (width : Rat)))
  unfold raster at hstatus ⊢
  cases hload : load (sourceAddressForCoordinate
    (((address.southDeg + 1 : Int) : Rat) - (row : Rat) / (height : Rat))
    ((address.westDeg : Rat) + (column : Rat) / (width : Rat))) with
  | unavailable => rfl
  | failed status errorMessage =>
      exact absurd hload (hreadable.loads _ status errorMessage)
  | ready raster downloaded =>
      dsimp only
      split
      · rfl
      · rename_i pixelError hpixel
        have herror := hreadable.pixels hload
        have hempty : pixelError = "" := by
          rw [← herror, hpixel]
        rw [if_pos hempty]

section

variable {K : Type*} [Field K] [LinearOrder K] [FloorRing K]

omit [FloorRing K] in
/-- nor are the pixels around a point, one after the other, -/
theorem weightedValue_readable (hreadable : ReadableSources load)
    (address : CopernicusSourceAddress) (width height : Int) :
    ∀ {pixels : List (K × Int × Int)} {weighted : K}
      {rasters : CopernicusRasterSet},
      (weightedValue load address width height rasters weighted
        pixels).2.fatalStatus = rasters.fatalStatus := by
  intro pixels
  induction pixels with
  | nil => exact rfl
  | cons pixel rest ih =>
      intro weighted rasters
      obtain ⟨weight, column, row⟩ := pixel
      unfold weightedValue
      by_cases hweight : weight ≤ epsilon
      · rw [if_pos hweight]
        exact ih
      · rw [if_neg hweight]
        have hstatus := @sourceGridValue_readable load rasters hreadable
          address width height column row
        revert hstatus
        generalize rasters.sourceGridValue load address width height column
          row = result
        obtain ⟨value, after⟩ := result
        intro hstatus
        cases value with
        | none => exact hstatus
        | some bits => exact ih.trans hstatus

/-- and so a sample is taken without one. -/
theorem sample_readable (hreadable : ReadableSources load)
    (latitudeDeg longitudeDeg : K) :
    (rasters.sample load latitudeDeg longitudeDeg).2.fatalStatus
      = rasters.fatalStatus := by
  unfold sample
  split
  · rfl
  · have hstatus := @raster_readable load rasters hreadable
      (sourceAddressForCoordinate latitudeDeg longitudeDeg)
    revert hstatus
    dsimp only
    generalize rasters.raster load _ = result
    obtain ⟨source, after⟩ := result
    intro hstatus
    cases source with
    | none => exact hstatus
    | some raster =>
        exact (weightedValue_readable hreadable _ _ _).trans hstatus

/-- The size of a pixel reads one raster. -/
theorem pixelSizeAt_readable (hreadable : ReadableSources load)
    (latitudeDeg longitudeDeg : K) :
    (rasters.pixelSizeAt load latitudeDeg longitudeDeg).2.fatalStatus
      = rasters.fatalStatus := by
  unfold pixelSizeAt
  split
  · rfl
  · have hstatus := @raster_readable load rasters hreadable
      (sourceAddressForCoordinate latitudeDeg longitudeDeg)
    revert hstatus
    generalize rasters.raster load _ = result
    obtain ⟨source, after⟩ := result
    intro hstatus
    cases source with
    | none => exact hstatus
    | some raster => exact hstatus

variable {latitude : K → K → K} {address : TerrainTileAddress}
  {area : Option (AreaSums K)}

/-- A sample of the tile is an average that is there already, or a point. -/
theorem sampleElevation_readable (hreadable : ReadableSources load)
    (row column : Nat) :
    (rasters.sampleElevation load latitude address area row
      column).2.fatalStatus = rasters.fatalStatus := by
  unfold sampleElevation
  cases area with
  | none => exact sample_readable hreadable _ _
  | some area =>
      have hstatus := @pixelSizeAt_readable load rasters K _ _ _ hreadable
        (sampleLatitude latitude address row) (sampleLongitude address column)
      revert hstatus
      dsimp only
      generalize rasters.pixelSizeAt load (sampleLatitude latitude address row)
        (sampleLongitude address column) = result
      obtain ⟨size, after⟩ := result
      intro hstatus
      dsimp only at hstatus
      have hchoice : ∀ (covers : Bool) (weighted : Prop)
          [Decidable weighted] (average : K),
          (if (covers && decide weighted) = true then (some average, after)
          else if covers = false then
            after.sample load (sampleLatitude latitude address row)
              (sampleLongitude address column)
          else (none, after)).2.fatalStatus = rasters.fatalStatus := by
        intro covers weighted _ average
        split
        · exact hstatus
        · split
          · exact (sample_readable hreadable _ _).trans hstatus
          · exact hstatus
      cases size with
      | none => exact hchoice true _ _
      | some size => exact hchoice _ _ _

/-- No failure ends the loop over the samples early. -/
theorem sampleElevations_readable (hreadable : ReadableSources load) :
    ∀ {samples : List (Nat × Nat)} {rasters : CopernicusRasterSet},
      rasters.fatalStatus = none →
      (sampleElevations load latitude address area rasters
        samples).2.fatalStatus = none := by
  intro samples
  induction samples with
  | nil => exact fun hstart => hstart
  | cons sample rest ih =>
      intro rasters hstart
      obtain ⟨row, column⟩ := sample
      have hstatus := @sampleElevation_readable load rasters K _ _ _ latitude
        address area hreadable row column
      unfold sampleElevations
      revert hstatus
      generalize rasters.sampleElevation load latitude address area row
        column = result
      obtain ⟨elevation, after⟩ := result
      intro hstatus
      dsimp only at hstatus ⊢
      rw [hstart] at hstatus
      rw [hstatus, Option.isSome_none, if_neg Bool.false_ne_true]
      exact ih hstatus

/-- Nor the loop over the cells of the averages. -/
theorem accumulateCells_readable (hreadable : ReadableSources load)
    {longitudeEdges latitudeEdges : List K} :
    ∀ {cells : List (Int × Int)} {area : AreaSums K}
      {rasters : CopernicusRasterSet}, rasters.fatalStatus = none →
      (accumulateCells load longitudeEdges latitudeEdges cells area
        rasters).1 = true := by
  intro cells
  induction cells with
  | nil => exact fun _ => rfl
  | cons cell rest ih =>
      intro area rasters hstart
      obtain ⟨cellSouth, unwrappedWest⟩ := cell
      have hcell : (accumulateCell load longitudeEdges latitudeEdges cellSouth
          unwrappedWest area rasters).1 = true ∧
          (accumulateCell load longitudeEdges latitudeEdges cellSouth
            unwrappedWest area rasters).2.2.fatalStatus = none := by
        unfold accumulateCell raster
        cases hload : load ⟨cellSouth, wrappedSourceWest unwrappedWest⟩ with
        | unavailable =>
            dsimp only
            rw [hstart, Option.isSome_none, if_neg Bool.false_ne_true]
            exact ⟨rfl, rfl⟩
        | failed status errorMessage =>
            exact absurd hload (hreadable.loads _ status errorMessage)
        | ready raster downloaded =>
            dsimp only
            rw [hstart, Option.isSome_none, if_neg Bool.false_ne_true]
            split
            · exact ⟨rfl, rfl⟩
            · rw [hreadable.windows hload]
              exact ⟨rfl, rfl⟩
      unfold accumulateCells
      revert hcell
      generalize accumulateCell load longitudeEdges latitudeEdges cellSouth
        unwrappedWest area rasters = result
      obtain ⟨succeeded, area', after⟩ := result
      intro hcell
      obtain ⟨hsucceeded, hafter⟩ := hcell
      dsimp only at hsucceeded hafter
      subst hsucceeded
      exact ih hafter

/-- Where nothing fails, a tile is sampled. -/
theorem sampleTile_readable (hreadable : ReadableSources load) :
    ∃ elevations, (sampleTile load latitude address).1 = some elevations := by
  unfold sampleTile
  dsimp only
  split
  · have haverages := @accumulateCells_readable load K _ _ _ hreadable
      (longitudeEdges address) (latitudeEdges latitude address)
      (candidateCells (longitudeEdges address)
        (latitudeEdges latitude address)) AreaSums.zero {} rfl
    split
    · rename_i hfailed
      have hfirst := congrArg Prod.fst hfailed
      unfold accumulateAreaAverages at hfirst
      rw [haverages] at hfirst
      cases hfirst
    · rename_i area after hsums
      have hafter := accumulateCells_status rfl hsums
      rw [sampleElevations_readable hreadable hafter, Option.isSome_none,
        if_neg Bool.false_ne_true]
      exact ⟨_, rfl⟩
  · have hafter := @sampleElevations_readable load K _ _ _ latitude address
      none hreadable gridSamples {} rfl
    rw [hafter, Option.isSome_none, if_neg Bool.false_ne_true]
    exact ⟨_, rfl⟩

end

end

end CopernicusRasterSet

end AowisMap.Terrain
