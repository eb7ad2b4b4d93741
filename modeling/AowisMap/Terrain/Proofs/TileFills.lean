/-
When the tiles that are stored lack nothing for want of a download.

# What can be missing

A stored tile stays, whatever it was made of. It is to be made of sources
that are all there, or that the upstream has answered it does not have
(`StoredTile.Complete`).

# When it is not

The CPU worker never downloads. What it fills is complete if the tile's own
acquisition is done, or a check has found its sources, and neither is
outdated (`Prepared`). An acquisition does nothing for a tile that has a
file, even a damaged one, nor for the coarser tiles of an elevation; and a
call with the network downloads no cell it does not ask for.
-/
import AowisMap.Terrain.TileFills
import AowisMap.Terrain.Proofs.SourceStages
import AowisMap.Terrain.Proofs.TileSamples

namespace AowisMap.Terrain

open Lib

-- =========================================================== the property

/-- A tile that lacks nothing for want of a download: when it was stored,
each planned cell was there or had been answered by a 404, and no cell was
left out of it without that. -/
structure StoredTile.Complete (latitude : ℝ → ℝ → ℝ) (tile : StoredTile) :
    Prop where
  sources : ∀ address ∈ (SourceRequest.tile tile.fill.key).planned latitude,
    (tile.sources.disk address).isLocal = true ∨
      tile.sources.isSourceConfirmedUnavailable address = true ∧
        ∃ answer ∈ (tile.sources.disk address).answered, answer.NotFound
  samples : ∀ address ∈
    (SourceRequest.tile tile.fill.key).asked latitude tile.fill.load,
    tile.fill.unconfirmed address = false

/-- An acquisition for the tile, or a check that has found its sources, is
done and stands; or the sources are there. -/
def Prepared (latitude : ℝ → ℝ → ℝ)
    (openRaster : CopernicusSourceAddress → Bytes →
      Except String SourceRaster)
    (sources : SourceCache) (key : TileStore.TileKey) : Prop :=
  (∃ id acquisition result, sources.acquisitions id = some acquisition ∧
    acquisition.request = .tile key ∧ acquisition.result = some result ∧
    result.status = .ready ∧
    ∀ relied ∈ acquisition.reliedOn, sources.now < relied.2) ∨
  (sources.localSources openRaster).tileSourcesAvailableLocally latitude key
    = true

/-- Tiles are sampled without the network, and stored, where they are
prepared, and no file is taken away that a request has planned. -/
def InOrder (latitude : ℝ → ℝ → ℝ)
    (openRaster : CopernicusSourceAddress → Bytes →
      Except String SourceRaster)
    (action : TerrainCachesAction) (caches : TerrainCaches) : Prop :=
  match action with
  | .sources action => KeepsPlanned latitude action caches.sources
  | .sample id => ∀ fill, caches.fills id = some fill →
      fill.allowRemoteFetch = false →
        Prepared latitude openRaster caches.sources fill.key
  | .store id saved => saved = true → ∀ fill, caches.fills id = some fill →
      Prepared latitude openRaster caches.sources fill.key
  | .replaceSource address _ => ∀ id acquisition,
      caches.sources.acquisitions id = some acquisition →
        address ∉ acquisition.request.planned latitude
  | _ => True

-- ========================================================== the invariant

/-- What holds of a fill. -/
structure FillInv (fill : TileFill) : Prop where
  sizes : PlannedSizes fill.load
  confirmed : ∀ address ∈
    (SourceRequest.tile fill.key).planned tileYToLatitudeDeg,
    fill.unconfirmed address = false

/-- What holds between the steps. -/
structure TerrainCachesInv (caches : TerrainCaches) : Prop where
  sources : SourceCacheInv tileYToLatitudeDeg caches.sources
  fills : ∀ {id fill}, caches.fills id = some fill → FillInv fill
  stored : ∀ tile ∈ caches.stored, tile.Complete tileYToLatitudeDeg

section

variable {openRaster : CopernicusSourceAddress → Bytes →
    Except String SourceRaster}
  {target : CopernicusSourceAddress → SourceTarget}
  {sources : SourceCache} {caches after : TerrainCaches}
  {key : TileStore.TileKey} {address : CopernicusSourceAddress}

/-- What the check finds is a file with content. -/
theorem isLocal_of_available
    (h : (sources.localSources openRaster).sourceCellAvailableLocally address
      = true) : (sources.disk address).isLocal = true := by
  unfold LocalSources.sourceCellAvailableLocally SourceCache.localSources at h
  dsimp only at h
  split at h
  · assumption
  · cases h

/-- The planned cells of a tile that is prepared. -/
theorem Prepared.available (hinv : SourceCacheInv tileYToLatitudeDeg sources)
    (h : Prepared tileYToLatitudeDeg openRaster sources key)
    (hplanned : address ∈
      (SourceRequest.tile key).planned tileYToLatitudeDeg) :
    (sources.disk address).isLocal = true ∨
      sources.isSourceConfirmedUnavailable address = true := by
  rcases h with
    ⟨id, acquisition, result, hacquisition, hrequest, hresult, hready, hfresh⟩ |
    havailable
  · rw [← hrequest] at hplanned
    exact (hinv.acquisition hacquisition).available hresult hready hfresh
      hplanned
  · have hcell := @SourceRequest.available_of_availableLocally _ (.tile key)
      havailable address hplanned
    exact hcell.imp_left isLocal_of_available

-- ============================================================= the fills

/-- Nothing is left out of a prepared tile. -/
theorem sampleLocal_inv {fill : TileFill}
    (hsizes : ∀ address bytes raster,
      openRaster address bytes = .ok raster → raster.Planned)
    (hinv : SourceCacheInv tileYToLatitudeDeg sources)
    (hprepared : Prepared tileYToLatitudeDeg openRaster sources fill.key) :
    FillInv (fill.sampleLocal (sources.localSources openRaster)) where
  sizes := localSources_planned hsizes
  confirmed := by
    intro address hplanned
    show (!sources.isSourceConfirmedUnavailable address &&
      ((sources.localSources openRaster).file address).isNone) = false
    rcases hprepared.available hinv hplanned with hlocal | hconfirmed
    · have hfile : ((sources.localSources openRaster).file address).isNone
          = false := by
        unfold SourceCache.localSources
        dsimp only
        rw [if_pos hlocal, Option.isNone_map]
        unfold SourceDisk.isLocal at hlocal
        cases hfinal : (sources.disk address).finalFile with
        | none =>
            rw [hfinal] at hlocal
            cases hlocal
        | some bytes => rfl
      rw [hfile, Bool.and_false]
    · rw [hconfirmed]
      rfl

/-- A raster that is loaded is of the planned size. -/
theorem loadedSource_planned
    (hsizes : ∀ address bytes raster,
      openRaster address bytes = .ok raster → raster.Planned)
    {disk : SourceDisk} {result : SourceLoadResult} {raster : SourceRaster}
    {downloaded : Bool}
    (h : loadedSource openRaster disk address result
      = .ready raster downloaded) : raster.Planned := by
  unfold loadedSource at h
  split at h
  · cases h
  · cases h
  · cases h
  · cases h
  · split at h
    · rename_i opened hopened
      cases h
      obtain ⟨bytes, -, hraster⟩ := Option.map_eq_some_iff.1 hopened
      exact hsizes _ _ _ hraster
    · cases h
    · cases h

/-- One more cell that is confirmed, or there. -/
theorem FillInv.loading {fill : TileFill} (h : FillInv fill)
    {source : SourceLoad}
    (hsource : ∀ raster downloaded, source = .ready raster downloaded →
      raster.Planned) : FillInv (fill.loading address source false) where
  sizes := by
    intro other raster downloaded hload
    have hload : Function.update fill.load address source other
      = .ready raster downloaded := hload
    by_cases hother : other = address
    · rw [hother, Function.update_self] at hload
      exact hsource raster downloaded hload
    · rw [Function.update_of_ne hother] at hload
      exact h.sizes other raster downloaded hload
  confirmed := by
    intro other hplanned
    show Function.update fill.unconfirmed address false other = false
    by_cases hother : other = address
    · rw [hother, Function.update_self]
    · rw [Function.update_of_ne hother]
      exact h.confirmed other hplanned

-- ============================================================= the steps

theorem withFill_fills (caches : TerrainCaches) (id : Nat) (fill : TileFill) :
    (caches.withFill id fill).fills id = some fill := by
  unfold TerrainCaches.withFill
  exact Function.update_self _ _ _

/-- What does not touch the fills and the history. -/
theorem TerrainCachesInv.withSources (h : TerrainCachesInv caches)
    (hsources : SourceCacheInv tileYToLatitudeDeg sources) :
    TerrainCachesInv { caches with sources := sources } :=
  ⟨hsources, h.fills, h.stored⟩

theorem TerrainCachesInv.withFill (h : TerrainCachesInv caches) {id : Nat}
    {fill : TileFill} (hfill : FillInv fill) :
    TerrainCachesInv (caches.withFill id fill) where
  sources := h.sources
  fills := by
    intro other found hfound
    have hfound : Function.update caches.fills id (some fill) other
      = some found := hfound
    by_cases hother : other = id
    · rw [hother, Function.update_self] at hfound
      exact Option.some.inj hfound ▸ hfill
    · rw [Function.update_of_ne hother] at hfound
      exact h.fills hfound
  stored := h.stored

/-- The confirmations of a list of cells that have not ended. -/
theorem mem_confirmations {addresses : List CopernicusSourceAddress}
    {retryAfter : Nat} :
    (address, retryAfter) ∈ sources.confirmations addresses ↔
      address ∈ addresses ∧
        sources.unavailableUntil address = some retryAfter ∧
        sources.now < retryAfter := by
  unfold SourceCache.confirmations
  simp only [List.mem_filterMap, Option.map_eq_some_iff,
    Option.filter_eq_some_iff, decide_eq_true_eq, Prod.mk.injEq]
  constructor
  · rintro ⟨other, hmem, retry, hretry, rfl, rfl⟩
    exact ⟨hmem, hretry⟩
  · rintro ⟨hmem, hretry⟩
    exact ⟨address, hmem, retryAfter, hretry, rfl, rfl⟩

/-- A check that finds the sources of a tile is a finished acquisition. -/
theorem checkedRequest_inv
    (havailable : (sources.localSources openRaster).tileSourcesAvailableLocally
      tileYToLatitudeDeg key = true) :
    AcquisitionInv tileYToLatitudeDeg sources
      (checkedRequest tileYToLatitudeDeg sources key) where
  covered := by
    intro address hplanned
    right
    have hplanned : address ∈ (SourceRequest.tile key).planned
      tileYToLatitudeDeg := hplanned
    rcases @SourceRequest.available_of_availableLocally _ (.tile key)
      havailable address hplanned with hlocal | hconfirmed
    · exact Or.inl (isLocal_of_available hlocal)
    · right
      have hconfirmed : (sources.unavailableUntil address).any
        (fun retryAfter => decide (sources.now < retryAfter)) = true :=
          hconfirmed
      cases hretry : sources.unavailableUntil address with
      | none =>
          rw [hretry] at hconfirmed
          cases hconfirmed
      | some retryAfter =>
          rw [hretry] at hconfirmed
          exact ⟨retryAfter, mem_confirmations.2
            ⟨hplanned, hretry, of_decide_eq_true hconfirmed⟩⟩
  relied := by
    intro address retryAfter hrelied _
    exact ⟨retryAfter, (mem_confirmations.1 hrelied).2.1, le_refl _⟩
  finished _ _ := rfl

/-- A tile that is stored while it is prepared is complete. -/
theorem complete_of_prepared {fill : TileFill}
    (hinv : SourceCacheInv tileYToLatitudeDeg sources) (hfill : FillInv fill)
    (hprepared : Prepared tileYToLatitudeDeg openRaster sources fill.key) :
    StoredTile.Complete tileYToLatitudeDeg ⟨fill, sources⟩ where
  sources := by
    intro address hplanned
    refine (hprepared.available hinv hplanned).imp_right fun hconfirmed => ?_
    exact ⟨hconfirmed, hinv.record.answered hconfirmed⟩
  samples := by
    intro address hasked
    exact hfill.confirmed address
      (SourceRequest.asked_subset hfill.sizes (.tile fill.key) hasked)

/-- What is stored. -/
theorem storeFill_inv (h : TerrainCachesInv caches) {id : Nat}
    {fill : TileFill} (hfill : caches.fills id = some fill) {saved : Bool}
    (hprepared : saved = true →
      Prepared tileYToLatitudeDeg openRaster caches.sources fill.key) :
    TerrainCachesInv (storeFill tileYToLatitudeDeg caches id fill saved) := by
  have hover : TerrainCachesInv { caches with
      fills := Function.update caches.fills id none } := by
    refine ⟨h.sources, ?_, h.stored⟩
    intro other found hfound
    have hfound : Function.update caches.fills id none other = some found :=
      hfound
    by_cases hother : other = id
    · rw [hother, Function.update_self] at hfound
      cases hfound
    · rw [Function.update_of_ne hother] at hfound
      exact h.fills hfound
  unfold storeFill
  dsimp only
  split
  · exact hover
  · split
    · rename_i hstored
      rw [Bool.and_eq_true] at hstored
      refine ⟨hover.sources, hover.fills, ?_⟩
      intro tile htile
      rcases List.mem_cons.1 htile with rfl | hold
      · exact complete_of_prepared h.sources (h.fills hfill)
          (hprepared hstored.1)
      · exact h.stored tile hold
    · exact hover

/-- Every step that is in order keeps the invariant. -/
theorem terrainCachesStep_inv
    (hsizes : ∀ address bytes raster,
      openRaster address bytes = .ok raster → raster.Planned)
    {action : TerrainCachesAction} (h : TerrainCachesInv caches)
    (horder : InOrder tileYToLatitudeDeg openRaster action caches)
    (hstep : terrainCachesStep openRaster tileYToLatitudeDeg target action
      caches = some after) : TerrainCachesInv after := by
  cases action with
  | sources action =>
      obtain ⟨sources, hsources, rfl⟩ := Option.map_eq_some_iff.1 hstep
      exact h.withSources (sourceCacheStep_inv h.sources horder hsources)
  | check id key =>
      unfold terrainCachesStep at hstep
      dsimp only at hstep
      split at hstep
      · cases hstep
      · split at hstep
        · cases hstep
          exact h
        · split at hstep
          · rename_i havailable
            cases hstep
            exact h.withSources
              (h.sources.withAcquisition (checkedRequest_inv havailable))
          · cases hstep
            exact h
  | acquire id key cancelRequested =>
      unfold terrainCachesStep at hstep
      dsimp only at hstep
      split at hstep
      · cases hstep
      · split at hstep
        · cases hstep
          exact h
        · cases hstep
          exact h.withSources (h.sources.withAcquisition startAcquisition_inv)
  | fill id key allowRemoteFetch =>
      unfold terrainCachesStep at hstep
      dsimp only at hstep
      split at hstep
      · cases hstep
      · cases hstep
        exact h.withFill ⟨nofun, fun _ _ => rfl⟩
  | raster id address attempt fates =>
      unfold terrainCachesStep at hstep
      dsimp only at hstep
      split at hstep
      · cases hstep
      · rename_i fill hfill
        have hinv := h.fills hfill
        split at hstep
        · cases hstep
        · split at hstep
          · cases hstep
            exact h.withFill (hinv.loading nofun)
          · rcases @loadSource_spec caches.sources target address
                { attempt with allowRemoteFetch := true } fates
                h.sources.record with
              ⟨result, hresult, hloaded⟩ | ⟨disk, hdied⟩
            · have h' := h.withSources (h.sources.grows hloaded.record
                hloaded.grows hloaded.acquisitions)
              revert hstep h' hloaded
              generalize caches.sources.loadSource target address
                { attempt with allowRemoteFetch := true } fates = load
                  at hresult
              obtain ⟨found, sources⟩ := load
              dsimp only at hresult ⊢
              subst hresult
              intro hstep hloaded h'
              cases hstep
              have hconfirmed : (decide
                  (result.status = SourceLoadStatus.unavailable) &&
                    !result.sourceConfirmedUnavailable) = false := by
                cases hunavailable : decide
                    (result.status = SourceLoadStatus.unavailable) with
                | false => rfl
                | true =>
                    rw [(hloaded.unavailable rfl
                      (of_decide_eq_true hunavailable)).1]
                    rfl
              rw [hconfirmed]
              exact h'.withFill (hinv.loading fun _ _ hsource =>
                loadedSource_planned hsizes hsource)
            · rw [hdied] at hstep
              cases hstep
              exact ⟨restarted_inv, nofun, h.stored⟩
  | sample id =>
      unfold terrainCachesStep at hstep
      dsimp only at hstep
      split at hstep
      · cases hstep
      · rename_i fill hfill
        have hinv := h.fills hfill
        split at hstep
        · cases hstep
        · split at hstep
          · rename_i hlocal
            cases hstep
            exact h.withFill
              (sampleLocal_inv hsizes h.sources (horder fill hfill hlocal))
          · split at hstep
            · cases hstep
              exact h.withFill ⟨hinv.sizes, hinv.confirmed⟩
            · cases hstep
  | store id saved =>
      unfold terrainCachesStep at hstep
      dsimp only at hstep
      split at hstep
      · cases hstep
      · rename_i fill hfill
        split at hstep
        · cases hstep
        · cases hstep
          exact storeFill_inv h hfill fun hsaved => horder hsaved fill hfill
  | replaceSource address file =>
      cases hstep
      exact h.withSources (h.sources.replaced horder file)
  | replaceTile key file =>
      cases hstep
      exact ⟨h.sources, h.fills, h.stored⟩

-- ============================================================== the runs

/-- **Stored tiles lack nothing.** In every run of requests, calls within
the process and changes from outside, in any order, in which tiles are
sampled and stored where they are prepared: every tile that was stored was
made of sources that were there or that the upstream does not have. -/
theorem stored_complete {files : CopernicusSourceAddress → SourceDisk}
    {tiles : TileStore.TileKey → Option CachedFile}
    (hsizes : ∀ address bytes raster,
      openRaster address bytes = .ok raster → raster.Planned)
    (hrun : Run (terrainCachesStep openRaster tileYToLatitudeDeg target)
      (InOrder tileYToLatitudeDeg openRaster) (TerrainCaches.init files tiles)
      caches) :
    ∀ tile ∈ caches.stored, tile.Complete tileYToLatitudeDeg := by
  have hinv : TerrainCachesInv caches := by
    refine hrun.invariant
      ⟨⟨⟨nofun, nofun⟩, nofun⟩, nofun, nofun⟩ ?_
    exact fun action before after h horder hstep =>
      terrainCachesStep_inv hsizes h horder hstep
  exact hinv.stored

end
-- ======================================================== a damaged tile

section

variable {K : Type*} [Field K] [LinearOrder K] [FloorRing K]
  [IsStrictOrderedRing K] {latitude : K → K → K}
  {load : CopernicusSourceAddress → SourceLoad} {word : UInt32}

/-- The cell of a sample is planned. -/
theorem sampleCell_planned {address : TerrainTileAddress}
    (hlatitude : MapLatitudes latitude)
    (hvalid : isValidTerrainTileAddress address = true) {row column : Nat}
    (hrow : row ≤ terrainTileCellCount)
    (hcolumn : column ≤ terrainTileCellCount) :
    sourceAddressForCoordinate (sampleLatitude latitude address row)
        (sampleLongitude address column)
      ∈ normalizedTileSourceAddresses latitude address := by
  obtain ⟨hwest, heast, hring, hring'⟩ :=
    @sampleLongitude_bounds K _ _ address _ hvalid column hcolumn
  obtain ⟨hsouth, hnorth, hlow, hhigh⟩ :=
    sampleLatitude_bounds hlatitude hvalid hrow
  exact reaches_planned hsouth hnorth hwest heast
    (onCell hlow hhigh hring hring') reaches_self

/-- The equator belongs to the cells south of it. -/
theorem sourceSouth_equator : sourceSouthForLatitude (0 : K) = -1 := by
  have hround : llround (0 : K) = 0 := by
    have hzero := Rounding.roundAway_intCast (K := K) 0
    rw [Int.cast_zero] at hzero
    exact hzero
  unfold sourceSouthForLatitude
  rw [if_neg (by norm_num), if_neg (by norm_num), hround]
  norm_num

open CopernicusRasterSet in
/-- A point in the corner of a cell has the value of its first pixel. -/
theorem sample_corner
    (hload : load ⟨-1, 0⟩ = .ready (plainSource word) false) :
    (({} : CopernicusRasterSet).sample load (0 : K) 0).1.isSome = true := by
  have hwest : sourceWestForLongitude (0 : K) = 0 := by
    norm_num [sourceWestForLongitude]
  have haddress : sourceAddressForCoordinate (0 : K) 0 = ⟨-1, 0⟩ := by
    unfold sourceAddressForCoordinate
    rw [hwest, sourceSouth_equator]
  have hpixel : ∀ rasters : CopernicusRasterSet,
      (rasters.sourceGridValue load ⟨-1, 0⟩ 600 3600 0 0).1 = some word := by
    intro rasters
    have hcell : sourceAddressForCoordinate
        (((-1 + 1 : Int) : Rat) - ((0 : Int) : Rat) / ((3600 : Int) : Rat))
        (((0 : Int) : Rat) + ((0 : Int) : Rat) / ((600 : Int) : Rat))
        = ⟨-1, 0⟩ := by
      decide +kernel
    unfold sourceGridValue raster
    dsimp only
    rw [hcell, hload]
    rfl
  have hepsilon : ¬ (1 : K) ≤ epsilon := by
    unfold epsilon
    norm_num
  have hepsilon' : (0 : K) ≤ epsilon := by
    unfold epsilon
    positivity
  unfold sample raster
  rw [haddress, if_neg (by decide)]
  dsimp only
  rw [hload]
  dsimp only
  have hx : ((0 : K) - ((0 : Int) : K)) * ((plainSource word).pixelWidth : Int)
      = 0 := by
    rw [Int.cast_zero, sub_zero, zero_mul]
  have hy : (((-1 + 1 : Int) : K) - 0) * ((plainSource word).pixelHeight : Int)
      = 0 := by
    rw [neg_add_cancel, Int.cast_zero, sub_zero, zero_mul]
  rw [hx, hy, Int.floor_zero, max_self, Int.cast_zero, sub_zero,
    min_eq_left zero_le_one, max_self, sub_zero, mul_one, mul_zero, mul_one,
    mul_zero]
  unfold weightedValue
  rw [if_neg hepsilon]
  have hvalue : (CopernicusRasterSet.sourceGridValue load
      { downloadedAnySource := false || false, asked := [⟨-1, 0⟩] } ⟨-1, 0⟩
      (plainSource word).pixelWidth (plainSource word).pixelHeight 0 0).1
      = some word := hpixel _
  revert hvalue
  generalize CopernicusRasterSet.sourceGridValue load
    { downloadedAnySource := false || false, asked := [⟨-1, 0⟩] } ⟨-1, 0⟩
    (plainSource word).pixelWidth (plainSource word).pixelHeight 0 0 = result
  obtain ⟨value, after⟩ := result
  intro hvalue
  dsimp only at hvalue
  subst hvalue
  dsimp only
  unfold weightedValue
  rw [if_pos hepsilon']
  unfold weightedValue
  rw [if_pos hepsilon']
  unfold weightedValue
  rw [if_pos hepsilon']
  rfl

end

/-- A tile of the native zoom whose eastern edge is the prime meridian and
whose northern one the equator. -/
def cornerTile : TileStore.TileKey :=
  ⟨TileStore.Copernicus.copernicusDataset, ⟨14, 8191, 8192⟩⟩

theorem supports_cornerTile :
    TileStore.Copernicus.supportsAddress cornerTile = true := by
  decide

theorem tileCount_corner : (tileCountOf cornerTile.address : ℝ) = 16384 := by
  show (2 : ℝ) ^ 14 = 16384
  norm_num

/-- Its first row lies on the equator, -/
theorem latitude_corner :
    sampleLatitude tileYToLatitudeDeg cornerTile.address 0 = 0 := by
  have hy : (cornerTile.address.y : ℝ) = 8192 := by norm_num [cornerTile]
  unfold sampleLatitude tileYToLatitudeDeg
  rw [tileCount_corner, hy]
  norm_num

/-- and its columns end at the prime meridian. -/
theorem longitude_corner (column : Nat) :
    (sampleLongitude cornerTile.address column : ℝ)
      = ((column : ℝ) / 64 - 1) / 16384 * 360 := by
  have hx : (cornerTile.address.x : ℝ) = 8191 := by norm_num [cornerTile]
  have hcells : (terrainTileCellCount : ℝ) = 64 := by
    have hcells : terrainTileCellCount = 64 := rfl
    rw [hcells]
    norm_num
  unfold sampleLongitude tileXToLongitudeDeg
  rw [tileCount_corner, hx, hcells]
  ring

/-- The cell of its north-western sample is planned. -/
theorem corner_planned :
    (⟨-1, -1⟩ : CopernicusSourceAddress)
      ∈ (SourceRequest.tile cornerTile).planned tileYToLatitudeDeg := by
  have hplanned := @sampleCell_planned ℝ _ _ _ _ _ cornerTile.address
    mapLatitudes_tileYToLatitudeDeg (by decide) 0 0 (by decide) (by decide)
  have hwest : sourceWestForLongitude
      (sampleLongitude cornerTile.address 0 : ℝ) = -1 := by
    rw [longitude_corner]
    unfold sourceWestForLongitude
    rw [if_neg (by norm_num), if_neg (by norm_num), Int.floor_eq_iff]
    norm_num
  have hcell : sourceAddressForCoordinate
      (sampleLatitude tileYToLatitudeDeg cornerTile.address 0)
      (sampleLongitude cornerTile.address 0) = ⟨-1, -1⟩ := by
    unfold sourceAddressForCoordinate
    rw [hwest, latitude_corner, sourceSouth_equator]
  rw [SourceRequest.planned_tile supports_cornerTile, ← hcell]
  exact hplanned

open CopernicusRasterSet in
/-- It has an elevation where its corner is there. -/
theorem corner_sampled {load : CopernicusSourceAddress → SourceLoad}
    {word : UInt32} (hreadable : ReadableSources load)
    (hload : load ⟨-1, 0⟩ = .ready (plainSource word) false) :
    ∃ elevations, (sampleTile load tileYToLatitudeDeg
        cornerTile.address).1 = some elevations ∧
      elevations.any Option.isSome = true := by
  obtain ⟨elevations, h⟩ := @sampleTile_readable _ ℝ _ _ _
    tileYToLatitudeDeg cornerTile.address hreadable
  refine ⟨elevations, h, ?_⟩
  obtain ⟨area, -, hnative, rfl⟩ := sampleTile_eq h
  obtain rfl := hnative (by decide)
  have hmem : (0, 64) ∈ gridSamples :=
    List.mem_flatMap.2 ⟨0, by decide, List.mem_map_of_mem (by decide)⟩
  have heast : (sampleLongitude cornerTile.address 64 : ℝ) = 0 := by
    rw [longitude_corner]
    norm_num
  refine List.any_eq_true.2 ⟨_, List.mem_map_of_mem hmem, ?_⟩
  dsimp only
  unfold CopernicusRasterSet.sampleElevation
  dsimp only
  rw [latitude_corner, heast]
  exact sample_corner hload

/-- Every file is a raster of one value. -/
def plainRaster (_ : CopernicusSourceAddress) (_ : Bytes) :
    Except String SourceRaster :=
  .ok (plainSource 0x42C80000)

/-- Such sources do not fail. -/
theorem readableSources_local (sources : SourceCache) :
    ReadableSources (sources.localSources plainRaster).load := by
  have hload : ∀ address,
      (sources.localSources plainRaster).load address = .unavailable ∨
        (sources.localSources plainRaster).load address
          = .ready (plainSource 0x42C80000) false := by
    intro address
    unfold LocalSources.load SourceCache.localSources
    dsimp only
    split
    · exact Or.inl rfl
    · cases hlocal : (sources.disk address).isLocal with
      | false => exact Or.inl rfl
      | true =>
          cases (sources.disk address).finalFile with
          | none => exact Or.inl rfl
          | some bytes => exact Or.inr rfl
  have hplain : ∀ {address raster downloaded},
      (sources.localSources plainRaster).load address
        = .ready raster downloaded → raster = plainSource 0x42C80000 := by
    intro address raster downloaded h
    rcases hload address with hnone | hready
    · rw [hnone] at h
      cases h
    · rw [hready] at h
      cases h
      rfl
  refine ⟨?_, ?_, ?_⟩
  · intro address status errorMessage h
    rcases hload address with hnone | hready
    · rw [hnone] at h
      cases h
    · rw [hready] at h
      cases h
  · intro address raster downloaded h column row
    obtain rfl := hplain h
    rfl
  · intro address raster downloaded h window
    obtain rfl := hplain h
    rfl

/-- A fill of the tile without the network. -/
def cornerFill : TileFill where
  key := cornerTile
  allowRemoteFetch := false

/-- The tile is filled and stored, if its corner is there. -/
theorem runs_cornerFill {target : CopernicusSourceAddress → SourceTarget}
    {ok : TerrainCachesAction → TerrainCaches → Prop} {caches : TerrainCaches}
    (hfills : caches.fills 0 = none)
    (htile : caches.tiles cornerTile = none ∨
      caches.tiles cornerTile = some .corrupt)
    (hload : (caches.sources.localSources plainRaster).load ⟨-1, 0⟩
      = .ready (plainSource 0x42C80000) false)
    (hfill : ok (.fill 0 cornerTile false) caches)
    (hsample : ok (.sample 0) (caches.withFill 0 cornerFill))
    (hstore : ok (.store 0 true) ((caches.withFill 0 cornerFill).withFill 0
      (cornerFill.sampleLocal (caches.sources.localSources plainRaster)))) :
    ∃ after, Run (terrainCachesStep plainRaster tileYToLatitudeDeg target) ok
        caches after ∧
      after.stored = ⟨cornerFill.sampleLocal
        (caches.sources.localSources plainRaster), caches.sources⟩
          :: caches.stored := by
  have hfilled : terrainCachesStep plainRaster tileYToLatitudeDeg target
      (.fill 0 cornerTile false) caches
        = some (caches.withFill 0 cornerFill) := by
    unfold terrainCachesStep
    dsimp only
    rw [if_neg]
    · rfl
    · rw [hfills, supports_cornerTile]
      rcases htile with htile | htile
      · rw [htile]
        decide
      · rw [htile]
        decide
  have hsampled : terrainCachesStep plainRaster tileYToLatitudeDeg target
      (.sample 0) (caches.withFill 0 cornerFill)
        = some ((caches.withFill 0 cornerFill).withFill 0
          (cornerFill.sampleLocal
            (caches.sources.localSources plainRaster))) := by
    unfold terrainCachesStep
    dsimp only
    rw [withFill_fills]
    rfl
  obtain ⟨elevations, helevations, hany⟩ :=
    corner_sampled (readableSources_local caches.sources) hload
  have hstored : ∃ after, terrainCachesStep plainRaster tileYToLatitudeDeg
      target (.store 0 true) ((caches.withFill 0 cornerFill).withFill 0
        (cornerFill.sampleLocal (caches.sources.localSources plainRaster)))
        = some after ∧
      after.stored = ⟨cornerFill.sampleLocal
        (caches.sources.localSources plainRaster), caches.sources⟩
          :: caches.stored := by
    have helevations' : (CopernicusRasterSet.sampleTile
        (cornerFill.sampleLocal
          (caches.sources.localSources plainRaster)).load tileYToLatitudeDeg
        (cornerFill.sampleLocal
          (caches.sources.localSources plainRaster)).key.address).1
        = some elevations := helevations
    unfold terrainCachesStep storeFill
    dsimp only
    rw [withFill_fills]
    dsimp only
    rw [helevations']
    dsimp only
    rw [hany]
    exact ⟨_, rfl, rfl⟩
  obtain ⟨after, hafter, hhistory⟩ := hstored
  exact ⟨after, ((Run.single hfill hfilled).step _ hsample hsampled).step _
    hstore hafter, hhistory⟩

/-- Only the cell of the corner is there. -/
def cornerFiles (address : CopernicusSourceAddress) : SourceDisk :=
  if address = ⟨-1, 0⟩ then { finalFile := some [1] } else {}

/-- A file of the tile is damaged: its request acquires nothing, and the
tile is filled again from what is there. -/
theorem stored_incomplete :
    ¬ ∀ (openRaster : CopernicusSourceAddress → Bytes →
          Except String SourceRaster)
        (target : CopernicusSourceAddress → SourceTarget)
        (files : CopernicusSourceAddress → SourceDisk)
        (tiles : TileStore.TileKey → Option CachedFile)
        (caches : TerrainCaches),
      (∀ address bytes raster,
        openRaster address bytes = .ok raster → raster.Planned) →
      Run (terrainCachesStep openRaster tileYToLatitudeDeg target) anyStep
        (TerrainCaches.init files tiles) caches →
      ∀ tile ∈ caches.stored, tile.Complete tileYToLatitudeDeg := by
  intro hall
  have hload : ((TerrainCaches.init cornerFiles
      fun _ => some .corrupt).sources.localSources plainRaster).load ⟨-1, 0⟩
      = .ready (plainSource 0x42C80000) false := rfl
  obtain ⟨caches, hrun, hstored⟩ := @runs_cornerFill (fun _ => ⟨"", "", ""⟩)
    anyStep (TerrainCaches.init cornerFiles fun _ => some .corrupt) rfl
    (Or.inr rfl) hload trivial trivial trivial
  have hchecked : Run (terrainCachesStep plainRaster tileYToLatitudeDeg
      fun _ => ⟨"", "", ""⟩) anyStep
      (TerrainCaches.init cornerFiles fun _ => some .corrupt) caches :=
    (Run.single (a := .check 0 cornerTile) trivial rfl).trans hrun
  have hcomplete := hall plainRaster _ cornerFiles _ caches
    (by
      intro address bytes raster hopened
      cases hopened
      exact ⟨rfl, by decide⟩)
    hchecked _ (hstored ▸ List.mem_cons_self)
  rcases hcomplete.sources ⟨-1, -1⟩ corner_planned with
    hlocal | ⟨hconfirmed, -⟩
  · cases hlocal
  · cases hconfirmed

/-- All sources are there, and the tile is missing. -/
def wholeCaches : TerrainCaches :=
  TerrainCaches.init (fun _ => { finalFile := some [1] }) fun _ => none

/-- A check finds its sources. -/
theorem wholeCaches_available :
    (wholeCaches.sources.localSources
      plainRaster).tileSourcesAvailableLocally tileYToLatitudeDeg cornerTile
        = true := by
  unfold LocalSources.tileSourcesAvailableLocally
  rw [supports_cornerTile]
  exact List.all_eq_true.2 fun address _ => rfl

/-- A request that is checked is prepared. -/
theorem checked_prepared (caches : TerrainCaches) (id : Nat)
    (key : TileStore.TileKey) :
    Prepared tileYToLatitudeDeg plainRaster
      (caches.checked tileYToLatitudeDeg id key).sources key := by
  refine Or.inl ⟨id, checkedRequest tileYToLatitudeDeg caches.sources key,
    ⟨.ready, ""⟩, ?_, rfl, rfl, rfl,
    fun _ hrelied => (mem_confirmations.1 hrelied).2.2⟩
  unfold TerrainCaches.checked SourceCache.withAcquisition
  exact Function.update_self _ _ _

/-- The request is checked, and its tile is filled and stored. -/
theorem stored_complete_corner :
    ∃ caches : TerrainCaches, caches.stored ≠ [] ∧
      ∀ tile ∈ caches.stored, tile.Complete tileYToLatitudeDeg := by
  have hchecked : terrainCachesStep plainRaster tileYToLatitudeDeg
      (fun _ => ⟨"", "", ""⟩) (.check 0 cornerTile) wholeCaches
        = some (wholeCaches.checked tileYToLatitudeDeg 0 cornerTile) := by
    unfold terrainCachesStep
    dsimp only
    rw [wholeCaches_available]
    rfl
  have hprepared := checked_prepared wholeCaches 0 cornerTile
  obtain ⟨caches, hrun, hstored⟩ := @runs_cornerFill (fun _ => ⟨"", "", ""⟩)
    (InOrder tileYToLatitudeDeg plainRaster)
    (wholeCaches.checked tileYToLatitudeDeg 0 cornerTile) rfl (Or.inl rfl) rfl
    trivial
    (by
      intro fill hfill _
      rw [withFill_fills] at hfill
      cases hfill
      exact hprepared)
    (by
      intro _ fill hfill
      rw [withFill_fills] at hfill
      cases hfill
      exact hprepared)
  refine ⟨caches, ?_, stored_complete ?_
    ((Run.single (a := .check 0 cornerTile) trivial hchecked).trans hrun)⟩
  · rw [hstored]
    exact List.cons_ne_nil _ _
  · intro address bytes raster hopened
    cases hopened
    exact ⟨rfl, by decide⟩

end AowisMap.Terrain
