/-
The elevation of a point is that of the finest tile that decides, under
the datum that tile names.

# One tile, then the walk

What a lookup does to the walk is said once (`judge_absent`,
`judge_noSample`, `judge_decides`): it is passed over, it is remembered,
or it settles the walk with one of the answers of `Answer`. The walk is a
search down the zooms, so its rules give the result
(`sampleElevation_spec`). A sample is under the datum of the tile it was
read from, and that is the one asked for if one was asked for
(`UnderItsDatum`). What an elevation is, is said of the samples of the tile
(`Interpolates`), and what a sample that may be reported is, of its fields
(`ValidSample`).
-/
import AowisMap.Terrain.Proofs.Interpolation
import AowisMap.Terrain.Proofs.TileValidity

namespace AowisMap.Terrain

open Lib

variable {config : TileStore.Config} {requested : Option TerrainVerticalDatum}
  {position : TerrainGridPosition} {lookup : TerrainTileLookupResult}

-- ============================================================== one lookup

/-- The tile has no elevation at the position. -/
structure NoSample (position : TerrainGridPosition)
    (lookup : TerrainTileLookupResult) : Prop where
  ready : lookup.status = .ready
  undefined : ∃ tile, decodeTerrainTile binary32 lookup.data = .ok tile ∧
    ∀ elevationM,
      ¬ Interpolates tile position.column position.row elevationM

/-- The lookup neither misses the tile nor the elevation. -/
structure Decides (position : TerrainGridPosition)
    (lookup : TerrainTileLookupResult) : Prop where
  available : lookup.status ≠ .tileUnavailable
  sample : ¬ NoSample position lookup

/-- The tile of a lookup has an elevation at the position. -/
structure Sampled (position : TerrainGridPosition)
    (lookup : TerrainTileLookupResult) (tile : TerrainTile)
    (elevationM : Rat) : Prop where
  ready : lookup.status = .ready
  decoded : decodeTerrainTile binary32 lookup.data = .ok tile
  defined : Interpolates tile position.column position.row elevationM

/-- What a sample with a finite elevation and resolution must meet. -/
structure ValidSample (sample : TerrainElevationSample) : Prop where
  resolution : 0 ≤ sample.nominalResolutionM
  dataset : ∃ c ∈ sample.dataset.toList, QString.isSpace c = false
  datum : sample.sourceVerticalDatum = .unknown →
    sample.verticalDatum = .unknown

/-- The sample of a tile: what was interpolated, under the tile's own datum.
-/
def reportedSample (tile : TerrainTile) (elevationM nominalResolutionM : Rat)
    (origin : TerrainDataOrigin) : TerrainElevationSample where
  elevationM := elevationM
  dataset := tile.dataset
  nominalResolutionM := nominalResolutionM
  verticalDatum := tile.verticalDatum
  sourceVerticalDatum := tile.verticalDatum
  origin := origin

/-- What a lookup that decides answers. -/
inductive Answer (config : TileStore.Config)
    (requested : Option TerrainVerticalDatum) (position : TerrainGridPosition)
    (lookup : TerrainTileLookupResult) : TerrainElevationLookupResult → Prop
  /-- The error of the lookup. -/
  | failed (hready : lookup.status ≠ .ready)
      (havailable : lookup.status ≠ .tileUnavailable) :
      Answer config requested position lookup
        { status := elevationFailure lookup.status
          tileAddress := some position.address
          requestedVerticalDatum := requested
          errorMessage := lookup.errorMessage }
  /-- A tile that is none. -/
  | undecodable (decodeError : String) (hready : lookup.status = .ready)
      (hdecode : decodeTerrainTile binary32 lookup.data
        = .error decodeError) :
      Answer config requested position lookup
        { status := .corruptTile
          tileAddress := some position.address
          requestedVerticalDatum := requested
          errorMessage := "Validated normalized terrain tile could not be "
            ++ "decoded for point sampling: " ++ decodeError }
  /-- The elevation, under the datum of the tile. -/
  | sampled (tile : TerrainTile) (elevationM nominalResolutionM : Rat)
      (hsampled : Sampled position lookup tile elevationM)
      (hdatum : requested = none ∨ requested = some tile.verticalDatum)
      (hresolution : tile.nominalResolutionM = .finite nominalResolutionM)
      (hvalid : ValidSample (reportedSample tile elevationM
        nominalResolutionM lookup.origin)) :
      Answer config requested position lookup
        { status := .ready
          sample := some (reportedSample tile elevationM nominalResolutionM
            lookup.origin)
          tileAddress := some position.address
          requestedVerticalDatum := requested
          sourceVerticalDatum := some tile.verticalDatum }
  /-- An elevation whose sample is rejected. -/
  | rejected (tile : TerrainTile) (elevationM : Rat)
      (hsampled : Sampled position lookup tile elevationM)
      (hdatum : requested = none ∨ requested = some tile.verticalDatum)
      (hinvalid : ∀ nominalResolutionM,
        tile.nominalResolutionM = .finite nominalResolutionM →
        ¬ ValidSample (reportedSample tile elevationM nominalResolutionM
          lookup.origin)) :
      Answer config requested position lookup
        { status := .corruptTile
          tileAddress := some position.address
          requestedVerticalDatum := requested
          sourceVerticalDatum := some tile.verticalDatum
          errorMessage := "Normalized terrain tile produced invalid elevation "
            ++ "metadata: " ++ TileStore.normalizedTilePath config
              ⟨tile.dataset, position.address⟩ }
  /-- An elevation under another datum. -/
  | otherDatum (tile : TerrainTile) (elevationM : Rat)
      (datum : TerrainVerticalDatum)
      (hsampled : Sampled position lookup tile elevationM)
      (hrequested : requested = some datum)
      (hdatum : datum ≠ tile.verticalDatum) :
      Answer config requested position lookup
        { status := .verticalDatumConversionUnavailable
          tileAddress := some position.address
          requestedVerticalDatum := requested
          sourceVerticalDatum := some tile.verticalDatum
          errorMessage := "Terrain source datum is "
            ++ verticalDatumDiagnosticLabel tile.verticalDatum ++ ", but "
            ++ verticalDatumDiagnosticLabel datum ++ " was requested. "
            ++ "No vertical datum transformation model is configured; AOWIS "
            ++ "will not apply an implicit or constant height offset" }

/-- `isValidTerrainElevationSample` decides it. -/
theorem isValidSample_iff {sample : TerrainElevationSample} :
    isValidTerrainElevationSample sample = true ↔ ValidSample sample := by
  have hblank : (QString.trimmed sample.dataset.toList).isEmpty = false ↔
      ∃ c ∈ sample.dataset.toList, QString.isSpace c = false := by
    rw [List.isEmpty_eq_false_iff, ne_eq, QString.trimmed,
      QString.trimmedBy_eq_nil_iff]
    push Not
    simp only [ne_eq, Bool.not_eq_true]
  have hdatum : ∀ datum, isValidTerrainVerticalDatum datum = true := by
    intro datum
    cases datum <;> rfl
  unfold isValidTerrainElevationSample
  simp only [hdatum, Bool.and_true, Bool.and_eq_true, decide_eq_true_eq,
    Bool.not_eq_true', hblank, Bool.and_eq_false_iff, beq_eq_false_iff_ne,
    bne_eq_false_iff_eq]
  constructor
  · rintro ⟨⟨hresolution, hdataset⟩, hknown⟩
    exact ⟨hresolution, hdataset, hknown.resolve_left ∘ not_not.2⟩
  · intro h
    exact ⟨⟨h.resolution, h.dataset⟩, Decidable.or_iff_not_imp_left.2
      fun hunknown => h.datum (not_not.1 hunknown)⟩

/-- The sample of a tile with a finite resolution. -/
theorem elevationSample_finite {tile : TerrainTile} {resolution : Rat}
    (h : tile.nominalResolutionM = .finite resolution) (elevationM : Rat)
    (origin : TerrainDataOrigin) :
    elevationSample tile elevationM origin =
      if isValidTerrainElevationSample
          (reportedSample tile elevationM resolution origin) then
        some (reportedSample tile elevationM resolution origin)
      else none := by
  unfold elevationSample
  rw [h]
  rfl

/-- The answer of a sample under the datum of its tile. -/
theorem checkedElevation_answer {tile : TerrainTile} {elevationM : Rat}
    (hsampled : Sampled position lookup tile elevationM)
    (hdatum : requested = none ∨ requested = some tile.verticalDatum) :
    Answer config requested position lookup
      (checkedElevation config requested position.address tile elevationM
        lookup.origin) := by
  have hnone : elevationSample tile elevationM lookup.origin = none →
      (∀ resolution, tile.nominalResolutionM = .finite resolution →
        ¬ ValidSample (reportedSample tile elevationM resolution
          lookup.origin)) →
      Answer config requested position lookup
        (checkedElevation config requested position.address tile elevationM
          lookup.origin) := by
    intro hsample hinvalid
    unfold checkedElevation
    rw [hsample]
    exact Answer.rejected tile elevationM hsampled hdatum hinvalid
  cases hresolution : tile.nominalResolutionM with
  | nan =>
    refine hnone ?_ fun _ hfinite => ?_
    · unfold elevationSample
      rw [hresolution]
    · rw [hresolution] at hfinite
      cases hfinite
  | infinity negative =>
    refine hnone ?_ fun _ hfinite => ?_
    · unfold elevationSample
      rw [hresolution]
    · rw [hresolution] at hfinite
      cases hfinite
  | finite resolution =>
    have hsample := elevationSample_finite hresolution elevationM lookup.origin
    by_cases hvalid : ValidSample (reportedSample tile elevationM resolution
        lookup.origin)
    · rw [if_pos (isValidSample_iff.2 hvalid)] at hsample
      unfold checkedElevation
      rw [hsample]
      exact Answer.sampled tile elevationM resolution hsampled hdatum
        hresolution hvalid
    · rw [if_neg fun hvalid' => hvalid (isValidSample_iff.1 hvalid')]
        at hsample
      refine hnone hsample fun resolution' hfinite => ?_
      rw [hresolution] at hfinite
      cases hfinite
      exact hvalid

/-- The answer of a tile that has an elevation. -/
theorem sampledElevation_answer {tile : TerrainTile} {elevationM : Rat}
    (hsampled : Sampled position lookup tile elevationM) :
    Answer config requested position lookup
      (sampledElevation config requested position.address tile elevationM
        lookup.origin) := by
  unfold sampledElevation
  cases requested with
  | none => exact checkedElevation_answer hsampled (Or.inl rfl)
  | some datum =>
    dsimp only
    by_cases hdatum : datum = tile.verticalDatum
    · rw [if_neg (not_not.2 hdatum)]
      exact checkedElevation_answer hsampled (Or.inr (congrArg some hdatum))
    · rw [if_pos hdatum]
      exact Answer.otherDatum tile elevationM datum hsampled rfl hdatum

/-- A lookup that misses the tile is passed over. -/
theorem judge_absent (h : lookup.status = .tileUnavailable) :
    elevationVerdict config requested position lookup = .skip := by
  unfold elevationVerdict
  rw [h]

/-- A tile without an elevation at the position is remembered. -/
theorem judge_noSample (h : NoSample position lookup) :
    elevationVerdict config requested position lookup = .remember := by
  obtain ⟨hready, tile, hdecode, hundefined⟩ := h
  have hnone : bilinearElevation tile position.column position.row
      = none := by
    refine Option.eq_none_iff_forall_ne_some.2 fun elevationM hsome => ?_
    exact hundefined elevationM (bilinearElevation_iff.1 hsome)
  unfold elevationVerdict
  rw [hready]
  dsimp only
  rw [hdecode]
  dsimp only
  rw [hnone]

/-- A lookup that decides settles the walk. -/
theorem judge_decides (h : Decides position lookup) :
    ∃ result, elevationVerdict config requested position lookup
        = .settle result ∧
      Answer config requested position lookup result := by
  obtain ⟨havailable, hsample⟩ := h
  by_cases hready : lookup.status = .ready
  · unfold elevationVerdict
    rw [hready]
    dsimp only
    cases hdecode : decodeTerrainTile binary32 lookup.data with
    | error decodeError =>
      exact ⟨_, rfl, Answer.undecodable decodeError hready hdecode⟩
    | ok tile =>
      dsimp only
      cases hvalue : bilinearElevation tile position.column position.row with
      | none =>
        refine absurd ⟨hready, tile, hdecode, ?_⟩ hsample
        intro elevationM hdefined
        rw [bilinearElevation_iff.2 hdefined] at hvalue
        cases hvalue
      | some elevationM =>
        exact ⟨_, rfl, sampledElevation_answer
          ⟨hready, hdecode, bilinearElevation_iff.1 hvalue⟩⟩
  · refine ⟨_, ?_, Answer.failed hready havailable⟩
    unfold elevationVerdict
    cases hstatus : lookup.status with
    | ready => exact absurd hstatus hready
    | tileUnavailable => exact absurd hstatus havailable
    | disabled => rfl
    | notInitialized => rfl
    | invalidDataset => rfl
    | invalidAddress => rfl
    | tileReadError => rfl
    | corruptTile => rfl
    | remoteFetchError => rfl
    | providerError => rfl

/-- A lookup misses the tile, misses the elevation, or decides. -/
theorem lookup_cases (position : TerrainGridPosition)
    (lookup : TerrainTileLookupResult) :
    lookup.status = .tileUnavailable ∨ NoSample position lookup ∨
      Decides position lookup := by
  by_cases havailable : lookup.status = .tileUnavailable
  · exact Or.inl havailable
  · by_cases hsample : NoSample position lookup
    · exact Or.inr (Or.inl hsample)
    · exact Or.inr (Or.inr ⟨havailable, hsample⟩)

-- ============================================================ the lookups

section

variable {S : Type*} {northing : Rat → Rat} {request : ElevationRequest}
  {terrainTile : TileStore.TileKey → S → TerrainTileLookupResult × S}

/-- A lookup of the walk: where it looked and what it got, once all finer
zooms had been looked up. -/
def LookedUp (northing : Rat → Rat) (request : ElevationRequest)
    (terrainTile : TileStore.TileKey → S → TerrainTileLookupResult × S)
    (s : S) (zoom : Nat) (position : TerrainGridPosition)
    (lookup : TerrainTileLookupResult) : Prop :=
  Descent.answer (askZoom northing request terrainTile)
    (terrainTileMaximumZoom + 1) s zoom = some (position, lookup)

/-- The zooms the walk goes through. -/
def Walked (zoom : Nat) : Prop := zoom ≤ terrainTileMaximumZoom

/-- A request that is looked up has a position in every zoom. -/
theorem position_of_accepted
    (haccepted : rejectElevation config request = none) {zoom : Nat}
    (hzoom : Walked zoom) :
    ∃ position, request.position northing zoom = some position ∧
      position.address.zoom = zoom := by
  have hcovered : ¬ (request.latitudeDeg < -webMercatorMaximumLatitudeDeg ∨
      request.latitudeDeg > webMercatorMaximumLatitudeDeg) := by
    intro houtside
    unfold rejectElevation at haccepted
    rw [if_pos houtside] at haccepted
    split_ifs at haccepted
  unfold Walked terrainTileMaximumZoom at hzoom
  unfold ElevationRequest.position terrainGridPosition
  rw [if_neg (by unfold terrainTileMaximumZoom; omega), if_neg hcovered]
  exact ⟨_, rfl, rfl⟩

variable (northing terrainTile) in
/-- Every zoom is looked up, in a tile of its own. -/
theorem lookedUp_of_accepted
    (haccepted : rejectElevation config request = none) (s : S) {zoom : Nat}
    (hzoom : Walked zoom) :
    ∃ position lookup, LookedUp northing request terrainTile s zoom position
        lookup ∧ request.position northing zoom = some position ∧
      position.address.zoom = zoom := by
  obtain ⟨position, hposition, hown⟩ :
      ∃ position, request.position northing zoom = some position ∧
        position.address.zoom = zoom := position_of_accepted haccepted hzoom
  have hanswer : Descent.answer (askZoom northing request terrainTile)
      (terrainTileMaximumZoom + 1) s zoom = _ :=
    (Descent.answer_before s (Nat.lt_succ_of_le hzoom)).1
  refine ⟨position, (terrainTile ⟨request.dataset, position.address⟩
    (Descent.before (askZoom northing request terrainTile)
      (terrainTileMaximumZoom + 1) s zoom)).1, ?_, hposition, hown⟩
  unfold LookedUp
  rw [hanswer]
  unfold askZoom
  rw [hposition]

-- =============================================================== results

/-- No lookup decides. -/
def Undecided (northing : Rat → Rat) (request : ElevationRequest)
    (terrainTile : TileStore.TileKey → S → TerrainTileLookupResult × S)
    (s : S) : Prop :=
  ∀ zoom position lookup, Walked zoom →
    LookedUp northing request terrainTile s zoom position lookup →
    ¬ Decides position lookup

/-- The greatest zoom whose lookup has a property. -/
structure Finest (northing : Rat → Rat) (request : ElevationRequest)
    (terrainTile : TileStore.TileKey → S → TerrainTileLookupResult × S)
    (s : S)
    (property : TerrainGridPosition → TerrainTileLookupResult → Prop)
    (zoom : Nat) (position : TerrainGridPosition)
    (lookup : TerrainTileLookupResult) : Prop where
  walked : Walked zoom
  lookedUp : LookedUp northing request terrainTile s zoom position lookup
  holds : property position lookup
  finest : ∀ finer position lookup, zoom < finer → Walked finer →
    LookedUp northing request terrainTile s finer position lookup →
    ¬ property position lookup

variable (config) in
/-- The verdict on a lookup of the walk. -/
theorem judgeZoom_lookedUp {s : S} {zoom : Nat}
    (h : LookedUp northing request terrainTile s zoom position lookup) :
    judgeZoom config request zoom
        (Descent.answer (askZoom northing request terrainTile)
          (terrainTileMaximumZoom + 1) s zoom)
      = elevationVerdict config request.requestedVerticalDatum position
        lookup := by
  unfold LookedUp at h
  rw [h]
  rfl

/-- A lookup that does not decide does not settle the walk. -/
theorem not_settle_of_not_decides (h : ¬ Decides position lookup)
    (result : TerrainElevationLookupResult) :
    elevationVerdict config requested position lookup ≠ .settle result := by
  intro hsettle
  rcases lookup_cases position lookup with habsent | hnone | hdecides
  · rw [judge_absent habsent] at hsettle
    cases hsettle
  · rw [judge_noSample hnone] at hsettle
    cases hsettle
  · exact h hdecides

/-- What holds of all lookups of the finer zooms holds of the verdicts. -/
theorem verdicts_of_lookups {s : S} (p : Nat → Prop)
    (verdict : Descent.Verdict TerrainElevationLookupResult → Prop)
    (haccepted : rejectElevation config request = none)
    (h : ∀ zoom position lookup, p zoom → Walked zoom →
      LookedUp northing request terrainTile s zoom position lookup →
      verdict (elevationVerdict config request.requestedVerticalDatum position
        lookup)) :
    ∀ zoom, p zoom → zoom < terrainTileMaximumZoom + 1 →
      verdict (judgeZoom config request zoom
        (Descent.answer (askZoom northing request terrainTile)
          (terrainTileMaximumZoom + 1) s zoom)) := by
  intro zoom hp hlt
  have hwalked : Walked zoom := Nat.le_of_lt_succ hlt
  obtain ⟨position, lookup, hlookedUp, -⟩ :=
    lookedUp_of_accepted northing terrainTile haccepted s hwalked
  rw [judgeZoom_lookedUp config hlookedUp]
  exact h zoom position lookup hp hwalked hlookedUp

/-- The finest lookup that decides gives the answer. -/
theorem sampleElevation_decided {s : S} {zoom : Nat}
    (haccepted : rejectElevation config request = none)
    (hfinest : Finest northing request terrainTile s Decides zoom position
      lookup) :
    Answer config request.requestedVerticalDatum position lookup
      (sampleElevation config northing terrainTile request s).1 := by
  obtain ⟨result, hverdict, hanswer⟩ : ∃ result, elevationVerdict config
      request.requestedVerticalDatum position lookup = .settle result ∧
      Answer config request.requestedVerticalDatum position lookup result :=
    judge_decides hfinest.holds
  have hjudge := judgeZoom_lookedUp config hfinest.lookedUp
  rw [hverdict] at hjudge
  have hfiner := verdicts_of_lookups (fun finer => zoom < finer)
    (fun v => ∀ other, v ≠ .settle other) haccepted
    fun finer position' lookup' hlow hwalked hlookedUp =>
      not_settle_of_not_decides
        (hfinest.finest finer position' lookup' hlow hwalked hlookedUp)
  have hsearch := Descent.search_settled none s
    (Nat.lt_succ_of_le hfinest.walked) hjudge hfiner
  unfold sampleElevation
  rw [haccepted]
  dsimp only
  rw [hsearch]
  exact hanswer

/-- Without a lookup that decides, the finest tile without an elevation is
reported. -/
theorem sampleElevation_noData {s : S} {zoom : Nat}
    (haccepted : rejectElevation config request = none)
    (hundecided : Undecided northing request terrainTile s)
    (hfinest : Finest northing request terrainTile s NoSample zoom position
      lookup) :
    (sampleElevation config northing terrainTile request s).1 =
      { status := .noData
        tileAddress := some position.address
        requestedVerticalDatum := request.requestedVerticalDatum
        errorMessage := "Available terrain tiles contain no elevation "
          ++ "sample for this coordinate" } := by
  have hjudge := judgeZoom_lookedUp config hfinest.lookedUp
  rw [judge_noSample hfinest.holds] at hjudge
  have hfiner := verdicts_of_lookups (fun finer => zoom < finer)
    (fun v => v = .skip) haccepted
    fun finer position' lookup' hlow hwalked hlookedUp => by
      have hnone := hfinest.finest finer position' lookup' hlow hwalked hlookedUp
      rcases lookup_cases position' lookup' with habsent | hsample | hdecides
      · exact judge_absent habsent
      · exact absurd hsample hnone
      · exact absurd hdecides
          (hundecided finer position' lookup' hwalked hlookedUp)
  have hcoarser := verdicts_of_lookups (fun coarser => coarser < zoom)
    (fun v => ∀ other, v ≠ .settle other) haccepted
    fun coarser position' lookup' _ hwalked hlookedUp =>
      not_settle_of_not_decides
        (hundecided coarser position' lookup' hwalked hlookedUp)
  have hsearch := Descent.search_remembered s
    (Nat.lt_succ_of_le hfinest.walked) hjudge hfiner
    fun coarser hlow => hcoarser coarser hlow
      (hlow.trans (Nat.lt_succ_of_le hfinest.walked))
  obtain ⟨position', lookup', hlookedUp, hposition, -⟩ :=
    lookedUp_of_accepted northing terrainTile haccepted s hfinest.walked
  have hsame := hlookedUp.symm.trans hfinest.lookedUp
  cases hsame
  unfold sampleElevation
  rw [haccepted]
  dsimp only
  rw [hsearch]
  dsimp only
  rw [hposition]
  rfl

/-- Without any tile. -/
theorem sampleElevation_unavailable {s : S}
    (haccepted : rejectElevation config request = none)
    (habsent : ∀ zoom position lookup, Walked zoom →
      LookedUp northing request terrainTile s zoom position lookup →
      lookup.status = .tileUnavailable) :
    (sampleElevation config northing terrainTile request s).1 =
      { status := .tileUnavailable
        requestedVerticalDatum := request.requestedVerticalDatum
        errorMessage := "No normalized terrain tile is available for "
          ++ "this coordinate and dataset" } := by
  have hskip := verdicts_of_lookups (fun _ => True)
    (fun v => v = .skip) haccepted
    fun zoom position' lookup' _ hwalked hlookedUp =>
      judge_absent (habsent zoom position' lookup' hwalked hlookedUp)
  have hsearch := Descent.search_exhausted s
    fun level hlt => hskip level trivial hlt
  unfold sampleElevation
  rw [haccepted]
  dsimp only
  rw [hsearch]

/-- If some lookup has a property, one of them is the finest. -/
theorem exists_finest {s : S}
    {property : TerrainGridPosition → TerrainTileLookupResult → Prop}
    {zoom : Nat} {position : TerrainGridPosition}
    {lookup : TerrainTileLookupResult} (hwalked : Walked zoom)
    (hlookedUp : LookedUp northing request terrainTile s zoom position lookup)
    (hproperty : property position lookup) :
    ∃ zoom position lookup,
      Finest northing request terrainTile s property zoom position lookup := by
  -- Induction on the zooms above.
  induction hgap : terrainTileMaximumZoom - zoom using Nat.strong_induction_on
    generalizing zoom position lookup with
  | _ gap ih =>
    by_cases hfiner : ∃ finer position lookup, zoom < finer ∧ Walked finer ∧
        LookedUp northing request terrainTile s finer position lookup ∧
        property position lookup
    · obtain ⟨finer, position', lookup', hlt, hwalked', hlookedUp', hproperty'⟩ :=
        hfiner
      unfold Walked at hwalked hwalked'
      exact ih (terrainTileMaximumZoom - finer) (by omega) hwalked' hlookedUp'
        hproperty' rfl
    · refine ⟨zoom, position, lookup, hwalked, hlookedUp, hproperty, ?_⟩
      intro finer position' lookup' hlt hwalked' hlookedUp' hproperty'
      exact hfiner ⟨finer, position', lookup', hlt, hwalked', hlookedUp',
        hproperty'⟩

/-- What the elevation of a point is: the answer of the finest lookup that
decides, else the report of the finest tile without an elevation, else
that there is no tile. -/
def ElevationOf (config : TileStore.Config) (northing : Rat → Rat)
    (terrainTile : TileStore.TileKey → S → TerrainTileLookupResult × S)
    (request : ElevationRequest) (s : S)
    (result : TerrainElevationLookupResult) : Prop :=
  (∃ zoom position lookup,
    Finest northing request terrainTile s Decides zoom position lookup ∧
    position.address.zoom = zoom ∧
    Answer config request.requestedVerticalDatum position lookup result) ∨
  (Undecided northing request terrainTile s ∧ ∃ zoom position lookup,
    Finest northing request terrainTile s NoSample zoom position lookup ∧
    position.address.zoom = zoom ∧
    result =
      { status := .noData
        tileAddress := some position.address
        requestedVerticalDatum := request.requestedVerticalDatum
        errorMessage := "Available terrain tiles contain no elevation "
          ++ "sample for this coordinate" }) ∨
  ((∀ zoom position lookup, Walked zoom →
      LookedUp northing request terrainTile s zoom position lookup →
      lookup.status = .tileUnavailable) ∧
    result =
      { status := .tileUnavailable
        requestedVerticalDatum := request.requestedVerticalDatum
        errorMessage := "No normalized terrain tile is available for "
          ++ "this coordinate and dataset" })

/-- A lookup of the walk names its zoom. -/
theorem zoom_of_lookedUp {s : S} {zoom : Nat}
    (haccepted : rejectElevation config request = none)
    (hwalked : Walked zoom)
    (hlookedUp : LookedUp northing request terrainTile s zoom position lookup) :
    position.address.zoom = zoom := by
  obtain ⟨position', lookup', hsame, -, hown⟩ :=
    lookedUp_of_accepted northing terrainTile haccepted s hwalked
  have heq := hsame.symm.trans hlookedUp
  cases heq
  exact hown

/-- An elevation is never reported under a datum other than that of the
tile it was read from, nor under one that was not asked for. -/
def UnderItsDatum (northing : Rat → Rat)
    (terrainTile : TileStore.TileKey → S → TerrainTileLookupResult × S)
    (request : ElevationRequest) (s : S)
    (result : TerrainElevationLookupResult) : Prop :=
  ∀ sample, result.sample = some sample →
    (request.requestedVerticalDatum = none ∨
      request.requestedVerticalDatum = some sample.verticalDatum) ∧
    ∃ zoom position lookup tile,
      Finest northing request terrainTile s Decides zoom position lookup ∧
      Sampled position lookup tile sample.elevationM ∧
      sample.verticalDatum = tile.verticalDatum

theorem underItsDatum_of_elevationOf {s : S}
    {result : TerrainElevationLookupResult}
    (h : ElevationOf config northing terrainTile request s result) :
    UnderItsDatum northing terrainTile request s result := by
  intro sample hsome
  rcases h with ⟨zoom, position, lookup, hfinest, -, hanswer⟩ |
    ⟨-, zoom, position, lookup, -, -, rfl⟩ | ⟨-, rfl⟩
  · cases hanswer with
    | failed => cases hsome
    | undecodable => cases hsome
    | rejected => cases hsome
    | otherDatum => cases hsome
    | sampled tile elevationM resolution hsampled hdatum _ _ =>
      cases hsome
      exact ⟨hdatum, zoom, position, lookup, tile, hfinest, hsampled, rfl⟩
  · cases hsome
  · cases hsome

/-- The walk finds the elevation of its point. -/
theorem elevationOf_sampleElevation (s : S)
    (haccepted : rejectElevation config request = none) :
    ElevationOf config northing terrainTile request s
      (sampleElevation config northing terrainTile request s).1 := by
  by_cases hundecided : Undecided northing request terrainTile s
  · right
    by_cases hnone : ∃ zoom position lookup, Walked zoom ∧
        LookedUp northing request terrainTile s zoom position lookup ∧
        NoSample position lookup
    · left
      obtain ⟨zoom, position, lookup, hwalked, hlookedUp, hsample⟩ := hnone
      obtain ⟨zoom, position, lookup, hfinest⟩ :=
        exists_finest hwalked hlookedUp hsample
      exact ⟨hundecided, zoom, position, lookup, hfinest,
        zoom_of_lookedUp haccepted hfinest.walked hfinest.lookedUp,
        sampleElevation_noData haccepted hundecided hfinest⟩
    · right
      have habsent : ∀ zoom position lookup, Walked zoom →
          LookedUp northing request terrainTile s zoom position lookup →
          lookup.status = .tileUnavailable := by
        intro zoom position lookup hwalked hlookedUp
        rcases lookup_cases position lookup with habsent | hsample | hdecides
        · exact habsent
        · exact absurd ⟨zoom, position, lookup, hwalked, hlookedUp, hsample⟩
            hnone
        · exact absurd hdecides
            (hundecided zoom position lookup hwalked hlookedUp)
      exact ⟨habsent, sampleElevation_unavailable haccepted habsent⟩
  · left
    unfold Undecided at hundecided
    push Not at hundecided
    obtain ⟨zoom, position, lookup, hwalked, hlookedUp, hdecides⟩ := hundecided
    obtain ⟨zoom, position, lookup, hfinest⟩ :=
      exists_finest hwalked hlookedUp hdecides
    exact ⟨zoom, position, lookup, hfinest,
      zoom_of_lookedUp haccepted hfinest.walked hfinest.lookedUp,
      sampleElevation_decided haccepted hfinest⟩

/-- The elevation of a point, for whatever the lookups of its tiles
return. -/
theorem sampleElevation_spec (config : TileStore.Config)
    (northing : Rat → Rat)
    (terrainTile : TileStore.TileKey → S → TerrainTileLookupResult × S)
    (request : ElevationRequest) (s : S)
    (haccepted : rejectElevation config request = none) :
    ElevationOf config northing terrainTile request s
        (sampleElevation config northing terrainTile request s).1 ∧
      UnderItsDatum northing terrainTile request s
        (sampleElevation config northing terrainTile request s).1 := by
  have helevation : ElevationOf config northing terrainTile request s _ :=
    elevationOf_sampleElevation s haccepted
  exact ⟨helevation, underItsDatum_of_elevationOf helevation⟩

/-- The walk looks up the tiles of its own positions. -/
theorem lookup_of_lookedUp {s : S} {zoom : Nat} (hwalked : Walked zoom)
    (h : LookedUp northing request terrainTile s zoom position lookup) :
    request.position northing zoom = some position ∧
      ∃ t, lookup = (terrainTile ⟨request.dataset, position.address⟩ t).1 := by
  unfold LookedUp at h
  rw [(Descent.answer_before s (Nat.lt_succ_of_le hwalked)).1] at h
  unfold askZoom at h
  cases hposition : request.position northing zoom with
  | none =>
    rw [hposition] at h
    cases h
  | some own =>
    rw [hposition] at h
    cases h
    exact ⟨rfl, _, rfl⟩

-- ============================================================ an example

/-- A tile at eight metres. -/
def eightLookup : TerrainTileLookupResult where
  status := .ready
  data := eightMetres.layout
  origin := .cache

/-- Only the tile of zoom 0 is there. -/
def servedEight (key : TileStore.TileKey) (s : Unit) :
    TerrainTileLookupResult × Unit :=
  if key.address.zoom = 0 then (eightLookup, s)
  else ({ status := .tileUnavailable }, s)

/-- What is asked of it. -/
def eightRequest : ElevationRequest where
  dataset := "dem"
  latitudeDeg := 45
  longitudeDeg := 12
  requestedVerticalDatum := some .wgs84Ellipsoid

/-- Where the point lies in it. -/
def eightPosition : TerrainGridPosition where
  address := { zoom := 0, x := 0, y := 0 }
  column := 512 / 15
  row := 24

theorem eightRequest_position :
    eightRequest.position (fun _ => 3 / 8) 0 = some eightPosition := by
  decide +kernel

/-- All its samples are eight. -/
theorem eightMetres_elevations :
    (eightMetres.tile binary32 .wgs84Ellipsoid).elevationsM
      = List.replicate 4225 (.finite 8) := by
  have hsample : decodedElevation binary32 (binary32.ofBits 0x3F800000)
      (binary32.ofBits 0x3F800000) 7 = .finite 8 := by decide +kernel
  show (List.replicate 4225 7).map _ = _
  rw [List.map_replicate]
  exact congrArg _ hsample

/-- So is what is interpolated of them. -/
theorem eightMetres_interpolates :
    Interpolates (eightMetres.tile binary32 .wgs84Ellipsoid) (512 / 15) 24
      8 := by
  have hcells : terrainTileCellCount = 64 := rfl
  have hsize : terrainTileGridSize = 65 := rfl
  have hcount : terrainTileSampleCount = 4225 := rfl
  have hsample : ∀ i < 4225, (List.replicate 4225
      (FloatValue.finite 8)).getD i .nan = .finite 8 := by
    intro i hi
    rw [List.getD_eq_getElem?_getD, List.getElem?_replicate_of_lt hi]
    rfl
  have hcolumn : ⌊(512 / 15 : Rat)⌋ = 34 := by
    rw [Int.floor_eq_iff]
    norm_num
  have hrow : ⌊(24 : Rat)⌋ = 24 := Int.floor_ofNat 24
  rw [← bilinearElevation_iff]
  unfold bilinearElevation
  rw [eightMetres_elevations, List.length_replicate, hcells, hsize, hcount,
    hcolumn, hrow, if_neg (by norm_num)]
  simp only [Int.reduceToNat, Nat.reduceLeDiff, inf_of_le_left,
    Nat.reduceAdd, Nat.reduceMul, hsample _ (by norm_num : 1594 < 4225),
    hsample _ (by norm_num : 1595 < 4225),
    hsample _ (by norm_num : 1659 < 4225),
    hsample _ (by norm_num : 1660 < 4225)]
  norm_num [addWeighted, epsilon]

/-- The lookup of the tile decides. -/
theorem eightLookup_decides : Decides eightPosition eightLookup := by
  refine ⟨nofun, ?_⟩
  rintro ⟨-, tile, hdecode, hundefined⟩
  cases decode_eightMetres.symm.trans hdecode
  exact hundefined 8 eightMetres_interpolates

/-- An answer under the datum of the tile is its sample of eight metres. -/
theorem sample_of_answer {result : TerrainElevationLookupResult}
    (h : Answer config (some .wgs84Ellipsoid) eightPosition eightLookup
      result) :
    ∃ sample, result.sample = some sample ∧ sample.elevationM = 8 := by
  have hvalid : ValidSample (reportedSample
      (eightMetres.tile binary32 .wgs84Ellipsoid) 8 0 .cache) :=
    ⟨le_refl 0, ⟨'d', by decide, by decide⟩, nofun⟩
  have hsame : ∀ {tile : TerrainTile} {elevationM : Rat},
      Sampled eightPosition eightLookup tile elevationM →
      tile = eightMetres.tile binary32 .wgs84Ellipsoid ∧ elevationM = 8 := by
    intro tile elevationM hsampled
    cases decode_eightMetres.symm.trans hsampled.decoded
    have hvalue := bilinearElevation_iff.2 hsampled.defined
    rw [show bilinearElevation _ eightPosition.column eightPosition.row
      = some 8 from bilinearElevation_iff.2 eightMetres_interpolates] at hvalue
    exact ⟨rfl, (Option.some.inj hvalue).symm⟩
  cases h with
  | failed hready => exact absurd rfl hready
  | undecodable _ _ hdecode => cases decode_eightMetres.symm.trans hdecode
  | sampled tile elevationM _ hsampled => exact ⟨_, rfl, (hsame hsampled).2⟩
  | rejected tile elevationM hsampled _ hinvalid =>
    obtain ⟨rfl, rfl⟩ := hsame hsampled
    exact absurd hvalid (hinvalid 0 zero_float)
  | otherDatum tile elevationM datum hsampled hrequested hdatum =>
    obtain ⟨rfl, rfl⟩ := hsame hsampled
    cases hrequested
    exact absurd rfl hdatum

/-- The point is reported at eight metres. -/
theorem sampleElevation_spec_ready : ∃ sample,
    (sampleElevation {} (fun _ => 3 / 8) servedEight eightRequest
      ()).1.sample = some sample ∧ sample.elevationM = 8 := by
  have haccepted : rejectElevation {} eightRequest = none := by
    decide +kernel
  obtain ⟨position, lookup, hlookedUp, hposition, -⟩ :=
    lookedUp_of_accepted (fun _ => 3 / 8) servedEight haccepted ()
      (Nat.zero_le _)
  cases hposition.symm.trans eightRequest_position
  obtain ⟨-, _, rfl⟩ := lookup_of_lookedUp (Nat.zero_le _) hlookedUp
  rcases (sampleElevation_spec {} (fun _ => 3 / 8) servedEight eightRequest ()
      haccepted).1 with ⟨zoom, position, lookup, hfinest, hzoom, hanswer⟩ |
    ⟨hundecided, -⟩ | ⟨habsent, -⟩
  · -- the other zooms have no tile
    obtain ⟨hown, _, hlookup⟩ :=
      lookup_of_lookedUp hfinest.walked hfinest.lookedUp
    have hcoarsest : position.address.zoom = 0 := by
      by_contra hother
      refine hfinest.holds.available ?_
      rw [hlookup, servedEight, if_neg hother]
    have hzero : zoom = 0 := by
      rw [hcoarsest] at hzoom
      exact_mod_cast hzoom.symm
    subst hzero
    cases hown.symm.trans eightRequest_position
    subst hlookup
    exact sample_of_answer hanswer
  · exact absurd eightLookup_decides
      (hundecided 0 _ _ (Nat.zero_le _) hlookedUp)
  · exact absurd (habsent 0 _ _ (Nat.zero_le _) hlookedUp) nofun

end

end AowisMap.Terrain
