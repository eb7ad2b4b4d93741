/-
The CPU stage of a terrain request after its acquisition.

# The invariant

A planned cell that an acquisition has gone over is there, or the
acquisition relied on a confirmation that it is unavailable; and what it
relied on is still recorded, with an end no earlier, for as long as it has
not ended (`AcquisitionInv`). Cells are visited by many acquisitions at
once, and by fetches that may use the network; all they do is add files
and later ends (`Grows`).
-/
import AowisMap.Terrain.Proofs.Acquisition
import AowisMap.Terrain.Proofs.AreaAverage
import AowisMap.Terrain.Proofs.GridPlan

namespace AowisMap.Terrain

open Lib Prog

-- ============================================================= the plan

/-- The cells of a request that is not refused. -/
theorem SourceRequest.planned_tile {K : Type*} [Field K] [LinearOrder K]
    [FloorRing K] {latitude : K → K → K} {key : TileStore.TileKey}
    (hsupported : TileStore.Copernicus.supportsAddress key = true) :
    (SourceRequest.tile key).planned latitude
      = normalizedTileSourceAddresses latitude key.address := by
  unfold planned sources
  dsimp only
  rw [if_pos hsupported]

theorem SourceRequest.planned_grid {K : Type*} [Field K] [LinearOrder K]
    [FloorRing K] {latitude : K → K → K}
    {request : TerrainAnalysisGridRequest}
    {addresses : List CopernicusSourceAddress}
    (hdataset : TileStore.Copernicus.supportsDataset request.dataset = true)
    (hvalid : request.valid = true)
    (haddresses : analysisGridSourceAddresses request = some addresses) :
    (SourceRequest.grid request).planned latitude = addresses := by
  unfold planned sources
  simp only [hdataset, hvalid, haddresses, Bool.true_eq_false, if_false]

theorem valid_of_supportsAddress {key : TileStore.TileKey}
    (h : TileStore.Copernicus.supportsAddress key = true) :
    isValidTerrainTileAddress key.address = true := by
  unfold TileStore.Copernicus.supportsAddress at h
  simp only [Bool.and_eq_true] at h
  exact h.1.1.2

/-- Whatever is read for a request was planned. -/
theorem SourceRequest.asked_subset
    {load : CopernicusSourceAddress → SourceLoad}
    (hsizes : PlannedSizes load) (request : SourceRequest) :
    request.asked tileYToLatitudeDeg load
      ⊆ request.planned tileYToLatitudeDeg := by
  cases request with
  | tile key =>
      unfold asked
      dsimp only
      by_cases hsupported :
          TileStore.Copernicus.supportsAddress key = true
      · rw [if_pos hsupported, planned_tile hsupported]
        exact CopernicusRasterSet.sampleTile_subset hsizes
          mapLatitudes_tileYToLatitudeDeg
          (valid_of_supportsAddress hsupported)
      · rw [if_neg hsupported]
        exact List.nil_subset _
  | grid request =>
      unfold asked
      dsimp only
      by_cases hrefused :
          TileStore.Copernicus.supportsDataset request.dataset = false ∨
            request.valid = false ∨
            (analysisGridSourceAddresses request).isNone = true
      · rw [if_pos hrefused]
        exact List.nil_subset _
      · rw [if_neg hrefused]
        simp only [not_or, Bool.not_eq_false, Option.isNone_iff_eq_none]
          at hrefused
        obtain ⟨hdataset, hvalid, hsome⟩ := hrefused
        obtain ⟨addresses, haddresses⟩ := Option.ne_none_iff_exists'.1 hsome
        rw [planned_grid hdataset hvalid haddresses]
        exact CopernicusRasterSet.sampleGrid_subset hsizes hvalid haddresses

/-- A request that needs no network finds each of its cells. -/
theorem SourceRequest.available_of_availableLocally {sources : LocalSources}
    {request : SourceRequest}
    (h : request.availableLocally tileYToLatitudeDeg sources = true)
    {address : CopernicusSourceAddress}
    (hplanned : address ∈ request.planned tileYToLatitudeDeg) :
    sources.sourceCellAvailableLocally address = true ∨
      sources.confirmedUnavailable address = true := by
  have hall : ∀ {addresses : List CopernicusSourceAddress},
      sources.allAvailable addresses = true → address ∈ addresses →
      sources.sourceCellAvailableLocally address = true ∨
        sources.confirmedUnavailable address = true := by
    intro addresses havailable hmem
    have hfound := List.all_eq_true.1 havailable address hmem
    exact Bool.or_eq_true_iff.1 hfound
  cases request with
  | tile key =>
      unfold availableLocally LocalSources.tileSourcesAvailableLocally at h
      dsimp only at h
      split at h
      · cases h
      · rename_i hsupported
        rw [planned_tile ((Bool.not_eq_false _).mp hsupported)] at hplanned
        exact hall h hplanned
  | grid request =>
      unfold availableLocally LocalSources.gridSourcesAvailableLocally at h
      dsimp only at h
      split at h
      · cases h
      · rename_i haccepted
        rw [not_or, Bool.not_eq_false, Bool.not_eq_false] at haccepted
        split at h
        · rename_i hnone
          have hempty : (SourceRequest.grid request).planned
              tileYToLatitudeDeg = [] := by
            unfold planned SourceRequest.sources
            simp only [haccepted.1, haccepted.2, hnone, Bool.true_eq_false,
              if_false]
          rw [hempty] at hplanned
          cases hplanned
        · rename_i addresses haddresses
          rw [planned_grid haccepted.1 haccepted.2 haddresses] at hplanned
          exact hall h hplanned

/-- **The plan holds every cell that is read.** Whatever the cells hold,
for every tile and every grid, `fetchTile` and `fetchAnalysisGrid` ask for
planned cells only. So where the check finds each of them there or
confirmed to be unavailable, a stage without the network leaves out what
is confirmed to be unavailable, and nothing else. -/
theorem asked_planned (request : SourceRequest) :
    (∀ load, PlannedSizes load →
      request.asked tileYToLatitudeDeg load
        ⊆ request.planned tileYToLatitudeDeg) ∧
    ∀ sources : LocalSources, PlannedSizes sources.load →
      request.availableLocally tileYToLatitudeDeg sources = true →
      ∀ address ∈ request.asked tileYToLatitudeDeg sources.load,
        sources.load address = .unavailable →
        sources.confirmedUnavailable address = true := by
  refine ⟨fun load hsizes => request.asked_subset hsizes, ?_⟩
  intro sources hsizes havailable address hasked hmissing
  rcases SourceRequest.available_of_availableLocally havailable
    (request.asked_subset hsizes hasked) with hlocal | hconfirmed
  · unfold LocalSources.load at hmissing
    split at hmissing
    · assumption
    · obtain ⟨file, hfile⟩ := Option.isSome_iff_exists.1 hlocal
      rw [hfile] at hmissing
      cases file with
      | error openError => cases hmissing
      | ok raster => cases hmissing
  · exact hconfirmed

/-- A grid of two cells, on both sides of the border of two source cells. -/
def borderRequest : TerrainAnalysisGridRequest :=
  { pointRequest (101 / 2) 9 with
    bounds :=
      { westDeg := 9 - 1 / 1000
        eastDeg := 9 + 1 / 1000
        southDeg := 101 / 2 - 1 / 20000
        northDeg := 101 / 2 + 1 / 20000 }
    columns := 2 }

/-- The eastern one is there, the western one confirmed unavailable. -/
def borderSources : LocalSources where
  confirmedUnavailable address := address == ⟨50, 8⟩
  file address :=
    if address = ⟨50, 9⟩ then some (.ok (plainSource 0x42C80000)) else none

theorem plannedSizes_border : PlannedSizes borderSources.load := by
  intro address raster downloaded hload
  unfold LocalSources.load borderSources at hload
  dsimp only at hload
  split at hload
  · cases hload
  · split at hload
    · cases hload
    · cases hload
    · rename_i hfile
      cases hload
      split at hfile
      · cases hfile
        exact ⟨rfl, by decide⟩
      · cases hfile

/-- The grid asks for planned cells, and what it misses is confirmed. -/
theorem asked_planned_border :
    (SourceRequest.grid borderRequest).asked tileYToLatitudeDeg
        borderSources.load
        ⊆ (SourceRequest.grid borderRequest).planned tileYToLatitudeDeg ∧
      ∀ address ∈ (SourceRequest.grid borderRequest).asked
          tileYToLatitudeDeg borderSources.load,
        borderSources.load address = .unavailable →
        borderSources.confirmedUnavailable address = true :=
  ⟨(asked_planned _).1 _ plannedSizes_border,
    (asked_planned _).2 borderSources plannedSizes_border (by decide +kernel)⟩

-- =========================================================== the caches

/-- What the record of unavailable sources is. -/
structure RecordInv (cache : SourceCache) : Prop where
  until_le : ∀ {address retryAfter},
    cache.unavailableUntil address = some retryAfter →
    retryAfter ≤ cache.now + SourceCache.confirmationSeconds
  notFound : ∀ {address retryAfter},
    cache.unavailableUntil address = some retryAfter →
    ∃ answer ∈ (cache.disk address).answered, answer.NotFound

/-- What an acquisition may rely on. -/
structure AcquisitionInv (latitude : ℝ → ℝ → ℝ) (cache : SourceCache)
    (acquisition : Acquisition) : Prop where
  covered : ∀ address ∈ acquisition.request.planned latitude,
    address ∈ acquisition.pending ∨
      (cache.disk address).isLocal = true ∨
      ∃ retryAfter, (address, retryAfter) ∈ acquisition.reliedOn
  relied : ∀ {address retryAfter},
    (address, retryAfter) ∈ acquisition.reliedOn → cache.now < retryAfter →
    ∃ later, cache.unavailableUntil address = some later ∧
      retryAfter ≤ later
  finished : ∀ {result}, acquisition.result = some result →
    result.status = .ready → acquisition.pending = []

/-- What holds between the steps. -/
structure SourceCacheInv (latitude : ℝ → ℝ → ℝ) (cache : SourceCache) :
    Prop where
  record : RecordInv cache
  acquisition : ∀ {id acquisition},
    cache.acquisitions id = some acquisition →
    AcquisitionInv latitude cache acquisition

/-- Files are added, and confirmations that have not ended stay. `kept`
are the cells whose files matter. -/
structure Grows (kept : CopernicusSourceAddress → Prop)
    (cache after : SourceCache) : Prop where
  now_le : cache.now ≤ after.now
  isLocal : ∀ {address}, kept address →
    (cache.disk address).isLocal = true →
    (after.disk address).isLocal = true
  later : ∀ {address retryAfter},
    cache.unavailableUntil address = some retryAfter →
    after.now < retryAfter →
    ∃ later, after.unavailableUntil address = some later ∧
      retryAfter ≤ later

variable {latitude : ℝ → ℝ → ℝ} {cache after : SourceCache}
  {kept : CopernicusSourceAddress → Prop} {acquisition : Acquisition}

/-- What does not touch the files and the record. -/
theorem Grows.same (hnow : cache.now ≤ after.now)
    (hdisk : after.disk = cache.disk)
    (huntil : after.unavailableUntil = cache.unavailableUntil) :
    Grows kept cache after where
  now_le := hnow
  isLocal _ hlocal := by
    rw [hdisk]
    exact hlocal
  later hretry _ := by
    rw [huntil]
    exact ⟨_, hretry, le_refl _⟩

/-- An acquisition is none the worse for what the others do. -/
theorem AcquisitionInv.grows (h : AcquisitionInv latitude cache acquisition)
    (hgrows : Grows (· ∈ acquisition.request.planned latitude) cache after) :
    AcquisitionInv latitude after acquisition where
  covered address hplanned := by
    rcases h.covered address hplanned with hpending | hlocal | hrelied
    · exact Or.inl hpending
    · exact Or.inr (Or.inl (hgrows.isLocal hplanned hlocal))
    · exact Or.inr (Or.inr hrelied)
  relied hrelied hfresh := by
    obtain ⟨later, hlater, hle⟩ :=
      h.relied hrelied (lt_of_le_of_lt hgrows.now_le hfresh)
    obtain ⟨last, hlast, hle'⟩ :=
      hgrows.later hlater (lt_of_lt_of_le hfresh hle)
    exact ⟨last, hlast, hle.trans hle'⟩
  finished := h.finished

/-- The record keeps its form where answers stay and time passes. -/
theorem RecordInv.same (h : RecordInv cache) (hnow : cache.now ≤ after.now)
    (hanswered : ∀ address,
      (cache.disk address).answered ⊆ (after.disk address).answered)
    (huntil : ∀ {address retryAfter},
      after.unavailableUntil address = some retryAfter →
      cache.unavailableUntil address = some retryAfter) :
    RecordInv after where
  until_le hretry :=
    (h.until_le (huntil hretry)).trans (Nat.add_le_add_right hnow _)
  notFound hretry := by
    obtain ⟨answer, hanswer, hnotFound⟩ := h.notFound (huntil hretry)
    exact ⟨answer, hanswered _ hanswer, hnotFound⟩

-- ========================================================== one download

/-- What a download leaves, unless the process dies in it. -/
structure Loaded (cache : SourceCache) (address : CopernicusSourceAddress)
    (allowRemoteFetch : Bool) (result : SourceLoadResult)
    (after : SourceCache) : Prop where
  record : RecordInv after
  grows : Grows (fun _ => True) cache after
  acquisitions : after.acquisitions = cache.acquisitions
  ready : result.status = .ready → (after.disk address).isLocal = true
  unavailable : allowRemoteFetch = true → result.status = .unavailable →
    result.sourceConfirmedUnavailable = true ∧
      after.unavailableUntil address
        = some (after.now + SourceCache.confirmationSeconds)

variable {target : CopernicusSourceAddress → SourceTarget}
  {address : CopernicusSourceAddress} {attempt : Attempt}
  {fates : List Bool}

/-- A disk in place of another one that it keeps. -/
theorem withDisk_grows {disk : SourceDisk}
    (hkept : SourceKept (cache.disk address) disk) :
    Grows kept cache (cache.withDisk address disk) where
  now_le := le_refl _
  isLocal := by
    intro other _ hlocal
    show (Function.update cache.disk address disk other).isLocal = true
    by_cases hother : other = address
    · rw [hother, Function.update_self]
      exact hkept.isLocal (hother ▸ hlocal)
    · rw [Function.update_of_ne hother]
      exact hlocal
  later hretry _ := ⟨_, hretry, le_refl _⟩

theorem withDisk_record {disk : SourceDisk} (h : RecordInv cache)
    (hanswered : (cache.disk address).answered ⊆ disk.answered) :
    RecordInv (cache.withDisk address disk) := by
  refine h.same (le_refl _) ?_ id
  intro other
  show _ ⊆ (Function.update cache.disk address disk other).answered
  by_cases hother : other = address
  · rw [hother, Function.update_self]
    exact hanswered
  · rw [Function.update_of_ne hother]
    exact List.Subset.refl _

/-- A confirmation ends no earlier than the one before it. -/
theorem mark_grows (h : RecordInv cache) :
    Grows kept cache (cache.markSourceConfirmedUnavailable address) where
  now_le := le_refl _
  isLocal _ hlocal := hlocal
  later := by
    intro other retryAfter hretry _
    show ∃ later, Function.update cache.unavailableUntil address _ other
      = some later ∧ _
    by_cases hother : other = address
    · rw [hother, Function.update_self]
      exact ⟨_, rfl, h.until_le hretry⟩
    · rw [Function.update_of_ne hother]
      exact ⟨_, hretry, le_refl _⟩

theorem mark_record (h : RecordInv cache)
    (hanswer : ∃ answer ∈ (cache.disk address).answered, answer.NotFound) :
    RecordInv (cache.markSourceConfirmedUnavailable address) where
  until_le := by
    intro other retryAfter hretry
    have hretry : Function.update cache.unavailableUntil address
      (some (cache.now + SourceCache.confirmationSeconds)) other
        = some retryAfter := hretry
    by_cases hother : other = address
    · rw [hother, Function.update_self] at hretry
      exact (Option.some.inj hretry).symm.le
    · rw [Function.update_of_ne hother] at hretry
      exact h.until_le hretry
  notFound := by
    intro other retryAfter hretry
    have hretry : Function.update cache.unavailableUntil address
      (some (cache.now + SourceCache.confirmationSeconds)) other
        = some retryAfter := hretry
    by_cases hother : other = address
    · rw [hother]
      exact hanswer
    · rw [Function.update_of_ne hother] at hretry
      exact h.notFound hretry

theorem Grows.trans {last : SourceCache} (h : Grows kept cache after)
    (h' : Grows kept after last) : Grows kept cache last where
  now_le := h.now_le.trans h'.now_le
  isLocal hkept hlocal := h'.isLocal hkept (h.isLocal hkept hlocal)
  later hretry hfresh := by
    obtain ⟨later, hlater, hle⟩ :=
      h.later hretry (lt_of_le_of_lt h'.now_le hfresh)
    obtain ⟨last, hlast, hle'⟩ := h'.later hlater (lt_of_lt_of_le hfresh hle)
    exact ⟨last, hlast, hle.trans hle'⟩

/-- A download, or the death of the process. -/
theorem loadSource_spec (h : RecordInv cache) :
    (∃ result, (cache.loadSource target address attempt fates).1 = some result
      ∧ Loaded cache address attempt.allowRemoteFetch result
        (cache.loadSource target address attempt fates).2) ∨
    ∃ disk, cache.loadSource target address attempt fates
      = (none, (cache.withDisk address disk).restarted) := by
  have hruns := exec_spec (@downloadSourceTile_comes (cache.disk address)
    (target address) attempt) fates
  unfold SourceCache.loadSource
  generalize (downloadSourceTile (target address) attempt).exec fates
    (cache.disk address) = run at hruns ⊢
  obtain ⟨ended, disk⟩ := run
  rcases hruns with ⟨result, hended, houtcome⟩ | ⟨hended, -⟩
  · dsimp only at hended houtcome
    subst hended
    have hgrows : Grows (fun _ => True) cache (cache.withDisk address disk) :=
      withDisk_grows houtcome.toSourceKept
    have hrecord := withDisk_record h houtcome.answered
    have hdisk : (cache.withDisk address disk).disk address = disk :=
      Function.update_self _ _ _
    refine Or.inl ⟨result, ?_⟩
    dsimp only
    by_cases hmark : result.status = .unavailable ∧
        result.sourceConfirmedUnavailable = true
    · rw [if_pos hmark]
      refine ⟨rfl, mark_record hrecord ?_, hgrows.trans (mark_grows hrecord),
        rfl, ?_, fun _ _ => ⟨hmark.2, Function.update_self _ _ _⟩⟩
      · rw [hdisk]
        exact houtcome.notFound hmark.2
      · intro hready
        rw [hmark.1] at hready
        cases hready
    · rw [if_neg hmark]
      refine ⟨rfl, hrecord, hgrows, rfl, ?_, ?_⟩
      · intro hready
        show ((cache.withDisk address disk).disk address).isLocal = true
        rw [hdisk]
        exact houtcome.ready hready
      · intro hremote hunavailable
        exact absurd ⟨hunavailable,
          houtcome.unavailable hremote hunavailable⟩ hmark
  · dsimp only at hended
    subst hended
    exact Or.inr ⟨disk, rfl⟩

-- ============================================================ the steps

theorem SourceCacheInv.grows (h : SourceCacheInv latitude cache)
    (hrecord : RecordInv after) (hgrows : Grows (fun _ => True) cache after)
    (hacquisitions : after.acquisitions = cache.acquisitions) :
    SourceCacheInv latitude after where
  record := hrecord
  acquisition := by
    intro id acquisition hacquisition
    rw [hacquisitions] at hacquisition
    exact (h.acquisition hacquisition).grows
      ⟨hgrows.now_le, fun _ => hgrows.isLocal trivial, hgrows.later⟩

/-- An acquisition is set to one that has what it needs. -/
theorem SourceCacheInv.withAcquisition (h : SourceCacheInv latitude cache)
    {id : Nat} (hacquisition : AcquisitionInv latitude cache acquisition) :
    SourceCacheInv latitude (cache.withAcquisition id acquisition) where
  record := h.record.same (le_refl _) (fun _ => List.Subset.refl _)
    fun hretry => hretry
  acquisition := by
    intro other found hfound
    have hfound : Function.update cache.acquisitions id (some acquisition)
      other = some found := hfound
    have hsame : AcquisitionInv latitude cache found := by
      by_cases hother : other = id
      · rw [hother, Function.update_self] at hfound
        exact Option.some.inj hfound ▸ hacquisition
      · rw [Function.update_of_ne hother] at hfound
        exact h.acquisition hfound
    exact hsame.grows (Grows.same (le_refl _) rfl rfl)

/-- The process starts again, and knows nothing. -/
theorem restarted_inv : SourceCacheInv latitude cache.restarted where
  record := ⟨nofun, nofun⟩
  acquisition := nofun

/-- One more cell is there, or relied on to be unavailable. -/
theorem AcquisitionInv.visited (h : AcquisitionInv latitude cache acquisition)
    {relied : List (CopernicusSourceAddress × Nat)}
    (hrunning : acquisition.result = none)
    (hkept : acquisition.reliedOn ⊆ relied)
    (hrelied : ∀ {other retryAfter}, (other, retryAfter) ∈ relied →
      (other, retryAfter) ∈ acquisition.reliedOn ∨
        ∃ later, cache.unavailableUntil other = some later ∧
          retryAfter ≤ later)
    (hdone : (cache.disk address).isLocal = true ∨
      ∃ retryAfter, (address, retryAfter) ∈ relied) :
    AcquisitionInv latitude cache { acquisition with
      pending := acquisition.pending.erase address
      reliedOn := relied } where
  covered other hplanned := by
    by_cases hother : other = address
    · rw [hother]
      exact Or.inr hdone
    · rcases h.covered other hplanned with hpending | hlocal | ⟨retry, hretry⟩
      · exact Or.inl ((List.mem_erase_of_ne hother).2 hpending)
      · exact Or.inr (Or.inl hlocal)
      · exact Or.inr (Or.inr ⟨retry, hkept hretry⟩)
  relied hmem hfresh := by
    rcases hrelied hmem with hold | hnew
    · exact h.relied hold hfresh
    · exact hnew
  finished hresult := by
    rw [hrunning] at hresult
    cases hresult

theorem AcquisitionInv.failed (h : AcquisitionInv latitude cache acquisition)
    {failure : TerrainProviderFetchResult}
    (hfailure : failure.status ≠ .ready) :
    AcquisitionInv latitude cache
      { acquisition with result := some failure } where
  covered := h.covered
  relied := h.relied
  finished hresult hready :=
    absurd (Option.some.inj hresult ▸ hready) hfailure

theorem acquisitionFailure_some {acquired : SourceLoadResult}
    {failure : TerrainProviderFetchResult}
    (h : acquisitionFailure acquired = some failure) :
    failure.status ≠ .ready := by
  unfold acquisitionFailure at h
  split at h
  · cases h
    exact nofun
  · cases h
    exact nofun
  · cases h
    exact nofun
  · cases h
  · cases h

theorem acquisitionFailure_none {acquired : SourceLoadResult}
    (h : acquisitionFailure acquired = none) :
    acquired.status = .ready ∨ acquired.status = .unavailable := by
  unfold acquisitionFailure at h
  split at h
  · cases h
  · cases h
  · cases h
  · exact Or.inr ‹_›
  · exact Or.inl ‹_›

/-- One round of an acquisition keeps the invariant. -/
theorem visitSource_inv (h : SourceCacheInv latitude cache) {id : Nat}
    (hacquisition : cache.acquisitions id = some acquisition)
    (hrunning : acquisition.result = none) :
    SourceCacheInv latitude (visitSource target cache id acquisition address
      attempt fates) := by
  have hinv := h.acquisition hacquisition
  unfold visitSource
  dsimp only
  split
  · rename_i retryAfter hretry
    obtain ⟨hretry, -⟩ := Option.filter_eq_some_iff.1 hretry
    refine h.withAcquisition (hinv.visited hrunning
      (List.subset_cons_self _ _) ?_
      (Or.inr ⟨retryAfter, List.mem_cons_self⟩))
    intro other end' hmem
    rcases List.mem_cons.1 hmem with hhead | hrest
    · cases hhead
      exact Or.inr ⟨_, hretry, le_refl _⟩
    · exact Or.inl hrest
  · rcases @loadSource_spec cache target address
        { attempt with allowRemoteFetch := true } fates h.record with
      ⟨acquired, hresult, hloaded⟩ | ⟨disk, hdied⟩
    · generalize cache.loadSource target address
        { attempt with allowRemoteFetch := true } fates = load
        at hresult hloaded
      obtain ⟨result, after⟩ := load
      dsimp only at hresult hloaded
      subst hresult
      have h' := h.grows hloaded.record hloaded.grows hloaded.acquisitions
      have hinv' := h'.acquisition (hloaded.acquisitions ▸ hacquisition)
      dsimp only
      cases hfailure : acquisitionFailure acquired with
      | some failure =>
          exact h'.withAcquisition
            (hinv'.failed (acquisitionFailure_some hfailure))
      | none =>
          refine h'.withAcquisition (hinv'.visited hrunning ?_ ?_ ?_)
          · split
            · exact List.subset_cons_self _ _
            · exact List.Subset.refl _
          · intro other retryAfter hmem
            split at hmem
            · rename_i hunavailable
              rcases List.mem_cons.1 hmem with hhead | hrest
              · cases hhead
                exact Or.inr ⟨_, (hloaded.unavailable rfl hunavailable.1).2,
                  le_refl _⟩
              · exact Or.inl hrest
            · exact Or.inl hmem
          · rcases acquisitionFailure_none hfailure with hready | hmissing
            · exact Or.inl (hloaded.ready hready)
            · rw [if_pos ⟨hmissing, (hloaded.unavailable rfl hmissing).1⟩]
              exact Or.inr ⟨_, List.mem_cons_self⟩
    · rw [hdied]
      exact restarted_inv

/-- An acquisition starts with its planned cells before it. -/
theorem startAcquisition_inv {request : SourceRequest}
    {cancelRequested : Bool} :
    AcquisitionInv latitude cache
      (startAcquisition latitude request cancelRequested) := by
  unfold startAcquisition
  cases cancelRequested with
  | true =>
      exact
        { covered := fun address hplanned => Or.inl hplanned
          relied := fun hmem => absurd hmem List.not_mem_nil
          finished := fun hresult hready => by
            cases hresult
            cases hready }
  | false =>
      rw [if_neg Bool.false_ne_true]
      cases hsources : request.sources latitude with
      | error refusal =>
          have hplanned : request.planned latitude = [] := by
            unfold SourceRequest.planned
            rw [hsources]
          refine
            { covered := fun address hmem => ?_
              relied := fun hmem => absurd hmem List.not_mem_nil
              finished := fun _ _ => rfl }
          have hmem : address ∈ request.planned latitude := hmem
          rw [hplanned] at hmem
          cases hmem
      | ok addresses =>
          have hplanned : request.planned latitude = addresses := by
            unfold SourceRequest.planned
            rw [hsources]
          refine
            { covered := fun address hmem => Or.inl ?_
              relied := fun hmem => absurd hmem List.not_mem_nil
              finished := fun hresult => by cases hresult }
          exact hplanned ▸ hmem

/-- No file is removed that an acquisition has planned. -/
def KeepsPlanned (latitude : ℝ → ℝ → ℝ) (action : SourceCacheAction)
    (cache : SourceCache) : Prop :=
  ∀ address, action = .remove address → ∀ id acquisition,
    cache.acquisitions id = some acquisition →
    address ∉ acquisition.request.planned latitude

/-- A raster that is loaded may bring a file, or the restart. -/
theorem SourceCacheInv.loaded (h : SourceCacheInv latitude cache)
    (address : CopernicusSourceAddress) (attempt : Attempt)
    (fates : List Bool) :
    SourceCacheInv latitude
      (cache.loadSource target address attempt fates).2 := by
  rcases @loadSource_spec cache target address attempt fates h.record
    with ⟨acquired, -, hloaded⟩ | ⟨disk, hdied⟩
  · exact h.grows hloaded.record hloaded.grows hloaded.acquisitions
  · rw [hdied]
    exact restarted_inv

/-- A confirmation that has ended may be dropped: nobody relies on it
any more. -/
theorem SourceCacheInv.dropped (h : SourceCacheInv latitude cache)
    {address : CopernicusSourceAddress}
    (hended : ¬ cache.isSourceConfirmedUnavailable address = true) :
    SourceCacheInv latitude { cache with
      unavailableUntil :=
        Function.update cache.unavailableUntil address none } := by
  have huntil : ∀ {other retryAfter},
      Function.update cache.unavailableUntil address none other
        = some retryAfter →
      cache.unavailableUntil other = some retryAfter := by
    intro other retryAfter hretry
    by_cases hother : other = address
    · rw [hother, Function.update_self] at hretry
      cases hretry
    · rw [Function.update_of_ne hother] at hretry
      exact hretry
  refine h.grows (h.record.same (le_refl _)
    (fun _ => List.Subset.refl _) huntil)
    ⟨le_refl _, fun _ hlocal => hlocal, ?_⟩ rfl
  intro other retryAfter hretry hfresh
  have hother : other ≠ address := by
    rintro rfl
    apply hended
    unfold SourceCache.isSourceConfirmedUnavailable
    rw [hretry]
    exact decide_eq_true hfresh
  exact ⟨retryAfter, (Function.update_of_ne hother _ _).trans hretry,
    le_refl _⟩

/-- A file that no acquisition has planned may be removed or replaced. -/
theorem SourceCacheInv.replaced (h : SourceCacheInv latitude cache)
    {address : CopernicusSourceAddress}
    (hunplanned : ∀ id acquisition, cache.acquisitions id = some acquisition →
      address ∉ acquisition.request.planned latitude)
    (file : Option Bytes) :
    SourceCacheInv latitude (cache.withDisk address
      { cache.disk address with finalFile := file }) := by
  refine ⟨withDisk_record h.record (List.Subset.refl _), ?_⟩
  intro id acquisition hacquisition
  refine (h.acquisition hacquisition).grows
    ⟨le_refl _, ?_, fun hretry _ => ⟨_, hretry, le_refl _⟩⟩
  intro other hplanned hlocal
  have hother : other ≠ address := fun heq =>
    hunplanned id acquisition hacquisition (heq ▸ hplanned)
  show (Function.update cache.disk address _ other).isLocal = true
  rw [Function.update_of_ne hother]
  exact hlocal

/-- An acquisition that is forgotten leaves the others. -/
theorem SourceCacheInv.released (h : SourceCacheInv latitude cache)
    (id : Nat) :
    SourceCacheInv latitude { cache with
      acquisitions := Function.update cache.acquisitions id none } := by
  refine ⟨h.record.same (le_refl _) (fun _ => List.Subset.refl _)
    fun hretry => hretry, ?_⟩
  intro other acquisition hacquisition
  have hacquisition : Function.update cache.acquisitions id none other
    = some acquisition := hacquisition
  have hother : other ≠ id := by
    rintro rfl
    rw [Function.update_self] at hacquisition
    cases hacquisition
  rw [Function.update_of_ne hother] at hacquisition
  exact (h.acquisition hacquisition).grows
    (Grows.same (le_refl _) rfl rfl)

/-- Every step keeps the invariant. -/
theorem sourceCacheStep_inv {action : SourceCacheAction}
    (h : SourceCacheInv latitude cache)
    (hkeeps : KeepsPlanned latitude action cache)
    (hstep : sourceCacheStep latitude target action cache = some after) :
    SourceCacheInv latitude after := by
  cases action with
  | wait seconds =>
      cases hstep
      exact h.grows (h.record.same (Nat.le_add_right _ _)
        (fun _ => List.Subset.refl _) id)
        (Grows.same (Nat.le_add_right _ _) rfl rfl) rfl
  | start id request cancelRequested =>
      unfold sourceCacheStep at hstep
      dsimp only at hstep
      split at hstep
      · cases hstep
      · cases hstep
        exact h.withAcquisition startAcquisition_inv
  | visit id address attempt fates =>
      unfold sourceCacheStep at hstep
      dsimp only at hstep
      split at hstep
      · cases hstep
      · rename_i acquisition hacquisition
        split at hstep
        · rename_i hvisit
          cases hstep
          exact visitSource_inv h hacquisition
            (Option.isNone_iff_eq_none.1 hvisit.1)
        · cases hstep
  | finish id =>
      unfold sourceCacheStep at hstep
      dsimp only at hstep
      split at hstep
      · cases hstep
      · rename_i acquisition hacquisition
        have hinv := h.acquisition hacquisition
        split at hstep
        · rename_i hfinish
          cases hstep
          exact h.withAcquisition
            ⟨hinv.covered, hinv.relied, fun _ _ => hfinish.2⟩
        · cases hstep
  | raster address attempt fates =>
      unfold sourceCacheStep at hstep
      dsimp only at hstep
      split at hstep
      · cases hstep
        exact h
      · cases hstep
        exact h.loaded address attempt fates
  | drop address =>
      unfold sourceCacheStep at hstep
      dsimp only at hstep
      split at hstep
      · cases hstep
      · rename_i hended
        cases hstep
        exact h.dropped hended
  | remove address =>
      cases hstep
      exact h.replaced (hkeeps address rfl) none
  | release id =>
      cases hstep
      exact h.released id
  | restart =>
      cases hstep
      exact restarted_inv

-- ============================================================= the runs

/-- The invariant of every run that keeps the planned files. -/
theorem sourceCacheInv_reachable
    {files : CopernicusSourceAddress → SourceDisk}
    (hrun : Run (sourceCacheStep latitude target) (KeepsPlanned latitude)
      (SourceCache.init files) cache) : SourceCacheInv latitude cache := by
  refine hrun.invariant ⟨⟨nofun, nofun⟩, nofun⟩ ?_
  exact fun action before after hinv hkeeps hstep =>
    sourceCacheStep_inv hinv hkeeps hstep

/-- The rasters of the files are of the planned sizes. -/
theorem localSources_planned
    {openRaster : CopernicusSourceAddress → Bytes →
      Except String SourceRaster}
    (hsizes : ∀ address bytes raster,
      openRaster address bytes = .ok raster → raster.Planned) :
    PlannedSizes (cache.localSources openRaster).load := by
  intro address raster downloaded hload
  unfold LocalSources.load at hload
  split at hload
  · cases hload
  · split at hload
    · cases hload
    · cases hload
    · rename_i opened hopened
      cases hload
      unfold SourceCache.localSources at hopened
      dsimp only at hopened
      split at hopened
      · obtain ⟨bytes, -, hraster⟩ := Option.map_eq_some_iff.1 hopened
        exact hsizes address bytes _ hraster
      · cases hopened

/-- Only what is not there is unavailable. -/
theorem localSources_unavailable
    {openRaster : CopernicusSourceAddress → Bytes →
      Except String SourceRaster}
    (h : (cache.localSources openRaster).load address = .unavailable) :
    cache.isSourceConfirmedUnavailable address = true ∨
      (cache.disk address).isLocal = false := by
  unfold LocalSources.load at h
  split at h
  · rename_i hconfirmed
    exact Or.inl hconfirmed
  · split at h
    · rename_i hfile
      unfold SourceCache.localSources at hfile
      dsimp only at hfile
      split at hfile
      · rename_i hlocal
        unfold SourceDisk.isLocal at hlocal
        rw [Option.map_eq_none_iff.1 hfile] at hlocal
        cases hlocal
      · rename_i hmissing
        exact Or.inr (Bool.not_eq_true _ ▸ hmissing)
    · cases h
    · cases h

/-- A confirmation goes back to an answer. -/
theorem RecordInv.answered (h : RecordInv cache)
    (hconfirmed : cache.isSourceConfirmedUnavailable address = true) :
    ∃ answer ∈ (cache.disk address).answered, answer.NotFound := by
  unfold SourceCache.isSourceConfirmedUnavailable at hconfirmed
  cases hretry : cache.unavailableUntil address with
  | none =>
      rw [hretry] at hconfirmed
      cases hconfirmed
  | some retryAfter => exact h.notFound hretry

/-- A finished acquisition leaves no planned cell without a file or a
confirmation, until one it relied on ends. -/
theorem AcquisitionInv.available
    (h : AcquisitionInv latitude cache acquisition)
    {result : TerrainProviderFetchResult}
    (hresult : acquisition.result = some result)
    (hready : result.status = .ready)
    (hfresh : ∀ relied ∈ acquisition.reliedOn, cache.now < relied.2)
    (hplanned : address ∈ acquisition.request.planned latitude) :
    (cache.disk address).isLocal = true ∨
      cache.isSourceConfirmedUnavailable address = true := by
  rcases h.covered address hplanned with hpending | hlocal | ⟨retry, hretry⟩
  · rw [h.finished hresult hready] at hpending
    cases hpending
  · exact Or.inl hlocal
  · have hfresh := hfresh _ hretry
    obtain ⟨later, hlater, hle⟩ := h.relied hretry hfresh
    right
    unfold SourceCache.isSourceConfirmedUnavailable
    rw [hlater]
    exact decide_eq_true (lt_of_lt_of_le hfresh hle)

/-- **The CPU stage misses no source it could have had.** In every run of
acquisitions, fetches and restarts, in any order, in which no file is
removed that an acquisition has planned: once an acquisition is done, and
as long as no confirmation it relied on has ended, every cell that the
stage without the network asks for is there, or the upstream has answered
that it has none. -/
theorem acquired_complete {files : CopernicusSourceAddress → SourceDisk}
    {openRaster : CopernicusSourceAddress → Bytes →
      Except String SourceRaster}
    (hsizes : ∀ address bytes raster,
      openRaster address bytes = .ok raster → raster.Planned)
    (hrun : Run (sourceCacheStep tileYToLatitudeDeg target)
      (KeepsPlanned tileYToLatitudeDeg) (SourceCache.init files) cache)
    {id : Nat} (hacquisition : cache.acquisitions id = some acquisition)
    {result : TerrainProviderFetchResult}
    (hresult : acquisition.result = some result)
    (hready : result.status = .ready)
    (hfresh : ∀ relied ∈ acquisition.reliedOn, cache.now < relied.2) :
    ∀ address ∈ acquisition.request.asked tileYToLatitudeDeg
        (cache.localSources openRaster).load,
      (cache.localSources openRaster).load address = .unavailable →
      cache.isSourceConfirmedUnavailable address = true ∧
        ∃ answer ∈ (cache.disk address).answered, answer.NotFound := by
  intro address hasked hmissing
  have hinv := sourceCacheInv_reachable hrun
  have hplanned := acquisition.request.asked_subset
    (localSources_planned hsizes) hasked
  have hconfirmed : cache.isSourceConfirmedUnavailable address = true := by
    rcases (hinv.acquisition hacquisition).available hresult hready hfresh
      hplanned with hlocal | hconfirmed
    · rcases localSources_unavailable hmissing with hconfirmed | hnone
      · exact hconfirmed
      · rw [hlocal] at hnone
        cases hnone
    · exact hconfirmed
  exact ⟨hconfirmed, hinv.record.answered hconfirmed⟩

/-- One cell of a grid is downloaded and one is not there; the result
applies after its acquisition. -/
theorem acquired_complete_border :
    ∃ (cache : SourceCache) (acquisition : Acquisition),
      cache.acquisitions 0 = some acquisition ∧
      (cache.disk ⟨50, 9⟩).isLocal = true ∧
      acquisition.reliedOn = [(⟨50, 8⟩, 3600)] ∧
      ∀ address ∈ acquisition.request.asked tileYToLatitudeDeg
          (cache.localSources fun _ _ => .ok (plainSource 0x42C80000)).load,
        (cache.localSources fun _ _ => .ok (plainSource 0x42C80000)).load
          address = .unavailable →
        cache.isSourceConfirmedUnavailable address = true ∧
          ∃ answer ∈ (cache.disk address).answered, answer.NotFound := by
  have hsteps : ((runActions
      (sourceCacheStep tileYToLatitudeDeg fun _ => ⟨"cache", "n.tif", "u"⟩)
      [.start 0 (.grid borderRequest) false,
        .visit 0 ⟨50, 9⟩ { answer := { httpStatus := 200, chunks := [[1]] } }
          (List.replicate 60 true),
        .visit 0 ⟨50, 8⟩ { answer := { httpStatus := 404 } }
          (List.replicate 20 true),
        .finish 0]
      (SourceCache.init fun _ => {})).filter fun cache =>
        (cache.disk ⟨50, 9⟩).isLocal).map (fun cache =>
          (cache.now, (cache.acquisitions 0).map fun acquisition =>
            (acquisition.reliedOn, acquisition.result)))
      = some (0, some ([(⟨50, 8⟩, 3600)], some ⟨.ready, ""⟩)) := by
    decide +kernel
  obtain ⟨cache, hfound, hseen⟩ := Option.map_eq_some_iff.1 hsteps
  obtain ⟨hrun, hlocal⟩ := Option.filter_eq_some_iff.1 hfound
  have hnow : cache.now = 0 := congrArg Prod.fst hseen
  obtain ⟨acquisition, hacquisition, hresult⟩ :=
    Option.map_eq_some_iff.1 (congrArg Prod.snd hseen)
  have hrelied : acquisition.reliedOn = [(⟨50, 8⟩, 3600)] :=
    congrArg Prod.fst hresult
  refine ⟨cache, acquisition, hacquisition, hlocal, hrelied,
    acquired_complete ?_ (run_of_admitted hrun ?_) hacquisition
      (congrArg Prod.snd hresult) rfl ?_⟩
  · intro _ _ _ hopened
    cases hopened
    exact ⟨rfl, by decide⟩
  · intro action hmem before address hremove
    subst hremove
    simp at hmem
  · intro relied hmem
    rw [hrelied] at hmem
    rw [hnow, List.mem_singleton.1 hmem]
    decide

end AowisMap.Terrain
