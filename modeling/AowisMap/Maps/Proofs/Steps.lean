/-
What each method and callback of the tile store can do, once and for all:
the inversions every invariant of the store is derived from.

A request (`getTile`, `getTileForHttp`) has one of five effects
(`Requested`): it changes nothing but the selected cache directory, it
loads a file into memory, it goes to the download scheduler, it joins a
pending read, or it schedules one. A client's end answers its keys or
hands them to a cache write (`requestFinished_inv`), a write's worker
commits its file or not (`writeRuns_inv`), a read's callback loads what
the worker read, answers, or asks again for each of its requesters
(`readFinished_inv`), and a deletion is an invalidation followed by
removals (`deleteTiles_cases`).
-/
import AowisMap.Maps.Tiles
import AowisMap.Maps.Proofs.Scheduler

namespace AowisMap.Maps

open Lib

variable {cfg : Config}

-- ============================================================== signals

/-- Emits signals one after the other. -/
def emitAll (signals : List Signal) (s : State) : State :=
  { s with
    outbox := s.outbox ++ signals
    awaiting := s.awaiting \ (signals.map Signal.key).toFinset }

theorem emit_eq (signal : Signal) (s : State) :
    emit signal s = emitAll [signal] s := by
  unfold emit emitAll
  rw [List.map_singleton, List.toFinset_cons, List.toFinset_nil,
    insert_empty_eq, Finset.sdiff_singleton_eq_erase]

theorem emitAll_append (xs ys : List Signal) (s : State) :
    emitAll ys (emitAll xs s) = emitAll (xs ++ ys) s := by
  unfold emitAll
  simp only [List.append_assoc, List.map_append, List.toFinset_append,
    sdiff_sdiff_left, Finset.sup_eq_union]

/-- Emitting a signal for each of a list of keys. -/
theorem foldl_emit_eq (signal : String → Signal) (keys : List String)
    (s : State) :
    keys.foldl (fun s key => emit (signal key) s) s
      = emitAll (keys.map signal) s := by
  induction keys generalizing s with
  | nil => simp [emitAll]
  | cons key keys ih =>
      rw [List.foldl_cons, ih, emit_eq, emitAll_append, List.map_cons,
        List.singleton_append]

theorem emitReady_eq (keys : List String) (data : Blob) (s : State) :
    emitReady keys data s
      = emitAll (keys.map fun key => .tileReady key data) s :=
  foldl_emit_eq (fun key => .tileReady key data) keys s

theorem emitFailed_eq (keys : List String) (reason : TileFailureReason)
    (s : State) :
    emitFailed keys reason s
      = emitAll (keys.map fun key => .tileFailed key reason) s :=
  foldl_emit_eq (fun key => .tileFailed key reason) keys s

-- ====================================================== cache directories

/-- A selected directory is its provider's. -/
def OwnDirs (paths : QHash String TileDir) : Prop :=
  ∀ p dir, paths.lookup p = some dir → dir.provider = p

theorem ownDirs_empty : OwnDirs ∅ := by
  intro p dir h
  cases h

/-- `providerCachePath` writes the selected directory and its marker, and
returns a directory of the provider. -/
theorem providerCachePath_spec (cfg : Config) (choice : Choice)
    (provider : String) {s : State} (hdirs : OwnDirs s.providerCachePaths) :
    ∃ paths markers, OwnDirs paths ∧
      (providerCachePath cfg choice provider s).2
        = { s with providerCachePaths := paths, markers := markers } ∧
      ∀ dir, (providerCachePath cfg choice provider s).1 = some dir →
        dir.provider = provider := by
  have hinsert : ∀ dir : TileDir, dir.provider = provider →
      OwnDirs (s.providerCachePaths.insert provider dir) := by
    intro dir hdir p d hp
    by_cases hpp : p = provider
    · subst hpp
      rw [AList.lookup_insert] at hp
      cases hp
      exact hdir
    · rw [AList.lookup_insert_ne hpp] at hp
      exact hdirs p d hp
  unfold providerCachePath
  split
  · exact ⟨s.providerCachePaths, s.markers, hdirs, rfl, fun dir h => by
      cases h⟩
  · split
    · rename_i dir hknown
      refine ⟨s.providerCachePaths, s.markers, hdirs, rfl, ?_⟩
      intro dir' h
      cases h
      exact hdirs provider dir hknown
    · simp only
      split
      · refine ⟨_, s.markers, hinsert _ ?_, rfl, ?_⟩
        · rfl
        · intro dir h
          cases h
          rfl
      · refine ⟨_, _, hinsert _ ?_, rfl, ?_⟩
        · rfl
        · intro dir h
          cases h
          rfl

-- ============================================================= requests

/-- The effect of one request for a response key. -/
inductive Requested (cfg : Config) (key : String) (s : State) :
    TileRequestResult → State → Prop
  /-- Refused, or served from memory. -/
  | quiet (r : TileRequestResult) (paths : QHash String TileDir)
      (markers : QHash String String) :
      OwnDirs paths → r.status ≠ .pending →
      Requested cfg key s r
        { s with providerCachePaths := paths, markers := markers }
  /-- Served from a file, which is loaded into memory. -/
  | loaded (path : TilePath) (data : Blob) (paths : QHash String TileDir)
      (markers : QHash String String) (permanentKeys : Finset String) :
      OwnDirs paths → readFile s path = some data →
      Requested cfg key s { status := .ready, data := data }
        { cacheInsert path.tile.key data s with
          providerCachePaths := paths
          markers := markers
          permanentCachedKeys := permanentKeys }
  /-- Handed to the download scheduler. -/
  | scheduled (d : QueuedDownload) (paths : QHash String TileDir)
      (markers : QHash String String) :
      OwnDirs paths → d.responseKey = key →
      d.canonicalKey = d.tilePath.tile.key → d.tilePath.tile.Valid →
      Requested cfg key s
        { status :=
            if (Downloads.scheduleMapTileDownload cfg d s.downloads).1
              = .scheduled then .pending else .serverBusy }
        { s with
          providerCachePaths := paths
          markers := markers
          downloads :=
            (Downloads.scheduleMapTileDownload cfg d s.downloads).2 }
  /-- Joined to a pending read. -/
  | joined (readKey : String) (keys : List String)
      (paths : QHash String TileDir) (markers : QHash String String) :
      OwnDirs paths → s.cacheReadsPending.lookup readKey = some keys →
      Requested cfg key s { status := .pending }
        { s with
          providerCachePaths := paths
          markers := markers
          cacheReadsPending :=
            s.cacheReadsPending.insert readKey (keys ++ [key]) }
  /-- A new read was scheduled. -/
  | reading (read : CacheRead) (paths : QHash String TileDir)
      (markers : QHash String String) :
      OwnDirs paths → s.cacheReadsPending.lookup read.readKey = none →
      read.generation = s.cacheGeneration → read.result = none →
      read.canonicalKey = read.readPath.tile.key →
      Requested cfg key s { status := .pending }
        { s with
          providerCachePaths := paths
          markers := markers
          pendingCacheReadBytes := s.pendingCacheReadBytes + read.fileSize
          cacheReadsPending := s.cacheReadsPending.insert read.readKey [key]
          reads := s.reads.insert s.nextRead read
          nextRead := s.nextRead + 1 }

/-- Upstream fetching refuses or goes to the scheduler. -/
theorem fetchTile_requested {choice : Choice} {source : MapProvider}
    {tilePath : TilePath} {key : String} {s : State}
    (paths : QHash String TileDir) (markers : QHash String String)
    (hdirs : OwnDirs paths) (hvalid : tilePath.tile.Valid) :
    let s' := { s with providerCachePaths := paths, markers := markers }
    Requested cfg key s
      (fetchTile cfg choice source tilePath tilePath.tile.key key s').1
      (fetchTile cfg choice source tilePath tilePath.tile.key key s').2 := by
  intro s'
  unfold fetchTile
  split
  · exact .scheduled
      { url := providerUrl source choice.subdomain tilePath.zoom tilePath.x
          tilePath.y
        tilePath := tilePath
        canonicalKey := tilePath.tile.key
        responseKey := key } paths markers hdirs rfl rfl hvalid
  · exact .quiet _ paths markers hdirs (by simp)

/-- Behind the warm memory cache: files, memory, upstream. -/
theorem getColdTile_requested {choice : Choice} {provider : String}
    {source : MapProvider} {zoom x y : Int} {key : String} {dir : TileDir}
    {s : State} (paths : QHash String TileDir)
    (markers : QHash String String) (hdirs : OwnDirs paths)
    (hdir : dir.provider = provider)
    (hvalid : (Tile.mk provider zoom x y).Valid) :
    let s' := { s with providerCachePaths := paths, markers := markers }
    let canonicalKey := canonicalTileKey provider zoom x y
    Requested cfg key s
      (getColdTile cfg choice provider source zoom x y canonicalKey key dir
        s').1
      (getColdTile cfg choice provider source zoom x y canonicalKey key dir
        s').2 := by
  intro s' canonicalKey
  subst hdir
  unfold getColdTile
  simp only
  split
  · exact .quiet _ paths markers hdirs (by simp)
  · split
    · rename_i data hperm
      have hread : readFile s (permanentPath s dir.provider zoom x y)
          = some data := by
        by_cases hempty : s.permanentDataDirectory = ""
        · rw [show s'.permanentDataDirectory = "" from hempty,
            if_pos rfl] at hperm
          cases hperm
        · rw [if_neg hempty] at hperm
          exact (Option.filter_eq_some_iff.1 hperm).1
      exact .loaded (permanentPath s dir.provider zoom x y) data paths
        markers _ hdirs hread
    · split
      · exact .quiet _ paths markers hdirs (by simp)
      · split
        · rename_i data hfile
          exact .loaded ⟨dir, zoom, x, y⟩ data paths markers _ hdirs
            (Option.filter_eq_some_iff.1 hfile).1
        · exact fetchTile_requested paths markers hdirs hvalid

/-- The effect of `getTile`. -/
theorem getTile_requested {s : State} (hdirs : OwnDirs s.providerCachePaths)
    (cfg : Config) (choice : Choice) (provider : String) (z x y : Int)
    (key : String) :
    Requested cfg key s (getTile cfg choice provider z x y key s).1
      (getTile cfg choice provider z x y key s).2 := by
  have hquiet : ∀ r : TileRequestResult, r.status ≠ .pending →
      Requested cfg key s r s :=
    fun r hr => .quiet r s.providerCachePaths s.markers hdirs hr
  obtain ⟨paths, markers, hown, hsel, hdir⟩ :=
    providerCachePath_spec cfg choice provider hdirs
  unfold getTile
  split
  · exact hquiet _ (by simp)
  · split
    · exact hquiet _ (by simp)
    · rename_i hzoom
      simp only
      split
      · exact hquiet _ (by simp)
      · rename_i hrow
        split
        · exact hquiet _ (by simp)
        · split
          · rw [hsel]
            exact .quiet _ paths markers hown (by simp)
          · rename_i dir hsome
            rw [hsel]
            have hpos := tileCount_pos z
            refine getColdTile_requested paths markers hown (hdir dir hsome)
              ⟨?_, ?_, ?_, ?_, ?_, ?_⟩
            · show 0 ≤ z
              omega
            · show z ≤ 30
              omega
            · show 0 ≤ positiveModulo x (tileCount z)
              rw [positiveModulo_eq x hpos]
              exact Int.emod_nonneg x (Int.ne_of_gt hpos)
            · show positiveModulo x (tileCount z) < tileCount z
              rw [positiveModulo_eq x hpos]
              exact Int.emod_lt_of_pos x hpos
            · show 0 ≤ y
              omega
            · show y < tileCount z
              omega

/-- The directory selected on the way does not matter. -/
theorem Requested.of_paths {key : String} {s : State}
    {paths : QHash String TileDir} {markers : QHash String String}
    {r : TileRequestResult} {s' : State}
    (h : Requested cfg key
      { s with providerCachePaths := paths, markers := markers } r s') :
    Requested cfg key s r s' := by
  cases h with
  | quiet r paths markers hdirs hr => exact .quiet r paths markers hdirs hr
  | loaded path data paths markers keys hdirs hread =>
      exact .loaded path data paths markers keys hdirs hread
  | scheduled d paths markers hdirs hkey hcanon hvalid =>
      exact .scheduled d paths markers hdirs hkey hcanon hvalid
  | joined readKey keys paths markers hdirs hk =>
      exact .joined readKey keys paths markers hdirs hk
  | reading read paths markers hdirs hnone hgen hres hcanon =>
      exact .reading read paths markers hdirs hnone hgen hres hcanon

/-- Scheduling a read joins, refuses or starts one. -/
theorem scheduleRead_requested {read : CacheRead} {key : String} {s : State}
    (paths : QHash String TileDir) (markers : QHash String String)
    (hdirs : OwnDirs paths) (hgen : read.generation = s.cacheGeneration)
    (hres : read.result = none)
    (hcanon : read.canonicalKey = read.readPath.tile.key) :
    let s' := { s with providerCachePaths := paths, markers := markers }
    Requested cfg key s (scheduleRead read key s').1
      (scheduleRead read key s').2 := by
  intro s'
  unfold scheduleRead
  split
  · rename_i keys hk
    exact .joined read.readKey keys paths markers hdirs hk
  · rename_i hnone
    split
    · exact .quiet _ paths markers hdirs (by simp)
    · split
      · exact .quiet _ paths markers hdirs (by simp)
      · exact .reading read paths markers hdirs hnone hgen hres hcanon

/-- The effect of `getTileForHttp`. -/
theorem getTileForHttp_requested {s : State}
    (hdirs : OwnDirs s.providerCachePaths) (cfg : Config) (choice : Choice)
    (provider : String) (z x y : Int) (key : String) :
    Requested cfg key s (getTileForHttp cfg choice provider z x y key s).1
      (getTileForHttp cfg choice provider z x y key s).2 := by
  have hquiet : ∀ r : TileRequestResult, r.status ≠ .pending →
      Requested cfg key s r s :=
    fun r hr => .quiet r s.providerCachePaths s.markers hdirs hr
  obtain ⟨paths, markers, hown, hsel, hdir⟩ :=
    providerCachePath_spec cfg choice provider hdirs
  unfold getTileForHttp
  split
  · exact hquiet _ (by simp)
  · split
    · exact hquiet _ (by simp)
    · simp only
      split
      · exact hquiet _ (by simp)
      · unfold getColdTileForHttp
        simp only
        split
        · exact scheduleRead_requested s.providerCachePaths s.markers hdirs
            rfl rfl rfl
        · split
          · exact hquiet _ (by simp)
          · rw [hsel]
            split
            · exact (getTile_requested hown cfg choice provider z x y
                key).of_paths
            · rename_i dir hsome
              split
              · refine scheduleRead_requested paths markers hown rfl rfl ?_
                have hprovider := hdir dir hsome
                subst hprovider
                rfl
              · exact (getTile_requested hown cfg choice provider z x y
                  key).of_paths

/-- What a requester is left with after its fallback: the effect of a
request, and its answer unless that is pending. -/
theorem retryRead_requested {s : State}
    (hdirs : OwnDirs s.providerCachePaths) (cfg : Config) (r : CacheRead)
    (requester : String × Choice) :
    ∃ answer u, Requested cfg requester.1 s answer u ∧
      (answer.status = .pending ∧ retryRead cfg r s requester = u ∨
        answer.status ≠ .pending ∧ ∃ signal,
          signal.key = requester.1 ∧
          retryRead cfg r s requester = emit signal u) := by
  refine ⟨_, _, getTile_requested hdirs cfg requester.2 r.provider r.zoom
    r.wrappedX r.y requester.1, ?_⟩
  unfold retryRead
  simp only
  split
  · rename_i hstatus
    exact Or.inr ⟨by rw [hstatus]; simp, _, rfl, rfl⟩
  · rename_i hstatus
    exact Or.inr ⟨by rw [hstatus]; simp, _, rfl, rfl⟩
  · rename_i hstatus
    exact Or.inr ⟨by rw [hstatus]; simp, _, rfl, rfl⟩
  · rename_i hstatus
    exact Or.inl ⟨hstatus, rfl⟩

-- ============================================================ downloads

/-- The bytes a client reports. -/
def responseBlob (client : ClientId) (bytes : Bytes) (d : QueuedDownload) :
    Blob :=
  { bytes := bytes, origin := some ⟨client, d.tilePath.tile⟩ }

/-- The end of a finished client: the queue is scanned, and its keys are
answered, or a cache write takes them over when the download was not
invalidated. -/
theorem requestFinished_inv {client : ClientId} {bytes : Bytes}
    {mayStore : Bool} {s s' : State}
    (h : requestFinished cfg client bytes mayStore s = some s') :
    ∃ ended, Downloads.clientEnds cfg client s.downloads = some ended ∧
      let data := responseBlob client bytes ended.client.download
      let u := { s with
        downloads := Downloads.startQueuedDownloads cfg ended.downloads }
      s' = emitReady ended.responseKeys data u ∨
      ended.invalidated = false ∧
        s' = scheduleWrite ended.client.download data ended.responseKeys u
    := by
  unfold requestFinished at h
  split at h
  · cases h
  · rename_i ended hended
    refine ⟨ended, hended, ?_⟩
    split at h
    · cases h
    · simp only at h
      split at h
      · cases h
        exact Or.inl rfl
      · rename_i hstore
        split at h
        · cases h
          exact Or.inl rfl
        · cases h
          refine Or.inr ⟨?_, rfl⟩
          rw [Bool.eq_false_iff]
          exact (not_or.1 hstore).1

/-- The end of a failed client. -/
theorem requestError_inv {client : ClientId} {reason : TileFailureReason}
    {s s' : State} (h : requestError cfg client reason s = some s') :
    ∃ ended, Downloads.clientEnds cfg client s.downloads = some ended ∧
      s' = emitFailed ended.responseKeys reason { s with
        downloads := Downloads.startQueuedDownloads cfg ended.downloads }
    := by
  unfold requestError at h
  split at h
  · cases h
  · rename_i ended hended
    split at h
    · cases h
    · cases h
      exact ⟨ended, hended, rfl⟩

-- =============================================================== writes

/-- A write's worker runs once; only a write that was not invalidated
commits its file. -/
theorem writeRuns_inv {write : WriteId} {saved : Bool} {s s' : State}
    (h : writeRuns write saved s = some s') :
    ∃ w, s.writes.lookup write = some w ∧ w.result = none ∧
      ((∃ result, s' = { s with
          writes := s.writes.insert write { w with result := some result } })
        ∨
        w.invalidated = false ∧ s' = { s with
          writes := s.writes.insert write { w with result := some true }
          files := s.files.insert w.download.tilePath { blob := w.data }
          history := s.history ++ [.written w.download.tilePath w.data] })
    := by
  unfold writeRuns at h
  split at h
  · cases h
  · rename_i w hw
    split at h
    · cases h
    · rename_i hrun
      refine ⟨w, hw, not_not.1 hrun, ?_⟩
      split at h
      · cases h
        exact Or.inl ⟨true, rfl⟩
      · rename_i hlive
        split at h
        · cases h
          exact Or.inr ⟨Bool.eq_false_iff.2 hlive, rfl⟩
        · cases h
          exact Or.inl ⟨false, rfl⟩

/-- A finished write's callback forgets the write and answers its keys.
-/
theorem writeFinished_inv {write : WriteId} {s s' : State}
    (h : writeFinished write s = some s') :
    ∃ w, s.writes.lookup write = some w ∧ w.result ≠ none ∧
      s' = emitReady w.responseKeys w.data { s with
        pendingCacheWrites := s.pendingCacheWrites - 1
        pendingCacheWriteBytes := s.pendingCacheWriteBytes - w.data.size
        cacheWritesPendingKeys :=
          s.cacheWritesPendingKeys.erase w.download.canonicalKey
        cacheWriteStates :=
          s.cacheWriteStates.erase w.download.canonicalKey
        downloads := Downloads.forgetInvalidation w.download.canonicalKey
          s.downloads
        writes := s.writes.erase write } := by
  unfold writeFinished at h
  split at h
  · cases h
  · rename_i w hw
    split at h
    · cases h
    · rename_i hrun
      cases h
      exact ⟨w, hw, hrun, rfl⟩

-- ================================================================ reads

/-- A read's worker runs once and reads a file, or nothing. -/
theorem readRuns_inv {read : ReadId} {s s' : State}
    (h : readRuns read s = some s') :
    ∃ r data, s.reads.lookup read = some r ∧ r.result = none ∧
      (data = { bytes := [] } ∨ readFile s r.readPath = some data) ∧
      s' = { s with
        reads := s.reads.insert read { r with result := some data } } := by
  unfold readRuns at h
  split at h
  · cases h
  · rename_i r hr
    split at h
    · cases h
    · rename_i hrun
      cases h
      refine ⟨r, _, hr, not_not.1 hrun, ?_, rfl⟩
      cases hfile : (readFile s r.readPath).filter fun data =>
          data.size == r.fileSize with
      | none => exact Or.inl rfl
      | some data => exact Or.inr (Option.filter_eq_some_iff.1 hfile).1

/-- The keys a read answers. -/
def readKeys (r : CacheRead) (s : State) : List String :=
  (s.cacheReadsPending.lookup r.readKey).getD []

/-- A state without a finished read. -/
def forgetRead (read : ReadId) (r : CacheRead) (s : State) : State :=
  { s with
    pendingCacheReadBytes := s.pendingCacheReadBytes - r.fileSize
    cacheReadsPending := s.cacheReadsPending.erase r.readKey
    reads := s.reads.erase read }

/-- A finished read's callback loads the bytes of a current read, drops
a stale one, and otherwise lets every requester ask again. -/
theorem readFinished_inv {read : ReadId} {choices : Nat → Choice}
    {s s' : State} (h : readFinished cfg read choices s = some s') :
    ∃ r data, s.reads.lookup read = some r ∧ r.result = some data ∧
      (r.generation = s.cacheGeneration ∧ data.isEmpty = false ∧
          (∃ permanentKeys, s' = emitReady (readKeys r s) data
            { cacheInsert r.canonicalKey data (forgetRead read r s) with
              permanentCachedKeys := permanentKeys }) ∨
        s' = emitFailed (readKeys r s) .cancelled (forgetRead read r s) ∨
        ∃ requesters : List (String × Choice),
          requesters.map (·.1) = readKeys r s ∧
          s' = requesters.foldl (retryRead cfg r) (forgetRead read r s))
    := by
  unfold readFinished at h
  split at h
  · cases h
  · rename_i r hr
    split at h
    · cases h
    · rename_i data hdata
      refine ⟨r, data, hr, hdata, ?_⟩
      simp only at h
      split at h
      · rename_i hcurrent
        cases h
        exact Or.inl ⟨hcurrent.1, hcurrent.2, _, rfl⟩
      · refine Or.inr ?_
        split at h
        · cases h
          exact Or.inl rfl
        · cases h
          refine Or.inr ⟨_, ?_, rfl⟩
          rw [List.map_map]
          exact List.zipIdx_map_fst 0 _

-- ============================================================= deletion

/-- What the removal loop leaves: it erases tile files and their
permanent marks, and a loop that counted has erased them all. -/
theorem removeFiles_spec (range : TileRange) (refuses : TilePath → Bool)
    (paths : List TilePath) (s : State) (count : Nat) :
    ∃ files permanentKeys,
      (removeFiles range refuses paths s count).2
        = { s with files := files, permanentCachedKeys := permanentKeys } ∧
      permanentKeys ⊆ s.permanentCachedKeys ∧
      (∀ path file, files.lookup path = some file →
        s.files.lookup path = some file) ∧
      ((removeFiles range refuses paths s count).1 ≠ none →
        ∀ path ∈ paths, files.lookup path = none) := by
  induction paths generalizing s count with
  | nil =>
      exact ⟨s.files, s.permanentCachedKeys, rfl, Finset.Subset.refl _,
        fun _ _ h => h, fun _ path hpath => by cases hpath⟩
  | cons path paths ih =>
      rw [removeFiles]
      split
      · exact ⟨s.files, s.permanentCachedKeys, rfl, Finset.Subset.refl _,
          fun _ _ h => h, fun h => absurd rfl h⟩
      · obtain ⟨files, keys, heq, hmarks, hsub, hgone⟩ := ih { s with
          files := s.files.erase path
          permanentCachedKeys := s.permanentCachedKeys.erase
            (canonicalTileKey range.provider range.zoom path.x path.y) }
          (count + 1)
        have hold : ∀ p file, files.lookup p = some file →
            p ≠ path ∧ s.files.lookup p = some file := by
          intro p file hp
          have herased := hsub p file hp
          by_cases hpp : p = path
          · subst hpp
            rw [AList.lookup_erase] at herased
            cases herased
          · rw [AList.lookup_erase_ne hpp] at herased
            exact ⟨hpp, herased⟩
        refine ⟨files, keys, heq, hmarks.trans (Finset.erase_subset _ _),
          fun p file hp => (hold p file hp).2, ?_⟩
        intro hcount p hp
        rcases List.mem_cons.1 hp with heqp | hp
        · cases hlook : files.lookup p with
          | none => rfl
          | some file => exact absurd heqp (hold p file hlook).1
        · exact hgone hcount p hp

/-- What a deletion leaves: the covered writes, marks and memory entries
invalidated, fewer files and fewer permanent marks. -/
structure Deletion (range : TileRange) (dir : TileDir) (s s' : State) :
    Prop where
  body : ∃ files permanentKeys, s' = { invalidateRange range s with
    files := files
    permanentCachedKeys := permanentKeys }
  files : ∀ path file, s'.files.lookup path = some file →
    s.files.lookup path = some file
  marks : s'.permanentCachedKeys ⊆ s.permanentCachedKeys

/-- What `deleteFrom` does: it finds no row in its range, or invalidates
the range and removes files; a deletion that counted has removed every
covered one. -/
theorem deleteFrom_cases (range : TileRange) (refuses : TilePath → Bool)
    (dir : TileDir) (s : State) :
    (deleteFrom range refuses dir s = (0, recordDeletion range s) ∧
      ∀ t, range.contains t = false) ∨
    ∃ s', Deletion range dir s s' ∧
      (deleteFrom range refuses dir s = (-2, s') ∨
        ∃ count : Nat,
          deleteFrom range refuses dir s
            = ((count : Int), recordDeletion range s') ∧
          ∀ path file, s'.files.lookup path = some file →
            range.coversFile dir path = false) := by
  unfold deleteFrom
  split
  · rename_i hrows
    refine Or.inl ⟨rfl, ?_⟩
    intro t
    unfold TileRange.contains
    rw [Bool.eq_false_iff]
    intro htrue
    simp only [Bool.and_eq_true, decide_eq_true_eq] at htrue
    omega
  · refine Or.inr ?_
    obtain ⟨files, keys, heq, hmarks, hsub, hgone⟩ := removeFiles_spec range
      refuses (s.files.keys.filter fun path => range.coversFile dir path)
      (invalidateRange range s) 0
    refine ⟨_, ⟨⟨files, keys, rfl⟩, hsub, hmarks⟩, ?_⟩
    simp only
    split
    · exact Or.inl (by rw [heq])
    · rename_i count hcount
      refine Or.inr ⟨count, by rw [heq], ?_⟩
      intro path file hpath
      rw [← Bool.not_eq_true]
      intro hcovers
      have hold : s.files.lookup path = some file := hsub path file hpath
      have hmem : path ∈ s.files.keys := by
        rw [← AList.mem_keys, ← AList.lookup_isSome, hold]
        rfl
      have hnone := hgone (by rw [hcount]; simp) path
        (List.mem_filter.2 ⟨hmem, hcovers⟩)
      have hpath : files.lookup path = some file := hpath
      rw [hnone] at hpath
      cases hpath

/-- What `deleteTiles` does: it is refused, or deletes from the
provider's selected directory. -/
theorem deleteTiles_cases (cfg : Config) (choice : Choice)
    (range : TileRange) (refuses : TilePath → Bool) {s : State}
    (hdirs : OwnDirs s.providerCachePaths) :
    ∃ paths markers, OwnDirs paths ∧
      ((deleteTiles cfg choice range refuses s).1 = -1 ∧
          (deleteTiles cfg choice range refuses s).2
            = { s with providerCachePaths := paths, markers := markers } ∨
        ∃ dir, dir.provider = range.provider ∧
          (providerCachePath cfg choice range.provider s).1 = some dir ∧
          deleteTiles cfg choice range refuses s
            = deleteFrom range refuses dir
              { s with providerCachePaths := paths, markers := markers })
    := by
  obtain ⟨paths, markers, hown, hsel, hdir⟩ :=
    providerCachePath_spec cfg choice range.provider hdirs
  unfold deleteTiles
  split
  · exact ⟨s.providerCachePaths, s.markers, hdirs, Or.inl ⟨rfl, rfl⟩⟩
  · refine ⟨paths, markers, hown, ?_⟩
    simp only
    split
    · exact Or.inl ⟨rfl, hsel⟩
    · rename_i dir hsome
      exact Or.inr ⟨dir, hdir dir hsome, hsome, by rw [hsel]⟩

end AowisMap.Maps
