/-
What is served as a tile has bytes, and where the store downloaded it, it
is an accepted image.

The tile files on disk may hold anything, also nothing: somebody else may
have put them there. The invariant (`ImageInv`) follows the bytes through
the store. A body that a client reports is an accepted image
(`BringsImages`), and so are the bytes of a memory entry, a write, a file
and a read, where they come from a download; and every place that serves
bytes has tested that there are some, or holds a download.
-/
import AowisMap.Maps.Proofs.Refinement
import AowisMap.Maps.Proofs.TileHttpClient

namespace AowisMap.Maps

open Lib
open TileHttpClient (AcceptedImage)

variable {cfg : Config}

-- ================================================================ blobs

/-- What was downloaded is an accepted image. -/
def SoundBlob (data : Blob) : Prop :=
  data.origin ≠ none → AcceptedImage data.bytes

/-- What is served: not empty, and sound. -/
structure ServedBlob (data : Blob) : Prop where
  nonempty : data.isEmpty = false
  sound : SoundBlob data

/-- The body of a response: an accepted image has bytes. -/
theorem servedBlob_response {bytes : Bytes} (h : AcceptedImage bytes)
    (client : ClientId) (d : QueuedDownload) :
    ServedBlob (responseBlob client bytes d) := by
  refine ⟨?_, fun _ => h⟩
  show bytes.isEmpty = false
  cases bytes with
  | nil => exact absurd rfl h.nonempty
  | cons byte bytes => rfl

/-- Bytes that were tested. -/
theorem servedBlob_filter {found : Option Blob} {data : Blob}
    (hsound : ∀ data, found = some data → SoundBlob data)
    (h : (found.filter fun data => !data.isEmpty) = some data) :
    ServedBlob data := by
  obtain ⟨hfound, hnonempty⟩ := Option.filter_eq_some_iff.1 h
  exact ⟨by simpa using hnonempty, hsound data hfound⟩

-- ============================================================= invariant

/-- An answer with a tile serves it. -/
def ServedResult (r : TileRequestResult) : Prop :=
  r.status = .ready → ServedBlob r.data

/-- An answer without a tile. -/
theorem servedResult_of_ne {r : TileRequestResult} (h : r.status ≠ .ready) :
    ServedResult r :=
  fun hready => absurd hready h

/-- What the store holds and emits. -/
structure ImageInv (s : State) : Prop where
  memory : ∀ key data, s.tileMemoryCache.lookup key = some data →
    ServedBlob data
  files : ∀ path file, s.files.lookup path = some file →
    SoundBlob file.blob
  writes : ∀ id w, s.writes.lookup id = some w → ServedBlob w.data
  reads : ∀ id r data, s.reads.lookup id = some r → r.result = some data →
    SoundBlob data
  outbox : ∀ key data, Signal.tileReady key data ∈ s.outbox →
    ServedBlob data

variable {s u : State}

/-- Files that were there from the start have no download as origin. -/
theorem imageInv_init (files : QHash TilePath OutsideFile)
    (markers : QHash String String) :
    ImageInv (State.init files markers) where
  memory key data h := by cases h
  files path file h := by
    have h : (QHash.filterMapValues
        (fun _ (outside : OutsideFile) => some outside.file) files).lookup path
        = some file := h
    rw [QHash.lookup_filterMapValues] at h
    obtain ⟨outside, -, hfile⟩ := Option.bind_eq_some_iff.1 h
    cases hfile
    intro horigin
    exact absurd rfl horigin
  writes id w h := by cases h
  reads id r data h := by cases h
  outbox key data h := by cases h

/-- What the invariant reads. -/
theorem ImageInv.of_frame (h : ImageInv s)
    (hmemory : u.tileMemoryCache = s.tileMemoryCache)
    (hfiles : u.files = s.files) (hwrites : u.writes = s.writes)
    (hreads : u.reads = s.reads) (houtbox : u.outbox = s.outbox) :
    ImageInv u where
  memory key data hkey := h.memory key data (hmemory ▸ hkey)
  files path file hpath := h.files path file (hfiles ▸ hpath)
  writes id w hw := h.writes id w (hwrites ▸ hw)
  reads id r data hr hdata := h.reads id r data (hreads ▸ hr) hdata
  outbox key data hmem := h.outbox key data (houtbox ▸ hmem)

/-- The memory cache takes what may be served. -/
theorem imageInv_cacheInsert (h : ImageInv s) {data : Blob}
    (hdata : ServedBlob data) (key : String) :
    ImageInv (cacheInsert key data s) where
  memory key' data' hkey := by
    have hkey : (s.tileMemoryCache.insert key data).lookup key'
        = some data' := hkey
    by_cases hne : key' = key
    · rw [hne, AList.lookup_insert] at hkey
      cases hkey
      exact hdata
    · rw [AList.lookup_insert_ne hne] at hkey
      exact h.memory key' data' hkey
  files := h.files
  writes := h.writes
  reads := h.reads
  outbox := h.outbox

/-- Signals with tiles that may be served. -/
theorem imageInv_emitAll (h : ImageInv s) {signals : List Signal}
    (hsignals : ∀ key data, Signal.tileReady key data ∈ signals →
      ServedBlob data) : ImageInv (emitAll signals s) where
  memory := h.memory
  files := h.files
  writes := h.writes
  reads := h.reads
  outbox key data hmem := by
    have hmem : Signal.tileReady key data ∈ s.outbox ++ signals := hmem
    rcases List.mem_append.1 hmem with hmem | hmem
    · exact h.outbox key data hmem
    · exact hsignals key data hmem

/-- One tile for every key that waits. -/
theorem imageInv_emitReady (h : ImageInv s) {data : Blob}
    (hdata : ServedBlob data) (keys : List String) :
    ImageInv (emitReady keys data s) := by
  rw [emitReady_eq]
  apply imageInv_emitAll h
  intro key data' hmem
  obtain ⟨k, -, heq⟩ := List.mem_map.1 hmem
  cases heq
  exact hdata

/-- A failure carries no tile. -/
theorem imageInv_emitFailed (h : ImageInv s) (keys : List String)
    (reason : TileFailureReason) : ImageInv (emitFailed keys reason s) := by
  rw [emitFailed_eq]
  apply imageInv_emitAll h
  intro key data hmem
  obtain ⟨k, -, heq⟩ := List.mem_map.1 hmem
  cases heq

/-- A tile file may be empty, but never a download that was not accepted. -/
theorem ImageInv.readFile (h : ImageInv s) {path : TilePath} {data : Blob}
    (hread : Maps.readFile s path = some data) : SoundBlob data := by
  unfold Maps.readFile at hread
  split at hread
  · rename_i file hfile
    split at hread
    · cases hread
      exact h.files path file hfile
    · cases hread
  · cases hread

/-- A hit in memory is served as it is: it was tested before it got there. -/
theorem ImageInv.cached (h : ImageInv s) {key : String} {data : Blob}
    (hcached : Maps.cached s key = some data) : ServedBlob data :=
  h.memory key data (Option.filter_eq_some_iff.1 hcached).1

-- ============================================================== requests

/-- A selected directory does not matter. -/
theorem imageInv_providerCachePath (h : ImageInv s) (choice : Choice)
    (provider : String) :
    ImageInv (providerCachePath cfg choice provider s).2 := by
  unfold providerCachePath
  split
  · exact h
  · split
    · exact h
    · simp only
      split
      · exact h.of_frame rfl rfl rfl rfl rfl
      · exact h.of_frame rfl rfl rfl rfl rfl

/-- A download is queued: nothing is served yet. -/
theorem fetchTile_image (h : ImageInv s) (choice : Choice)
    (source : MapProvider) (path : TilePath) (canonicalKey key : String) :
    let r := fetchTile cfg choice source path canonicalKey key s
    ServedResult r.1 ∧ ImageInv r.2 := by
  intro r
  unfold r fetchTile
  split
  · refine ⟨?_, h.of_frame rfl rfl rfl rfl rfl⟩
    intro hready
    dsimp only at hready
    split at hready
    · cases hready
    · cases hready
  · exact ⟨servedResult_of_ne (by simp), h⟩

/-- On a miss the file is read and tested before it is served. -/
theorem getColdTile_image (h : ImageInv s) (choice : Choice)
    (provider : String) (source : MapProvider) (zoom x y : Int)
    (canonicalKey key : String) (dir : TileDir) :
    let r := getColdTile cfg choice provider source zoom x y canonicalKey key
      dir s
    ServedResult r.1 ∧ ImageInv r.2 := by
  intro r
  unfold r getColdTile
  dsimp only
  split
  · rename_i data hknown
    refine ⟨fun _ => ?_, h⟩
    split at hknown
    · exact h.memory canonicalKey data hknown
    · cases hknown
  · split
    · rename_i data hpermanent
      have hserved : ServedBlob data := by
        split at hpermanent
        · cases hpermanent
        · exact servedBlob_filter (fun data => h.readFile) hpermanent
      refine ⟨fun _ => hserved, ?_⟩
      exact (imageInv_cacheInsert h hserved canonicalKey).of_frame rfl rfl rfl
        rfl rfl
    · split
      · rename_i data hcached
        exact ⟨fun _ => h.cached hcached, h⟩
      · split
        · rename_i data hfile
          have hserved : ServedBlob data :=
            servedBlob_filter (fun data => h.readFile) hfile
          exact ⟨fun _ => hserved,
            imageInv_cacheInsert h hserved canonicalKey⟩
        · exact fetchTile_image h choice source ⟨dir, zoom, x, y⟩
            canonicalKey key

/-- A request is answered from memory or from what lies on disk. -/
theorem getTile_image (h : ImageInv s) (choice : Choice)
    (provider : String) (z x y : Int) (key : String) :
    let r := getTile cfg choice provider z x y key s
    ServedResult r.1 ∧ ImageInv r.2 := by
  intro r
  unfold r getTile
  split
  · exact ⟨servedResult_of_ne (by simp), h⟩
  · split
    · exact ⟨servedResult_of_ne (by simp), h⟩
    · dsimp only
      split
      · exact ⟨servedResult_of_ne (by simp), h⟩
      · split
        · rename_i data hwarm
          refine ⟨fun _ => ?_, h⟩
          split at hwarm
          · exact h.cached hwarm
          · cases hwarm
        · have hselected :=
            @imageInv_providerCachePath cfg s h choice provider
          split
          · exact ⟨servedResult_of_ne (by simp), hselected⟩
          · exact getColdTile_image hselected choice provider _ z _ y _ key _

/-- A read in the background is not answered yet. -/
theorem scheduleRead_image (h : ImageInv s) {read : CacheRead}
    (hresult : read.result = none) (key : String) :
    ServedResult (scheduleRead read key s).1 ∧
      ImageInv (scheduleRead read key s).2 := by
  unfold scheduleRead
  split
  · exact ⟨servedResult_of_ne (by simp), h.of_frame rfl rfl rfl rfl rfl⟩
  · split
    · exact ⟨servedResult_of_ne (by simp), h⟩
    · split
      · exact ⟨servedResult_of_ne (by simp), h⟩
      · refine ⟨servedResult_of_ne (by simp), h.memory, h.files, h.writes,
          ?_, h.outbox⟩
        intro id r data hr hdata
        have hr : (s.reads.insert s.nextRead read).lookup id = some r := hr
        by_cases hne : id = s.nextRead
        · rw [hne, AList.lookup_insert] at hr
          cases hr
          rw [hresult] at hdata
          cases hdata
        · rw [AList.lookup_insert_ne hne] at hr
          exact h.reads id r data hr hdata

/-- The same for a request of the server, which leaves files to a worker. -/
theorem getTileForHttp_image (h : ImageInv s) (choice : Choice)
    (provider : String) (z x y : Int) (key : String) :
    let r := getTileForHttp cfg choice provider z x y key s
    ServedResult r.1 ∧ ImageInv r.2 := by
  intro r
  unfold r getTileForHttp
  split
  · exact ⟨servedResult_of_ne (by simp), h⟩
  · split
    · exact ⟨servedResult_of_ne (by simp), h⟩
    · dsimp only
      split
      · rename_i data hwarm
        refine ⟨fun _ => ?_, h⟩
        split at hwarm
        · exact h.cached hwarm
        · cases hwarm
      · unfold getColdTileForHttp
        dsimp only
        split
        · exact scheduleRead_image h rfl key
        · split
          · rename_i data hcached
            exact ⟨fun _ => h.cached hcached, h⟩
          · have hselected :=
              @imageInv_providerCachePath cfg s h choice provider
            split
            · exact getTile_image hselected choice provider z x y key
            · split
              · exact scheduleRead_image hselected rfl key
              · exact getTile_image hselected choice provider z x y key

-- =========================================================== transitions

/-- What a client reports is an accepted image. -/
def BringsImages : Action → Prop
  | .requestFinished _ bytes _ => AcceptedImage bytes
  | _ => True

/-- What an answer notes does not touch the tiles. -/
theorem imageInv_answered {key : String} {r : TileRequestResult × State}
    (hr : ImageInv r.2) :
    ImageInv (answered key r) := by
  unfold Maps.answered
  split
  · exact hr.of_frame rfl rfl rfl rfl rfl
  · exact hr

/-- A download that finished, whose body the client accepted. -/
theorem imageInv_requestFinished (h : ImageInv s) {client : ClientId}
    {bytes : Bytes} {mayStore : Bool} (himage : AcceptedImage bytes)
    (hstep : requestFinished cfg client bytes mayStore s = some u) :
    ImageInv u := by
  obtain ⟨ended, -, hcases⟩ := requestFinished_inv hstep
  have hserved := servedBlob_response himage client ended.client.download
  have hdownloads : ImageInv { s with
      downloads := Downloads.startQueuedDownloads cfg ended.downloads } :=
    h.of_frame rfl rfl rfl rfl rfl
  rcases hcases with rfl | ⟨-, rfl⟩
  · exact imageInv_emitReady hdownloads hserved ended.responseKeys
  · have hinsert := imageInv_cacheInsert hdownloads hserved
      ended.client.download.canonicalKey
    refine ⟨hinsert.memory, hinsert.files, ?_, hinsert.reads,
      hinsert.outbox⟩
    intro id w hw
    have hw : (s.writes.insert s.nextWrite _).lookup id = some w := hw
    by_cases hne : id = s.nextWrite
    · rw [hne, AList.lookup_insert] at hw
      cases hw
      exact hserved
    · rw [AList.lookup_insert_ne hne] at hw
      exact h.writes id w hw

/-- A write keeps its bytes. -/
theorem imageInv_setWrite (h : ImageInv s) {write : WriteId}
    {w w' : CacheWrite} (hw : s.writes.lookup write = some w)
    (hdata : w'.data = w.data) :
    ImageInv { s with writes := s.writes.insert write w' } where
  memory := h.memory
  files := h.files
  writes id v hv := by
    have hv : (s.writes.insert write w').lookup id = some v := hv
    by_cases hne : id = write
    · rw [hne, AList.lookup_insert] at hv
      cases hv
      rw [hdata]
      exact h.writes write w hw
    · rw [AList.lookup_insert_ne hne] at hv
      exact h.writes id v hv
  reads := h.reads
  outbox := h.outbox

/-- A worker saves the bytes of its write. -/
theorem imageInv_writeRuns (h : ImageInv s) {write : WriteId} {saved : Bool}
    (hstep : writeRuns write saved s = some u) : ImageInv u := by
  obtain ⟨w, hw, -, ⟨result, rfl⟩ | ⟨-, rfl⟩⟩ := writeRuns_inv hstep
  · exact imageInv_setWrite h hw rfl
  · have hset :=
      @imageInv_setWrite s h write w { w with result := some true } hw rfl
    refine ⟨hset.memory, ?_, hset.writes, hset.reads, hset.outbox⟩
    intro path file hfile
    have hfile : (s.files.insert w.download.tilePath
        { blob := w.data }).lookup path = some file := hfile
    by_cases hne : path = w.download.tilePath
    · rw [hne, AList.lookup_insert] at hfile
      cases hfile
      exact (h.writes write w hw).sound
    · rw [AList.lookup_insert_ne hne] at hfile
      exact h.files path file hfile

/-- The callback of a write only takes it off the table. -/
theorem imageInv_writeFinished (h : ImageInv s) {write : WriteId}
    (hstep : writeFinished write s = some u) : ImageInv u := by
  obtain ⟨w, hw, -, rfl⟩ := writeFinished_inv hstep
  apply imageInv_emitReady _ (h.writes write w hw)
  refine ⟨h.memory, h.files, ?_, h.reads, h.outbox⟩
  intro id v hv
  have hv : (s.writes.erase write).lookup id = some v := hv
  by_cases hne : id = write
  · rw [hne, AList.lookup_erase] at hv
    cases hv
  · rw [AList.lookup_erase_ne hne] at hv
    exact h.writes id v hv

/-- A worker keeps the bytes of the file it read. -/
theorem imageInv_readRuns (h : ImageInv s) {read : ReadId}
    (hstep : readRuns read s = some u) : ImageInv u := by
  obtain ⟨r, data, hr, -, hdata, rfl⟩ := readRuns_inv hstep
  refine ⟨h.memory, h.files, h.writes, ?_, h.outbox⟩
  intro id r' data' hr' hdata'
  have hr' : (s.reads.insert read { r with result := some data }).lookup id
      = some r' := hr'
  by_cases hne : id = read
  · rw [hne, AList.lookup_insert] at hr'
    cases hr'
    cases hdata'
    rcases hdata with rfl | hfile
    · intro horigin
      exact absurd rfl horigin
    · exact h.readFile hfile
  · rw [AList.lookup_insert_ne hne] at hr'
    exact h.reads id r' data' hr' hdata'

/-- The callback of a read takes it off the table. -/
theorem imageInv_forgetRead (h : ImageInv s) (read : ReadId)
    (r : CacheRead) : ImageInv (forgetRead read r s) where
  memory := h.memory
  files := h.files
  writes := h.writes
  reads id r' data hr' hdata := by
    have hr' : (s.reads.erase read).lookup id = some r' := hr'
    by_cases hne : id = read
    · rw [hne, AList.lookup_erase] at hr'
      cases hr'
    · rw [AList.lookup_erase_ne hne] at hr'
      exact h.reads id r' data hr' hdata
  outbox := h.outbox

/-- Each requester of a read asks again. -/
theorem imageInv_retryRead (h : ImageInv s) (r : CacheRead)
    (requester : String × Choice) :
    ImageInv (retryRead cfg r s requester) := by
  obtain ⟨hserved, hinv⟩ := @getTile_image cfg s h requester.2
    r.provider r.zoom r.wrappedX r.y requester.1
  have hfailed : ∀ key reason {v : State}, ImageInv v →
      ImageInv (emit (.tileFailed key reason) v) := by
    intro key reason v hv
    rw [emit_eq]
    apply imageInv_emitAll hv
    intro key' data hmem
    cases List.mem_singleton.1 hmem
  unfold retryRead
  dsimp only
  split
  · rename_i hready
    rw [emit_eq]
    apply imageInv_emitAll hinv
    intro key data hmem
    cases List.mem_singleton.1 hmem
    exact hserved hready
  · exact hfailed _ _ hinv
  · exact hfailed _ _ hinv
  · exact hinv

/-- All requesters of a read, one after the other. -/
theorem imageInv_retryReads (h : ImageInv s) (r : CacheRead)
    (requesters : List (String × Choice)) :
    ImageInv (requesters.foldl (retryRead cfg r) s) := by
  induction requesters generalizing s with
  | nil => exact h
  | cons requester requesters ih =>
      exact ih (imageInv_retryRead h r requester)

/-- The callback of a read tests the bytes before it hands them out. -/
theorem imageInv_readFinished (h : ImageInv s) {read : ReadId}
    {choices : Nat → Choice}
    (hstep : readFinished cfg read choices s = some u) : ImageInv u := by
  obtain ⟨r, data, hr, hdata, hcases⟩ := readFinished_inv hstep
  have hforget := imageInv_forgetRead h read r
  rcases hcases with ⟨-, hnonempty, keys, rfl⟩ | rfl | ⟨requesters, -, rfl⟩
  · have hserved : ServedBlob data := ⟨hnonempty, h.reads read r data hr hdata⟩
    apply imageInv_emitReady _ hserved
    exact (imageInv_cacheInsert hforget hserved r.canonicalKey).of_frame rfl
      rfl rfl rfl rfl
  · exact imageInv_emitFailed hforget _ _
  · exact imageInv_retryReads hforget r requesters

/-- A deletion takes entries out of memory and marks writes as stale. -/
theorem imageInv_invalidateRange (h : ImageInv s) (range : TileRange) :
    ImageInv (invalidateRange range s) where
  memory key data hkey := by
    have hkey : (QHash.filterMapValues _ s.tileMemoryCache).lookup key
        = some data := hkey
    rw [QHash.lookup_filterMapValues] at hkey
    obtain ⟨data', hdata', heq⟩ := Option.bind_eq_some_iff.1 hkey
    split at heq
    · cases heq
    · cases heq
      exact h.memory key data hdata'
  files := h.files
  writes id w hw := by
    have hw : (QHash.filterMapValues _ s.writes).lookup id = some w := hw
    rw [QHash.lookup_filterMapValues] at hw
    obtain ⟨w', hw', heq⟩ := Option.bind_eq_some_iff.1 hw
    cases heq
    exact h.writes id w' hw'
  reads := h.reads
  outbox := h.outbox

/-- A deletion leaves fewer files, and none with other bytes. -/
theorem imageInv_deleteTiles (h : ImageInv s)
    (hdirs : OwnDirs s.providerCachePaths) (choice : Choice)
    (range : TileRange) (refuses : TilePath → Bool) :
    ImageInv (deleteTiles cfg choice range refuses s).2 := by
  have hdeletion : ∀ {dir : TileDir} {v w : State}, ImageInv v →
      Deletion range dir v w → ImageInv w := by
    intro dir v w hv hdeletion
    obtain ⟨files, keys, hbody⟩ := hdeletion.body
    have hinvalid := imageInv_invalidateRange hv range
    have hsub := hdeletion.files
    rw [hbody] at hsub ⊢
    exact ⟨hinvalid.memory, fun path file hfile =>
      hv.files path file (hsub path file hfile), hinvalid.writes,
      hinvalid.reads, hinvalid.outbox⟩
  obtain ⟨paths, markers, -, ⟨-, heq⟩ | ⟨dir, -, -, heq⟩⟩ :=
    deleteTiles_cases cfg choice range refuses hdirs
  · rw [heq]
    exact h.of_frame rfl rfl rfl rfl rfl
  · have hselected : ImageInv
        { s with providerCachePaths := paths, markers := markers } :=
      h.of_frame rfl rfl rfl rfl rfl
    rw [heq]
    rcases deleteFrom_cases range refuses dir
      { s with providerCachePaths := paths, markers := markers }
      with ⟨heq, -⟩ | ⟨v, hv, heq | ⟨count, heq, -⟩⟩
    · rw [heq]
      exact hselected.of_frame rfl rfl rfl rfl rfl
    · rw [heq]
      exact hdeletion hselected hv
    · rw [heq]
      exact (hdeletion hselected hv).of_frame rfl rfl rfl rfl rfl

/-- One step, by the action it performs. -/
theorem imageInv_perform {a : Action} (h : ImageInv s)
    (hdirs : OwnDirs s.providerCachePaths) (himages : BringsImages a)
    (hstep : perform cfg a s = some u) : ImageInv u := by
  cases a with
  | getTile choice provider z x y key =>
      cases hstep
      exact imageInv_answered (getTile_image h choice provider z x y key).2
  | getTileForHttp choice provider z x y key =>
      cases hstep
      exact imageInv_answered
        (getTileForHttp_image h choice provider z x y key).2
  | requestFinished client bytes mayStore =>
      exact imageInv_requestFinished h himages hstep
  | requestError client reason =>
      obtain ⟨ended, -, rfl⟩ := requestError_inv hstep
      apply imageInv_emitFailed
      exact h.of_frame rfl rfl rfl rfl rfl
  | writeRuns write saved => exact imageInv_writeRuns h hstep
  | writeFinished write => exact imageInv_writeFinished h hstep
  | readRuns read => exact imageInv_readRuns h hstep
  | readFinished read choices => exact imageInv_readFinished h hstep
  | deleteTiles choice range refuses =>
      cases hstep
      exact imageInv_deleteTiles h hdirs choice range refuses
  | cancelUpstreamDownloads =>
      cases hstep
      apply imageInv_emitFailed
      exact h.of_frame rfl rfl rfl rfl rfl
  | configureProviders providers coverage defaultCoverage =>
      cases hstep
      refine ⟨?_, h.files, h.writes, h.reads, h.outbox⟩
      intro key data hkey
      cases hkey
  | setPermanentDataDirectory directory =>
      cases hstep
      exact h.of_frame rfl rfl rfl rfl rfl
  | setRemoteFetchEnabled enabled =>
      cases hstep
      exact h.of_frame rfl rfl rfl rfl rfl
  | evict key =>
      cases hstep
      refine ⟨?_, h.files, h.writes, h.reads, h.outbox⟩
      intro key' data hkey
      have hkey : (s.tileMemoryCache.erase key).lookup key' = some data := hkey
      by_cases hne : key' = key
      · rw [hne, AList.lookup_erase] at hkey
        cases hkey
      · rw [AList.lookup_erase_ne hne] at hkey
        exact h.memory key' data hkey
  | outsideChange path outside =>
      cases hstep
      refine ⟨h.memory, ?_, h.writes, h.reads, h.outbox⟩
      intro path' file hfile
      cases outside with
      | none =>
          have hfile : (s.files.erase path).lookup path' = some file := hfile
          by_cases hne : path' = path
          · rw [hne, AList.lookup_erase] at hfile
            cases hfile
          · rw [AList.lookup_erase_ne hne] at hfile
            exact h.files path' file hfile
      | some outside =>
          have hfile : (s.files.insert path outside.file).lookup path'
              = some file := hfile
          by_cases hne : path' = path
          · rw [hne, AList.lookup_insert] at hfile
            cases hfile
            intro horigin
            exact absurd rfl horigin
          · rw [AList.lookup_insert_ne hne] at hfile
            exact h.files path' file hfile

/-- Every transition serves images, if the clients bring images. -/
theorem imageInv_apply {a : Action} (h : ImageInv s)
    (hdirs : OwnDirs s.providerCachePaths) (himages : BringsImages a)
    (hstep : apply cfg a s = some u) : ImageInv u := by
  have hempty : ImageInv { s with outbox := [] } := by
    refine ⟨h.memory, h.files, h.writes, h.reads, ?_⟩
    intro key data hmem
    cases hmem
  exact imageInv_perform hempty hdirs himages hstep

end AowisMap.Maps
