/-
The two request methods agree except on files that are there and hold no
tile.

# One lookup order

`getTile` looks for a usable tile in four places (`usableTile`: a known
permanent entry, the permanent file, memory, the ordinary file) and asks
upstream when there is none. `getTileForHttp` first decides which file to
read by its existence alone (`httpFile`), reads it in the background, and
falls back to `getTile` when the read returned nothing. Where it reads no
file the two agree (`http_without_file`). Where it reads one, three kinds
of state part them: a file of size zero is never read and the request is
refused, an unreadable file turns a refusal of the fallback into an
upstream failure, and a known permanent entry without bytes is served by
`getTile` only.
-/
import AowisMap.Maps.Proofs.Precedence

namespace AowisMap.Maps

open Lib

variable {cfg : Config} {choice : Choice} {provider : String}
  {z x y : Int} {key : String} {s u : State}

-- ============================================================= outcomes

/-- What a request comes to in the end. -/
inductive Outcome
  /-- Bytes, at once or by `tileReady`. -/
  | bytes (data : Blob)
  /-- The request is with the download scheduler. -/
  | download (downloads : Downloads)
  | invalidRequest
  | serverBusy
  /-- `tileFailed`. -/
  | failed (reason : TileFailureReason)

/-- The outcome of an answer, when a pending one is a download. -/
def outcomeOf (r : TileRequestResult × State) : Outcome :=
  match r.1.status with
  | .ready => .bytes r.1.data
  | .pending => .download r.2.downloads
  | .invalidRequest => .invalidRequest
  | .serverBusy => .serverBusy

/-- The outcome of `getTile`. -/
def plainOutcome (cfg : Config) (choice : Choice) (provider : String)
    (z x y : Int) (key : String) (s : State) : Outcome :=
  outcomeOf (getTile cfg choice provider z x y key s)

/-- The outcome of a background read that nothing comes between: its
worker runs, then its callback, whose signal for the key is the answer;
without a signal the request went to the download scheduler. -/
def readOutcome (cfg : Config) (choice : Choice) (key : String)
    (read : ReadId) (s : State) : Outcome :=
  match (readRuns read { s with outbox := [] }).bind
      (readFinished cfg read fun _ => choice) with
  | none => .download s.downloads
  | some s =>
      match s.outbox.find? fun signal => signal.key == key with
      | some (.tileReady _ data) => .bytes data
      | some (.tileFailed _ reason) => .failed reason
      | none => .download s.downloads

/-- The outcome of `getTileForHttp`. -/
def httpOutcome (cfg : Config) (choice : Choice) (provider : String)
    (z x y : Int) (key : String) (s : State) : Outcome :=
  let r := getTileForHttp cfg choice provider z x y key s
  match r.1.status, r.2.reads.lookup s.nextRead with
  | .pending, some _ => readOutcome cfg choice key s.nextRead r.2
  | _, _ => outcomeOf r

/-- No background read is pending. -/
structure NoPendingReads (s : State) : Prop where
  reads : s.reads = ∅
  keys : s.cacheReadsPending = ∅
  bytes : s.pendingCacheReadBytes = 0

-- =============================================================== lookup

/-- A request that names a tile of a configured provider. -/
structure Asks (provider : String) (z y : Int) (source : MapProvider)
    (s : State) : Prop where
  source : s.configuredProviders.lookup provider = some source
  zoom : ¬ (z < 0 ∨ z > 30)
  row : ¬ (y < 0 ∨ y ≥ tileCount z)

/-- The canonical key of a request. -/
def requestKey (provider : String) (z x y : Int) : String :=
  canonicalTileKey provider z (positiveModulo x (tileCount z)) y

/-- The warm memory cache of both methods. -/
def warmTile (provider : String) (z x y : Int) (s : State) : Option Blob :=
  if s.permanentDataDirectory = ""
      ∨ requestKey provider z x y ∈ s.permanentCachedKeys then
    cached s (requestKey provider z x y)
  else none

/-- The memory entry of a tile known to be permanent. -/
def knownPermanent (provider : String) (z x y : Int) (s : State) :
    Option Blob :=
  if s.permanentDataDirectory ≠ ""
      ∧ requestKey provider z x y ∈ s.permanentCachedKeys then
    s.tileMemoryCache.lookup (requestKey provider z x y)
  else none

/-- The tile `getTile` finds without asking upstream. -/
def usableTile (cfg : Config) (provider : String) (z x y : Int)
    (s : State) : Option Blob :=
  (((knownPermanent provider z x y s).or
    (permanentBytes provider z (positiveModulo x (tileCount z)) y s)).or
    (cached s (requestKey provider z x y))).or
    (ordinaryBytes cfg provider z (positiveModulo x (tileCount z)) y s)

/-- The download `getTile` would schedule. -/
def requestDownload (choice : Choice) (source : MapProvider) (dir : TileDir)
    (provider : String) (z x y : Int) (key : String) : QueuedDownload where
  url := providerUrl source choice.subdomain z
    (positiveModulo x (tileCount z)) y
  tilePath := ⟨dir, z, positiveModulo x (tileCount z), y⟩
  canonicalKey := requestKey provider z x y
  responseKey := key

/-- Asking upstream: refused, too much, or with the scheduler. -/
def upstreamOutcome (cfg : Config) (d : QueuedDownload)
    (source : MapProvider) (s : State) : Outcome :=
  if mayFetch source d.tilePath s then
    match Downloads.scheduleMapTileDownload cfg d s.downloads with
    | (.scheduled, downloads) => .download downloads
    | (.queueFull, _) => .serverBusy
  else .invalidRequest

theorem outcomeOf_fetchTile (source : MapProvider) (dir : TileDir) :
    outcomeOf (fetchTile cfg choice source
        ⟨dir, z, positiveModulo x (tileCount z), y⟩
        (requestKey provider z x y) key s)
      = upstreamOutcome cfg
        (requestDownload choice source dir provider z x y key) source s := by
  unfold fetchTile upstreamOutcome
  by_cases hmay : mayFetch source
      ⟨dir, z, positiveModulo x (tileCount z), y⟩ s = true
  · simp only [requestDownload, hmay, if_true]
    rcases Downloads.scheduleMapTileDownload cfg _ s.downloads with
      ⟨status, downloads⟩
    cases status with
    | scheduled => rfl
    | queueFull => rfl
  · simp only [requestDownload, hmay, if_false, Bool.false_eq_true]
    rfl

/-- A configured provider has a directory. -/
theorem selectedDir_some {source : MapProvider}
    (h : s.configuredProviders.lookup provider = some source) :
    ∃ dir, selectedDir cfg provider s = some dir := by
  unfold selectedDir providerCachePath
  rw [h]
  cases s.providerCachePaths.lookup provider with
  | some dir => exact ⟨dir, rfl⟩
  | none =>
      simp only
      split
      · exact ⟨_, rfl⟩
      · exact ⟨_, rfl⟩

theorem cached_some {k : String} {data : Blob} (h : cached s k = some data) :
    s.tileMemoryCache.lookup k = some data ∧ data.isEmpty = false := by
  obtain ⟨hlookup, hempty⟩ := Option.filter_eq_some_iff.1 h
  exact ⟨hlookup, by simpa using hempty⟩

/-- The part of `getTile` behind the warm memory cache takes the first
usable tile, or asks upstream. -/
theorem outcomeOf_getColdTile {source : MapProvider} {dir : TileDir}
    {w : Int} :
    outcomeOf (getColdTile cfg choice provider source z w y
        (canonicalTileKey provider z w y) key dir s)
      = match (((if s.permanentDataDirectory ≠ "" ∧ canonicalTileKey provider
              z w y ∈ s.permanentCachedKeys then
              s.tileMemoryCache.lookup (canonicalTileKey provider z w y)
            else none).or (permanentBytes provider z w y s)).or
            (cached s (canonicalTileKey provider z w y))).or
            ((readFile s ⟨dir, z, w, y⟩).filter fun data => !data.isEmpty)
        with
        | some data => .bytes data
        | none => outcomeOf (fetchTile cfg choice source ⟨dir, z, w, y⟩
            (canonicalTileKey provider z w y) key s) := by
  unfold getColdTile
  simp only
  split
  · rename_i data hknown
    rw [hknown]
    rfl
  · rename_i hknown
    rw [hknown, Option.none_or]
    split
    · rename_i data hperm
      have hperm : permanentBytes provider z w y s = some data := hperm
      rw [hperm]
      rfl
    · rename_i hperm
      have hperm : permanentBytes provider z w y s = none := hperm
      rw [hperm, Option.none_or]
      split
      · rename_i data hcached
        rw [hcached]
        rfl
      · rename_i hcached
        rw [hcached, Option.none_or]
        cases (readFile s ⟨dir, z, w, y⟩).filter fun data => !data.isEmpty with
        | some data => rfl
        | none => rfl

/-- A warm entry is the first of the lookup order. -/
theorem usableTile_warm {data : Blob}
    (h : warmTile provider z x y s = some data) :
    usableTile cfg provider z x y s = some data := by
  unfold warmTile at h
  split at h
  · rename_i hallowed
    obtain ⟨hentry, -⟩ := cached_some h
    unfold usableTile
    by_cases hset : s.permanentDataDirectory = ""
    · simp [knownPermanent, permanentBytes, hset, h]
    · have hmarked := hallowed.resolve_left hset
      simp [knownPermanent, hset, hmarked, hentry]
  · cases h

/-- The outcome of `getTile`: the usable tile, or what upstream comes to.
-/
theorem plainOutcome_eq {source : MapProvider} {dir : TileDir}
    (h : Asks provider z y source s)
    (hdir : selectedDir cfg provider s = some dir) :
    plainOutcome cfg choice provider z x y key s
      = match usableTile cfg provider z x y s with
        | some data => .bytes data
        | none => upstreamOutcome cfg
            (requestDownload choice source dir provider z x y key) source s
    := by
  obtain ⟨hselected, ⟨paths, markers, hframe⟩, -⟩ :=
    providerCachePath_selects cfg choice provider s
  rw [hdir] at hselected
  unfold plainOutcome getTile
  simp only [h.source, if_neg h.zoom, if_neg h.row]
  rw [hselected, hframe]
  split
  · rename_i data hwarm
    rw [usableTile_warm hwarm]
    rfl
  · simp only
    rw [outcomeOf_getColdTile]
    have hordinary : ordinaryBytes cfg provider z
        (positiveModulo x (tileCount z)) y s = (readFile s
          ⟨dir, z, positiveModulo x (tileCount z), y⟩).filter
            fun data => !data.isEmpty := by
      rw [ordinaryBytes, hdir]
      rfl
    unfold usableTile
    rw [hordinary]
    have hupstream := @outcomeOf_fetchTile cfg choice provider z x y key
      { s with providerCachePaths := paths, markers := markers } source dir
    unfold requestKey at hupstream
    rw [hupstream]
    rfl

/-- States whose caches are the same for a provider's requests. -/
structure SameCaches (cfg : Config) (provider : String) (s u : State) :
    Prop where
  providers : u.configuredProviders = s.configuredProviders
  dir : selectedDir cfg provider u = selectedDir cfg provider s
  directory : u.permanentDataDirectory = s.permanentDataDirectory
  marks : u.permanentCachedKeys = s.permanentCachedKeys
  entries : u.tileMemoryCache = s.tileMemoryCache
  files : u.files = s.files
  remote : u.remoteFetchEnabled = s.remoteFetchEnabled
  coverage : u.downloadCoverage = s.downloadCoverage
  policy : u.defaultCoverage = s.defaultCoverage
  downloads : u.downloads = s.downloads

theorem SameCaches.trans {t : State} (h₁ : SameCaches cfg provider s t)
    (h₂ : SameCaches cfg provider t u) : SameCaches cfg provider s u :=
  ⟨h₂.providers.trans h₁.providers, h₂.dir.trans h₁.dir,
    h₂.directory.trans h₁.directory, h₂.marks.trans h₁.marks,
    h₂.entries.trans h₁.entries, h₂.files.trans h₁.files,
    h₂.remote.trans h₁.remote, h₂.coverage.trans h₁.coverage,
    h₂.policy.trans h₁.policy, h₂.downloads.trans h₁.downloads⟩

/-- The outcome of `getTile` is a matter of the caches. -/
theorem plainOutcome_congr {source : MapProvider}
    (h : Asks provider z y source s) (hsame : SameCaches cfg provider s u) :
    plainOutcome cfg choice provider z x y key u
      = plainOutcome cfg choice provider z x y key s := by
  obtain ⟨dir, hdir⟩ := @selectedDir_some cfg provider s source h.source
  have hasks : Asks provider z y source u :=
    ⟨by rw [hsame.providers]; exact h.source, h.zoom, h.row⟩
  have husable : usableTile cfg provider z x y u
      = usableTile cfg provider z x y s := by
    unfold usableTile knownPermanent permanentBytes ordinaryBytes cached
      readFile permanentPath
    rw [hsame.dir, hsame.directory, hsame.marks, hsame.entries, hsame.files]
  have hupstream : ∀ d, upstreamOutcome cfg d source u
      = upstreamOutcome cfg d source s := by
    intro d
    unfold upstreamOutcome mayFetch
    rw [hsame.remote, hsame.coverage, hsame.policy, hsame.downloads]
  rw [plainOutcome_eq hasks (hsame.dir.trans hdir), plainOutcome_eq h hdir,
    husable, hupstream]

/-- Wrapping a column twice is wrapping it once. -/
theorem getTile_wrapped : getTile cfg choice provider z
      (positiveModulo x (tileCount z)) y key s
    = getTile cfg choice provider z x y key s := by
  have hpos := tileCount_pos z
  have htwice : positiveModulo (positiveModulo x (tileCount z)) (tileCount z)
      = positiveModulo x (tileCount z) := by
    rw [positiveModulo_eq _ hpos, positiveModulo_eq _ hpos, Int.emod_emod]
  unfold getTile
  rw [htwice]

-- ======================================================= reading a file

/-- The file `getTileForHttp` reads when the memory cache is not warm: the
permanent file if it exists, else the ordinary one. -/
def httpFile (cfg : Config) (provider : String) (z x y : Int) (s : State) :
    Option TilePath :=
  let w := positiveModulo x (tileCount z)
  if s.permanentDataDirectory ≠ "" ∧ permanentPath s provider z w y ∈ s.files
  then some (permanentPath s provider z w y)
  else if (cached s (requestKey provider z x y)).isSome then none
  else (selectedDir cfg provider s).filter
      (fun dir => decide ((⟨dir, z, w, y⟩ : TilePath) ∈ s.files))
    |>.map fun dir => ⟨dir, z, w, y⟩

/-- The outcome of a fallback whose refusals are signalled. -/
def fallbackOutcome : Outcome → Outcome
  | .invalidRequest | .serverBusy => .failed .upstreamError
  | outcome => outcome

/-- What a read's worker takes from its file. -/
def takenBytes (r : CacheRead) (s : State) : Blob :=
  ((readFile s r.readPath).filter fun data => data.size == r.fileSize).getD
    { bytes := [] }

/-- `getTile` emits nothing. -/
theorem getTile_outbox (cfg : Config) (choice : Choice) (provider : String)
    (z x y : Int) (key : String) (s : State) :
    (getTile cfg choice provider z x y key s).2.outbox = s.outbox := by
  have heffect := getTile_effect cfg choice provider z x y key s
  revert heffect
  generalize (getTile cfg choice provider z x y key s).2 = u
  intro heffect
  cases heffect with
  | kept => rfl
  | permanent => rfl
  | ordinary => rfl

/-- The fallback of one requester, seen from outside. -/
theorem retryRead_outcome (r : CacheRead) (hquiet : s.outbox = []) :
    (match (retryRead cfg r s (key, choice)).outbox.find?
        fun signal => signal.key == key with
      | some (.tileReady _ data) => Outcome.bytes data
      | some (.tileFailed _ reason) => .failed reason
      | none => .download (retryRead cfg r s (key, choice)).downloads)
      = fallbackOutcome (plainOutcome cfg choice r.provider r.zoom
        r.wrappedX r.y key s) := by
  have hout := getTile_outbox cfg choice r.provider r.zoom r.wrappedX r.y key s
  rw [hquiet] at hout
  unfold retryRead plainOutcome outcomeOf
  simp only
  cases hstatus : (getTile cfg choice r.provider r.zoom r.wrappedX r.y key
      s).1.status with
  | ready => simp [emit, hout, Signal.key, fallbackOutcome]
  | pending => simp [hout, fallbackOutcome]
  | invalidRequest => simp [emit, hout, Signal.key, fallbackOutcome]
  | serverBusy => simp [emit, hout, Signal.key, fallbackOutcome]

/-- A read of the current generation, nothing coming between: the bytes
its worker took, or the fallback. -/
theorem readOutcome_eq {read : ReadId} {r : CacheRead}
    (hr : s.reads.lookup read = some r) (hresult : r.result = none)
    (hgen : r.generation = s.cacheGeneration)
    (hkeys : s.cacheReadsPending.lookup r.readKey = some [key]) :
    ∃ u, SameCaches cfg r.provider s u ∧
      readOutcome cfg choice key read s
        = if (takenBytes r s).isEmpty then
            fallbackOutcome (plainOutcome cfg choice r.provider r.zoom
              r.wrappedX r.y key u)
          else .bytes (takenBytes r s) := by
  let ran : State :=
    { s with
      outbox := []
      reads := s.reads.insert read
        { r with result := some (takenBytes r s) } }
  have hran : readRuns read { s with outbox := [] } = some ran := by
    unfold readRuns
    simp only [hr, hresult, ne_eq, not_true_eq_false, if_false]
    rfl
  have hlookup : ran.reads.lookup read
      = some { r with result := some (takenBytes r s) } :=
    AList.lookup_insert s.reads
  refine ⟨forgetRead read r ran, ⟨rfl, selectedDir_congr rfl rfl rfl, rfl, rfl,
    rfl, rfl, rfl, rfl, rfl, rfl⟩, ?_⟩
  unfold readOutcome
  rw [hran, Option.bind_some]
  unfold readFinished
  simp only [hlookup]
  have hrequesters : (ran.cacheReadsPending.lookup r.readKey).getD [] = [key] :=
    by
    show (s.cacheReadsPending.lookup r.readKey).getD [] = [key]
    rw [hkeys]
    rfl
  have hgeneration : r.generation = ran.cacheGeneration := hgen
  rw [hrequesters]
  by_cases hempty : (takenBytes r s).isEmpty = true
  · rw [if_pos hempty, if_neg (by simp [hempty]),
      if_neg (not_not.2 hgeneration)]
    exact retryRead_outcome r rfl
  · rw [if_neg hempty, if_pos ⟨hgeneration, Bool.eq_false_iff.2 hempty⟩]
    simp [emitReady, emit, cacheInsert, Signal.key, ran]

-- ========================================================= getTileForHttp

section Request

variable {source : MapProvider}

theorem getTileForHttp_eq (h : Asks provider z y source s) :
    getTileForHttp cfg choice provider z x y key s
      = match warmTile provider z x y s with
        | some data => ({ status := .ready, data := data }, s)
        | none => getColdTileForHttp cfg choice provider z x y
            (positiveModulo x (tileCount z)) (requestKey provider z x y) key s
    := by
  have hmem : provider ∈ s.configuredProviders :=
    AList.lookup_isSome.1 (by rw [h.source]; rfl)
  unfold getTileForHttp
  rw [if_neg (by simpa [hmem] using h.zoom), if_neg h.row]
  rfl

/-- Selecting the directory leaves the caches. -/
theorem sameCaches_selected (cfg : Config) (choice : Choice)
    (provider : String) (s : State) :
    SameCaches cfg provider s (providerCachePath cfg choice provider s).2 := by
  obtain ⟨-, ⟨paths, markers, hframe⟩, hsame⟩ :=
    providerCachePath_selects cfg choice provider s
  refine ⟨?_, hsame, ?_, ?_, ?_, ?_, ?_, ?_, ?_, ?_⟩
  all_goals rw [hframe]

/-- Without a pending read in the answer, the outcome is the answer's. -/
theorem httpOutcome_direct
    (h : (getTileForHttp cfg choice provider z x y key s).2.reads.lookup
      s.nextRead = none) :
    httpOutcome cfg choice provider z x y key s
      = outcomeOf (getTileForHttp cfg choice provider z x y key s) := by
  unfold httpOutcome
  simp only [h]
  split
  · rename_i hread
    cases hread
  · rfl

theorem getTile_reads (cfg : Config) (choice : Choice) (provider : String)
    (z x y : Int) (key : String) (s : State) :
    (getTile cfg choice provider z x y key s).2.reads = s.reads :=
  (getTile_effect cfg choice provider z x y key s).frame.2.2.2

/-- Without a permanent file there are no permanent bytes. -/
theorem permanentBytes_missing {w : Int}
    (h : ¬ (s.permanentDataDirectory ≠ ""
      ∧ permanentPath s provider z w y ∈ s.files)) :
    permanentBytes provider z w y s = none := by
  unfold permanentBytes
  split
  · rfl
  · rename_i hset
    rw [not_and] at h
    rw [readFile_missing (h hset)]
    rfl

/-- An entry with bytes that is not warm is not known to be permanent. -/
theorem knownPermanent_cold {data : Blob}
    (hwarm : warmTile provider z x y s = none)
    (hcached : cached s (requestKey provider z x y) = some data) :
    knownPermanent provider z x y s = none := by
  unfold warmTile at hwarm
  split at hwarm
  · rw [hcached] at hwarm
    cases hwarm
  · rename_i hnot
    rw [not_or] at hnot
    unfold knownPermanent
    rw [if_neg fun h => hnot.2 h.2]

/-- Where no file is read, the two methods agree. -/
theorem http_without_file (hquiet : NoPendingReads s)
    (h : Asks provider z y source s)
    (hfile : warmTile provider z x y s ≠ none ∨
      httpFile cfg provider z x y s = none) :
    httpOutcome cfg choice provider z x y key s
      = plainOutcome cfg choice provider z x y key s := by
  obtain ⟨dir, hdir⟩ := @selectedDir_some cfg provider s source h.source
  have hnone : s.reads.lookup s.nextRead = none := by
    rw [hquiet.reads]
    rfl
  cases hwarm : warmTile provider z x y s with
  | some data =>
      have heq : getTileForHttp cfg choice provider z x y key s
          = ({ status := .ready, data := data }, s) := by
        rw [getTileForHttp_eq h, hwarm]
      rw [httpOutcome_direct (by rw [heq]; exact hnone), heq,
        plainOutcome_eq h hdir, usableTile_warm hwarm]
      rfl
  | none =>
      have hfile := hfile.resolve_left (not_not.2 hwarm)
      have heq : getTileForHttp cfg choice provider z x y key s
          = getColdTileForHttp cfg choice provider z x y
            (positiveModulo x (tileCount z)) (requestKey provider z x y) key s
          := by
        rw [getTileForHttp_eq h, hwarm]
      obtain ⟨hselected, ⟨paths, markers, hframe⟩, -⟩ :=
        providerCachePath_selects cfg choice provider s
      have hsame := sameCaches_selected cfg choice provider s
      unfold httpFile at hfile
      simp only at hfile
      split at hfile
      · cases hfile
      · rename_i hpermanent
        split at hfile
        · rename_i hcached
          obtain ⟨data, hdata⟩ := Option.isSome_iff_exists.1 hcached
          have heq' : getTileForHttp cfg choice provider z x y key s
              = ({ status := .ready, data := data }, s) := by
            rw [heq]
            unfold getColdTileForHttp
            simp only
            rw [if_neg hpermanent, hdata]
          have husable : usableTile cfg provider z x y s = some data := by
            unfold usableTile
            rw [knownPermanent_cold hwarm hdata,
              permanentBytes_missing hpermanent, hdata]
            rfl
          rw [httpOutcome_direct (by rw [heq']; exact hnone), heq',
            plainOutcome_eq h hdir, husable]
          rfl
        · rename_i hcached
          have hcached : cached s (requestKey provider z x y) = none := by
            simpa using hcached
          have heq' : getTileForHttp cfg choice provider z x y key s
              = getTile cfg choice provider z x y key
                (providerCachePath cfg choice provider s).2 := by
            rw [heq]
            unfold getColdTileForHttp
            simp only
            rw [if_neg hpermanent, hcached]
            simp only
            rw [hselected, hdir]
            simp only
            rw [if_neg]
            rw [hdir] at hfile
            rw [hframe]
            simpa using hfile
          have hreads : (getTileForHttp cfg choice provider z x y key
              s).2.reads.lookup s.nextRead = none := by
            rw [heq', getTile_reads, hframe]
            exact hnone
          rw [httpOutcome_direct hreads, heq']
          exact plainOutcome_congr h hsame

/-- Where a file is read, the request schedules its read on the same
caches. -/
theorem http_schedules {path : TilePath} (hquiet : NoPendingReads s)
    (h : Asks provider z y source s)
    (hwarm : warmTile provider z x y s = none)
    (hfile : httpFile cfg provider z x y s = some path) :
    ∃ t permanent, SameCaches cfg provider s t ∧ NoPendingReads t ∧
      t.nextRead = s.nextRead ∧
      getTileForHttp cfg choice provider z x y key s
        = scheduleRead (coldRead provider z (positiveModulo x (tileCount z)) y
          (requestKey provider z x y) permanent path t) key t := by
  have heq : getTileForHttp cfg choice provider z x y key s
      = getColdTileForHttp cfg choice provider z x y
        (positiveModulo x (tileCount z)) (requestKey provider z x y) key s
      := by
    rw [getTileForHttp_eq h, hwarm]
  rw [heq]
  unfold httpFile at hfile
  simp only at hfile
  unfold getColdTileForHttp
  simp only
  split at hfile
  · rename_i hpermanent
    cases hfile
    rw [if_pos hpermanent]
    exact ⟨s, true, ⟨rfl, rfl, rfl, rfl, rfl, rfl, rfl, rfl, rfl, rfl⟩, hquiet,
      rfl, rfl⟩
  · rename_i hpermanent
    rw [if_neg hpermanent]
    split at hfile
    · cases hfile
    · rename_i hcached
      have hcached : cached s (requestKey provider z x y) = none := by
        simpa using hcached
      obtain ⟨hselected, ⟨paths, markers, hframe⟩, -⟩ :=
        providerCachePath_selects cfg choice provider s
      have hsame := sameCaches_selected cfg choice provider s
      rw [hcached]
      obtain ⟨dir, hdir, hpath⟩ := Option.map_eq_some_iff.1 hfile
      obtain ⟨hdir, hmem⟩ := Option.filter_eq_some_iff.1 hdir
      subst hpath
      rw [hselected, hdir]
      simp only
      rw [if_pos (by rw [hframe]; exact of_decide_eq_true hmem)]
      refine ⟨_, false, hsame, ?_, ?_, rfl⟩
      · rw [hframe]
        exact ⟨hquiet.reads, hquiet.keys, hquiet.bytes⟩
      · rw [hframe]

/-- The store with a read scheduled on it, for a first requester. -/
def withRead (read : CacheRead) (key : String) (t : State) : State :=
  { t with
    pendingCacheReadBytes := t.pendingCacheReadBytes + read.fileSize
    cacheReadsPending := t.cacheReadsPending.insert read.readKey [key]
    reads := t.reads.insert t.nextRead read
    nextRead := t.nextRead + 1 }

theorem sameCaches_withRead (cfg : Config) (provider : String)
    (read : CacheRead) (key : String) (t : State) :
    SameCaches cfg provider t (withRead read key t) :=
  ⟨rfl, selectedDir_congr rfl rfl rfl, rfl, rfl, rfl, rfl, rfl, rfl, rfl, rfl⟩

/-- On a store without pending reads a read is refused for its size only. -/
theorem scheduleRead_eq {read : CacheRead} {t : State}
    (hquiet : NoPendingReads t) :
    scheduleRead read key t
      = if read.fileSize = 0 ∨ read.fileSize > maximumPendingCacheReadBytes
        then ({ status := .serverBusy }, t)
        else ({ status := .pending }, withRead read key t) := by
  have hpending : t.cacheReadsPending.lookup read.readKey = none := by
    rw [hquiet.keys]
    rfl
  have hroom : ¬ t.cacheReadsPending.keys.length ≥ maximumPendingCacheReads :=
    by
    rw [hquiet.keys]
    simp [maximumPendingCacheReads]
  unfold scheduleRead
  rw [hpending]
  simp only
  rw [if_neg hroom]
  by_cases hsize : read.fileSize = 0
      ∨ read.fileSize > maximumPendingCacheReadBytes
  · rw [if_pos hsize, if_pos (hsize.imp_right Or.inl)]
  · rw [if_neg hsize, if_neg]
    · rfl
    · rw [hquiet.bytes]
      omega

/-- A worker that finds the file as it was takes its bytes, if it can be
read. -/
theorem takenBytes_of_file {r : CacheRead} {t : State} {file : TileFile}
    (hlookup : t.files.lookup r.readPath = some file)
    (hsize : r.fileSize = file.blob.size) :
    takenBytes r t = if file.readable then file.blob else { bytes := [] } := by
  have hfile : readFile t r.readPath
      = if file.readable then some file.blob else none := by
    unfold readFile
    rw [hlookup]
  unfold takenBytes
  rw [hfile]
  by_cases hreadable : file.readable = true
  · rw [if_pos hreadable, if_pos hreadable, hsize, Option.filter_some,
      if_pos (beq_self_eq_true _)]
    rfl
  · rw [if_neg hreadable, if_neg hreadable]
    rfl

/-- A request that schedules a read ends in what its worker takes, or in
the fallback. -/
theorem httpOutcome_scheduled {read : CacheRead} {t : State}
    (hscheduled : getTileForHttp cfg choice provider z x y key s
      = ({ status := .pending }, withRead read key t))
    (hnext : t.nextRead = s.nextRead) (hresult : read.result = none)
    (hgen : read.generation = t.cacheGeneration) :
    ∃ u, SameCaches cfg read.provider t u ∧
      httpOutcome cfg choice provider z x y key s
        = if (takenBytes read t).isEmpty then
            fallbackOutcome (plainOutcome cfg choice read.provider read.zoom
              read.wrappedX read.y key u)
          else .bytes (takenBytes read t) := by
  have hr : (withRead read key t).reads.lookup t.nextRead = some read :=
    AList.lookup_insert t.reads
  obtain ⟨u, hu, hout⟩ := @readOutcome_eq cfg choice key (withRead read key t)
    _ _ hr hresult hgen (AList.lookup_insert t.cacheReadsPending)
  refine ⟨u, (sameCaches_withRead cfg _ read key t).trans hu, ?_⟩
  unfold httpOutcome
  rw [hscheduled, ← hnext]
  simp only [hr]
  exact hout

/-- A read of a file that exists, from its size on: nothing, its bytes, or
the fallback. -/
theorem http_with_file {path : TilePath} {file : TileFile}
    (hquiet : NoPendingReads s) (h : Asks provider z y source s)
    (hwarm : warmTile provider z x y s = none)
    (hfile : httpFile cfg provider z x y s = some path)
    (hlookup : s.files.lookup path = some file)
    (hsize : file.blob.size ≤ maximumPendingCacheReadBytes) :
    httpOutcome cfg choice provider z x y key s
      = if file.blob.isEmpty then .serverBusy
        else if file.readable then .bytes file.blob
        else fallbackOutcome (plainOutcome cfg choice provider z x y key s)
    := by
  obtain ⟨t, permanent, hsame, hquiet', hnext, heq⟩ :=
    @http_schedules cfg choice provider z x y key s source path hquiet h
      hwarm hfile
  have hfiles : t.files.lookup path = some file := by
    rw [hsame.files]
    exact hlookup
  generalize hread : coldRead provider z (positiveModulo x (tileCount z)) y
    (requestKey provider z x y) permanent path t = read at heq
  have hfileSize : read.fileSize = file.blob.size := by
    rw [← hread]
    simp only [coldRead, hfiles]
  rw [scheduleRead_eq hquiet', hfileSize] at heq
  by_cases hempty : file.blob.isEmpty = true
  · -- an empty file is never read
    have hzero : file.blob.size = 0 :=
      List.length_eq_zero_iff.2 (List.isEmpty_iff.1 hempty)
    rw [if_pos (Or.inl hzero)] at heq
    rw [if_pos hempty, httpOutcome_direct, heq]
    · rfl
    · rw [heq, hquiet'.reads]
      rfl
  · have hsized : ¬ (file.blob.size = 0
        ∨ file.blob.size > maximumPendingCacheReadBytes) := by
      rw [not_or]
      exact ⟨fun hzero => hempty (List.isEmpty_iff.2
        (List.length_eq_zero_iff.1 hzero)), not_lt.2 hsize⟩
    rw [if_neg hsized] at heq
    obtain ⟨u, hu, hout⟩ := httpOutcome_scheduled heq hnext
      (by rw [← hread]; rfl) (by rw [← hread]; rfl)
    have htaken : takenBytes read t
        = if file.readable then file.blob else { bytes := [] } :=
      takenBytes_of_file (by rw [← hread]; exact hfiles) hfileSize
    rw [if_neg hempty, hout, htaken]
    by_cases hreadable : file.readable = true
    · rw [if_pos hreadable, if_neg hempty, if_pos hreadable]
    · have hnothing : ({ bytes := [] } : Blob).isEmpty = true := rfl
      rw [if_neg hreadable, if_pos hnothing, if_neg hreadable]
      subst hread
      -- the fallback asks for the wrapped column, on the same caches
      have hplain : plainOutcome cfg choice provider z
          (positiveModulo x (tileCount z)) y key u
          = plainOutcome cfg choice provider z x y key s := by
        rw [plainOutcome_congr h (hsame.trans hu)]
        unfold plainOutcome
        rw [getTile_wrapped]
      exact congrArg fallbackOutcome hplain

end Request

-- ============================================================ agreement

/-- The queue takes no more downloads, and this one neither joins nor
starts. -/
def QueueFull (cfg : Config) (d : QueuedDownload) (s : Downloads) : Prop :=
  d.canonicalKey ∉ s.active ∧ d.canonicalKey ∉ s.queuedKeys ∧
    s.canStartDownloadLocked cfg d = false ∧
    cfg.queueLimit ≤ s.queued.length

/-- The condition under which the two methods agree, on the file
`getTileForHttp` reads when memory is not warm: if it is empty, `getTile`
finds no tile either and the download queue is full; if it can be read, no
entry without bytes is marked permanent; if it cannot, there is a usable
tile or a place for the download. -/
def FilesHoldTiles (cfg : Config) (choice : Choice) (provider : String)
    (z x y : Int) (key : String) (s : State) : Prop :=
  ∀ source dir path file, Asks provider z y source s →
    selectedDir cfg provider s = some dir →
    warmTile provider z x y s = none →
    httpFile cfg provider z x y s = some path →
    s.files.lookup path = some file →
    let d := requestDownload choice source dir provider z x y key
    (file.blob.isEmpty = true → usableTile cfg provider z x y s = none ∧
      mayFetch source d.tilePath s = true ∧ QueueFull cfg d s.downloads) ∧
    (file.blob.isEmpty = false → file.readable = true →
      knownPermanent provider z x y s = none) ∧
    (file.blob.isEmpty = false → file.readable = false →
      usableTile cfg provider z x y s ≠ none ∨
        mayFetch source d.tilePath s = true ∧ ¬ QueueFull cfg d s.downloads)

/-- What upstream comes to: refused, too much, or with the scheduler. -/
theorem upstreamOutcome_cases (cfg : Config) (d : QueuedDownload)
    (source : MapProvider) (s : State) :
    mayFetch source d.tilePath s = false ∧
        upstreamOutcome cfg d source s = .invalidRequest ∨
      mayFetch source d.tilePath s = true ∧
        (QueueFull cfg d s.downloads ∧
            upstreamOutcome cfg d source s = .serverBusy ∨
          ¬ QueueFull cfg d s.downloads ∧
            ∃ downloads, upstreamOutcome cfg d source s
              = .download downloads) := by
  unfold upstreamOutcome
  by_cases hmay : mayFetch source d.tilePath s = true
  · refine Or.inr ⟨hmay, ?_⟩
    rw [if_pos hmay]
    rcases Downloads.schedule_cases cfg d s.downloads with
      ⟨hjoin, heq⟩ | ⟨hactive, hqueued, ⟨hcan, heq⟩ | ⟨hcan, hrest⟩⟩
    · refine Or.inr ⟨?_, by rw [heq]; exact ⟨_, rfl⟩⟩
      intro hfull
      rcases hjoin with hjoin | hjoin
      · exact hfull.1 hjoin
      · exact hfull.2.1 hjoin
    · refine Or.inr ⟨?_, by rw [heq]; exact ⟨_, rfl⟩⟩
      intro hfull
      rw [hfull.2.2.1] at hcan
      cases hcan
    · rcases hrest with ⟨hlong, heq⟩ | ⟨hshort, heq⟩
      · exact Or.inl ⟨⟨hactive, hqueued, hcan, hlong⟩, by rw [heq]⟩
      · refine Or.inr ⟨?_, by rw [heq]; exact ⟨_, rfl⟩⟩
        intro hfull
        have hlong := hfull.2.2.2
        omega
  · refine Or.inl ⟨Bool.eq_false_iff.2 hmay, ?_⟩
    rw [if_neg hmay]

/-- The bytes of the file that is read are those of the usable tile,
unless a known permanent entry comes first. -/
theorem usableTile_file {path : TilePath} {file : TileFile}
    (hfile : httpFile cfg provider z x y s = some path)
    (hlookup : s.files.lookup path = some file)
    (hempty : file.blob.isEmpty = false) (hreadable : file.readable = true)
    (hknown : knownPermanent provider z x y s = none) :
    usableTile cfg provider z x y s = some file.blob := by
  have hread : (readFile s path).filter (fun data => !data.isEmpty)
      = some file.blob := by
    unfold readFile
    rw [hlookup]
    simp [hreadable, Option.filter_some, hempty]
  unfold httpFile at hfile
  simp only at hfile
  unfold usableTile
  rw [hknown, Option.none_or]
  split at hfile
  · rename_i hpermanent
    cases hfile
    have hperm : permanentBytes provider z (positiveModulo x (tileCount z)) y s
        = some file.blob := by
      rw [permanentBytes, if_neg hpermanent.1]
      exact hread
    rw [hperm]
    rfl
  · rename_i hpermanent
    rw [permanentBytes_missing hpermanent, Option.none_or]
    split at hfile
    · cases hfile
    · rename_i hcached
      have hcached : cached s (requestKey provider z x y) = none := by
        simpa using hcached
      obtain ⟨dir, hdir, hpath⟩ := Option.map_eq_some_iff.1 hfile
      obtain ⟨hdir, -⟩ := Option.filter_eq_some_iff.1 hdir
      subst hpath
      rw [hcached, Option.none_or, ordinaryBytes, hdir]
      exact hread

/-- The file that is read exists. -/
theorem httpFile_exists {path : TilePath}
    (hfile : httpFile cfg provider z x y s = some path) :
    ∃ file, s.files.lookup path = some file := by
  have hmem : path ∈ s.files := by
    unfold httpFile at hfile
    simp only at hfile
    split at hfile
    · rename_i hpermanent
      cases hfile
      exact hpermanent.2
    · split at hfile
      · cases hfile
      · obtain ⟨dir, hdir, rfl⟩ := Option.map_eq_some_iff.1 hfile
        exact of_decide_eq_true (Option.filter_eq_some_iff.1 hdir).2
  exact Option.isSome_iff_exists.1 (AList.lookup_isSome.2 hmem)

/-- A known permanent entry that is not warm has no bytes. -/
theorem knownPermanent_empty {data : Blob}
    (hwarm : warmTile provider z x y s = none)
    (hknown : knownPermanent provider z x y s = some data) :
    data.isEmpty = true := by
  unfold knownPermanent at hknown
  split at hknown
  · rename_i hmarked
    unfold warmTile at hwarm
    rw [if_pos (Or.inr hmarked.2), cached, hknown] at hwarm
    simpa [Option.filter_some] using hwarm
  · cases hknown

/-- A request that names no tile is refused by both. -/
theorem http_refuses (hquiet : NoPendingReads s)
    (h : ∀ source, ¬ Asks provider z y source s) :
    httpOutcome cfg choice provider z x y key s
      = plainOutcome cfg choice provider z x y key s := by
  have hnone : s.reads.lookup s.nextRead = none := by
    rw [hquiet.reads]
    rfl
  have hhttp : getTileForHttp cfg choice provider z x y key s
      = ({ status := .invalidRequest }, s) := by
    unfold getTileForHttp
    split
    · rfl
    · rename_i hknown
      rw [not_or] at hknown
      split
      · rfl
      · rename_i hrow
        obtain ⟨source, hsource⟩ := Option.isSome_iff_exists.1
          (AList.lookup_isSome.2 (not_not.1 hknown.1))
        exact absurd ⟨hsource, hknown.2, hrow⟩ (h source)
  have hplain : getTile cfg choice provider z x y key s
      = ({ status := .invalidRequest }, s) := by
    unfold getTile
    split
    · rfl
    · rename_i source hsource
      split
      · rfl
      · rename_i hzoom
        simp only
        split
        · rfl
        · rename_i hrow
          exact absurd ⟨hsource, hzoom, hrow⟩ (h source)
  rw [httpOutcome_direct (by rw [hhttp]; exact hnone), plainOutcome, hhttp,
    hplain]

section Agreement

variable {source : MapProvider} {dir : TileDir} {path : TilePath}
  {file : TileFile}
  (hasks : Asks provider z y source s)
  (hdir : selectedDir cfg provider s = some dir)
  (hwarm : warmTile provider z x y s = none)
  (hfile : httpFile cfg provider z x y s = some path)
  (hlookup : s.files.lookup path = some file)

include hasks hdir

/-- An empty file: the refusal must be the one of a full queue. -/
theorem agrees_empty_iff :
    Outcome.serverBusy = plainOutcome cfg choice provider z x y key s ↔
      usableTile cfg provider z x y s = none ∧
        mayFetch source (requestDownload choice source dir provider z x y
          key).tilePath s = true ∧
        QueueFull cfg (requestDownload choice source dir provider z x y key)
          s.downloads := by
  rw [plainOutcome_eq hasks hdir]
  cases usableTile cfg provider z x y s with
  | some data => simp
  | none =>
      rcases upstreamOutcome_cases cfg
          (requestDownload choice source dir provider z x y key) source s with
        ⟨hmay, heq⟩ | ⟨hmay, ⟨hfull, heq⟩ | ⟨hfull, downloads, heq⟩⟩
      · simp [heq, hmay]
      · simp [heq, hmay, hfull]
      · simp [heq, hfull]

/-- An unreadable file: the fallback must not be refused. -/
theorem agrees_unreadable_iff :
    fallbackOutcome (plainOutcome cfg choice provider z x y key s)
        = plainOutcome cfg choice provider z x y key s ↔
      usableTile cfg provider z x y s ≠ none ∨
        mayFetch source (requestDownload choice source dir provider z x y
          key).tilePath s = true ∧
        ¬ QueueFull cfg (requestDownload choice source dir provider z x y key)
          s.downloads := by
  rw [plainOutcome_eq hasks hdir]
  cases usableTile cfg provider z x y s with
  | some data => simp [fallbackOutcome]
  | none =>
      rcases upstreamOutcome_cases cfg
          (requestDownload choice source dir provider z x y key) source s with
        ⟨hmay, heq⟩ | ⟨hmay, ⟨hfull, heq⟩ | ⟨hfull, downloads, heq⟩⟩
      · simp [heq, hmay, fallbackOutcome]
      · simp [heq, hfull, fallbackOutcome]
      · simp [heq, hmay, hfull, fallbackOutcome]

include hwarm hfile hlookup

/-- A file that can be read: no entry without bytes may come first. -/
theorem agrees_readable_iff (hempty : file.blob.isEmpty = false)
    (hreadable : file.readable = true) :
    Outcome.bytes file.blob = plainOutcome cfg choice provider z x y key s ↔
      knownPermanent provider z x y s = none := by
  rw [plainOutcome_eq hasks hdir]
  cases hknown : knownPermanent provider z x y s with
  | none =>
      rw [usableTile_file hfile hlookup hempty hreadable hknown]
      simp
  | some data =>
      have husable : usableTile cfg provider z x y s = some data := by
        unfold usableTile
        rw [hknown]
        rfl
      have hdata := knownPermanent_empty hwarm hknown
      rw [husable]
      simp only [reduceCtorEq, iff_false]
      intro heq
      cases heq
      rw [hempty] at hdata
      cases hdata

end Agreement

/-- **The two request methods agree exactly** when the file that
`getTileForHttp` would read holds a tile it can read, up to refusals that
are the same on both paths. -/
theorem http_agrees_iff (hquiet : NoPendingReads s)
    (hsizes : ∀ path file, s.files.lookup path = some file →
      file.blob.size ≤ 64 * 1024 * 1024) :
    httpOutcome cfg choice provider z x y key s
        = plainOutcome cfg choice provider z x y key s ↔
      FilesHoldTiles cfg choice provider z x y key s := by
  have hcold : ∀ source dir path file, Asks provider z y source s →
      selectedDir cfg provider s = some dir →
      warmTile provider z x y s = none →
      httpFile cfg provider z x y s = some path →
      s.files.lookup path = some file →
      httpOutcome cfg choice provider z x y key s
        = if file.blob.isEmpty then .serverBusy
          else if file.readable then .bytes file.blob
          else fallbackOutcome
            (plainOutcome cfg choice provider z x y key s) :=
    fun source dir path file hasks _ hwarm hfile hlookup =>
      http_with_file hquiet hasks hwarm hfile hlookup
        (hsizes path file hlookup)
  constructor
  · intro hagree source dir path file hasks hdir hwarm hfile hlookup
    rw [hcold source dir path file hasks hdir hwarm hfile hlookup] at hagree
    refine ⟨?_, ?_, ?_⟩
    · intro hempty
      rw [if_pos hempty] at hagree
      exact (agrees_empty_iff hasks hdir).1 hagree
    · intro hempty hreadable
      rw [if_neg (by simp [hempty]), if_pos hreadable] at hagree
      exact (agrees_readable_iff hasks hdir hwarm hfile hlookup hempty
        hreadable).1 hagree
    · intro hempty hreadable
      rw [if_neg (by simp [hempty]), if_neg (by simp [hreadable])] at hagree
      exact (agrees_unreadable_iff hasks hdir).1 hagree
  · intro hholds
    by_cases hasks : ∃ source, Asks provider z y source s
    · obtain ⟨source, hasks⟩ := hasks
      obtain ⟨dir, hdir⟩ := @selectedDir_some cfg provider s source
        hasks.source
      cases hwarm : warmTile provider z x y s with
      | some data =>
          exact http_without_file hquiet hasks (Or.inl (by simp [hwarm]))
      | none =>
          cases hfile : httpFile cfg provider z x y s with
          | none => exact http_without_file hquiet hasks (Or.inr hfile)
          | some path =>
              obtain ⟨file, hlookup⟩ := httpFile_exists hfile
              obtain ⟨hcase₁, hcase₂, hcase₃⟩ :=
                hholds source dir path file hasks hdir hwarm hfile hlookup
              rw [hcold source dir path file hasks hdir hwarm hfile hlookup]
              cases hempty : file.blob.isEmpty with
              | true =>
                  rw [if_pos rfl]
                  exact (agrees_empty_iff hasks hdir).2 (hcase₁ hempty)
              | false =>
                  rw [if_neg (by simp)]
                  cases hreadable : file.readable with
                  | true =>
                      rw [if_pos rfl]
                      exact (agrees_readable_iff hasks hdir hwarm hfile
                        hlookup hempty hreadable).2 (hcase₂ hempty hreadable)
                  | false =>
                      rw [if_neg (by simp)]
                      exact (agrees_unreadable_iff hasks hdir).2
                        (hcase₃ hempty hreadable)
    · exact http_refuses hquiet fun source h => hasks ⟨source, h⟩

-- ================================================================== runs

/-- A store that finds one tile file on disk. -/
def oneFileStore (bytes : Bytes) : State :=
  State.init (AList.insert ⟨⟨"/var/cache/aowis", openStreetMap, none⟩, 3, 0, 0⟩
    { bytes := bytes } ∅) ∅

theorem oneFileStore_files {bytes : Bytes} {path : TilePath}
    {file : TileFile} (h : (oneFileStore bytes).files.lookup path = some file) :
    file.blob = ⟨bytes, none⟩ ∧ file.readable = true := by
  have h : (QHash.filterMapValues
      (fun _ (outside : OutsideFile) => some outside.file)
      (AList.insert ⟨⟨"/var/cache/aowis", openStreetMap, none⟩, 3, 0, 0⟩
        { bytes := bytes } ∅)).lookup path = some file := h
  rw [QHash.lookup_filterMapValues] at h
  obtain ⟨outside, houtside, hfile⟩ := Option.bind_eq_some_iff.1 h
  by_cases heq : path = ⟨⟨"/var/cache/aowis", openStreetMap, none⟩, 3, 0, 0⟩
  · rw [heq, AList.lookup_insert] at houtside
    cases houtside
    cases hfile
    exact ⟨rfl, rfl⟩
  · rw [AList.lookup_insert_ne heq] at houtside
    cases houtside

theorem oneFileStore_quiet (bytes : Bytes) :
    NoPendingReads (oneFileStore bytes) :=
  ⟨rfl, rfl, rfl⟩

/-- A file with one byte is answered by both methods. -/
theorem http_agrees_oneByte :
    httpOutcome smallConfig {} openStreetMap 3 0 0 "a" (oneFileStore [7])
      = plainOutcome smallConfig {} openStreetMap 3 0 0 "a"
        (oneFileStore [7]) := by
  refine (http_agrees_iff (oneFileStore_quiet [7]) ?_).2 ?_
  · intro path file hlookup
    rw [(oneFileStore_files hlookup).1]
    simp [Blob.size]
  · intro source dir path file _ _ _ _ hlookup
    obtain ⟨hblob, hreadable⟩ := oneFileStore_files hlookup
    rw [hblob, hreadable]
    refine ⟨?_, fun _ _ => rfl, ?_⟩
    · intro hempty
      cases hempty
    · intro _ hfalse
      cases hfalse

/-- Whether an outcome is the refusal of a busy server. -/
def Outcome.isBusy : Outcome → Bool
  | .serverBusy => true
  | _ => false

/-- A file of size zero: `getTile` downloads the tile, `getTileForHttp`
refuses it. -/
theorem emptyFile_refused :
    ¬ ∀ (cfg : Config) (choice : Choice) (provider : String) (z x y : Int)
      (key : String) (s : State), NoPendingReads s →
      (∀ path file, s.files.lookup path = some file →
        file.blob.size ≤ 64 * 1024 * 1024) →
      httpOutcome cfg choice provider z x y key s
        = plainOutcome cfg choice provider z x y key s := by
  intro hclaim
  have hagree := hclaim smallConfig {} openStreetMap 3 0 0 "a"
    (oneFileStore []) (oneFileStore_quiet []) (by
      intro path file hlookup
      rw [(oneFileStore_files hlookup).1]
      simp [Blob.size])
  have hbusy := congrArg Outcome.isBusy hagree
  revert hbusy
  decide +kernel

end AowisMap.Maps
