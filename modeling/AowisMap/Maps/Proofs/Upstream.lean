/-
Where the bytes of the tile store come from, when provider catalogues
change while it runs.

`configureProviders` may give a provider another URL template. What was
fetched under the old one lives on in five places, and each is separated
from the new one in its own way: the memory cache is cleared, a pending
read carries the generation it was scheduled in, a queued or running
download is cancelled before the change, and a file and a pending write
stand in a directory that belongs to one template, by the fingerprint in
the provider's marker file or in the directory's name (`BelongsTo`).
`UpstreamInv` says so for all five at once.

A response key is shared by every request for a tile, whatever the
template was when it came. Which keys a request may be answered under is
a parameter (`asks`): the results here are about a store whose callers
keep the keys of two providers apart.
-/
import AowisMap.Maps.Proofs.Carried
import AowisMap.Maps.Proofs.Precedence

namespace AowisMap.Maps

open Lib

variable {cfg : Config} {templates : Set String}
  {asks : String → String → Prop} {past : List State} {s u : State}

-- ============================================================ templates

/-- The URL template a provider is configured with. -/
def templateOf (providers : QHash String MapProvider) (provider : String) :
    Option String :=
  (providers.lookup provider).map (·.urlTemplate)

/-- A URL built from a template, for some tile. -/
def BuiltFrom (template url : String) : Prop :=
  ∃ (source : MapProvider) (subdomain : Fin 3) (zoom x y : Int),
    source.urlTemplate = template ∧
      url = providerUrl source subdomain zoom x y

/-- Bytes some client received for a request of a provider's tile that
was built from this template. -/
def Downloaded (past : List State) (provider template : String)
    (data : Blob) : Prop :=
  ∃ origin, data.origin = some origin ∧ ∃ s ∈ past, ∃ c,
    s.downloads.clients.lookup origin.client = some c ∧
      c.download.tilePath.dir.provider = provider ∧
      BuiltFrom template c.download.url

/-- The fingerprints of these templates tell them apart, already by their
first sixteen digits. -/
structure DistinctPrefixes (cfg : Config) (templates : Set String) :
    Prop where
  nonempty : ∀ u ∈ templates, cfg.fingerprint u ≠ ""
  distinct : ∀ u ∈ templates, ∀ v ∈ templates,
    (cfg.fingerprint u).toList.take 16 = (cfg.fingerprint v).toList.take 16 →
    u = v

/-- The template a tile directory belongs to: that of the marker file, or
the one a variant is named after. -/
def BelongsTo (cfg : Config) (markers : QHash String String) (dir : TileDir)
    (template : String) : Prop :=
  match dir.variant with
  | none => markers.lookup dir.provider = some (cfg.fingerprint template)
  | some name =>
      name = String.ofList ((cfg.fingerprint template).toList.take 16)

/-- A directory belongs to one template. -/
theorem BelongsTo.unique (hdistinct : DistinctPrefixes cfg templates)
    {markers : QHash String String} {dir : TileDir} {t t' : String}
    (ht : t ∈ templates) (ht' : t' ∈ templates)
    (h : BelongsTo cfg markers dir t) (h' : BelongsTo cfg markers dir t') :
    t = t' := by
  refine hdistinct.distinct t ht t' ht' ?_
  unfold BelongsTo at h h'
  cases hvariant : dir.variant with
  | none =>
      simp only [hvariant] at h h'
      rw [h] at h'
      rw [Option.some.inj h']
  | some name =>
      simp only [hvariant] at h h'
      rw [h] at h'
      exact String.ofList_inj.1 h'

/-- Marker files are written once. -/
def Grows (markers markers' : QHash String String) : Prop :=
  ∀ p m, markers.lookup p = some m → markers'.lookup p = some m

theorem BelongsTo.grow {markers markers' : QHash String String}
    {dir : TileDir} {t : String} (h : BelongsTo cfg markers dir t)
    (hgrow : Grows markers markers') : BelongsTo cfg markers' dir t := by
  unfold BelongsTo at h ⊢
  split
  · rename_i hbase
    simp only [hbase] at h
    exact hgrow _ _ h
  · rename_i name hvariant
    simp only [hvariant] at h
    exact h

theorem Downloaded.mono {provider template : String} {data : Blob}
    (h : Downloaded past provider template data) {past' : List State}
    (hsub : ∀ s ∈ past, s ∈ past') :
    Downloaded past' provider template data := by
  obtain ⟨origin, horigin, s₀, hmem, hrest⟩ := h
  exact ⟨origin, horigin, s₀, hsub s₀ hmem, hrest⟩

-- ================================================================== keys

/-- The canonical keys of a provider's tiles. -/
def TileKey (provider key : String) : Prop :=
  '%' ∉ provider.toList ∧ ∃ zoom x y, key = canonicalTileKey provider zoom x y

/-- A canonical key names its provider. -/
theorem TileKey.unique {p q key : String} (hp : TileKey p key)
    (hq : TileKey q key) : p = q := by
  obtain ⟨hplain, zoom, x, y, rfl⟩ := hp
  obtain ⟨hplain', zoom', x', y', heq⟩ := hq
  have hlist := congrArg String.toList heq
  rw [canonicalTileKey_toList hplain, canonicalTileKey_toList hplain']
    at hlist
  exact String.toList_inj.1
    (QString.fourPlaces_inj (c := '/') (by decide) rfl hlist)

/-- A read key names its canonical key. -/
theorem readKeyOf_inj {key key' : String} {generation generation' : Nat}
    (h : readKeyOf key generation = readKeyOf key' generation') :
    key = key' := by
  have hlist := congrArg String.toList h
  unfold readKeyOf at hlist
  simp only [String.toList_append, String.toList_ofList,
    List.append_assoc] at hlist
  have hnumber := QString.not_mem_number (c := ':') (by decide) rfl
  exact String.toList_inj.1
    (QString.append_sep_inj (hnumber generation) (hnumber generation') hlist)

-- ============================================================= invariant

/-- A directory of a provider that belongs to its present template. -/
def CurrentDir (cfg : Config) (providers : QHash String MapProvider)
    (markers : QHash String String) (provider : String) (dir : TileDir) :
    Prop :=
  dir.provider = provider ∧ ∃ t, templateOf providers provider = some t ∧
    BelongsTo cfg markers dir t

/-- Bytes downloaded under a provider's present template. -/
def CurrentBytes (past : List State) (providers : QHash String MapProvider)
    (provider : String) (data : Blob) : Prop :=
  ∃ t, templateOf providers provider = some t ∧
    Downloaded past provider t data

/-- A download asked for under its provider's present template. -/
structure AskedUnder (cfg : Config) (asks : String → String → Prop)
    (providers : QHash String MapProvider) (markers : QHash String String)
    (d : QueuedDownload) : Prop where
  keyed : TileKey d.tilePath.dir.provider d.canonicalKey
  response : asks d.tilePath.dir.provider d.responseKey
  built : ∃ t, templateOf providers d.tilePath.dir.provider = some t ∧
    BelongsTo cfg markers d.tilePath.dir t ∧ BuiltFrom t d.url

/-- A response key joined to a canonical key, or waiting for a read of
it, asks for that provider's tiles. -/
def JoinedUnder (asks : String → String → Prop) (key k : String) : Prop :=
  ∃ p, TileKey p key ∧ asks p k

/-- A pending write: whatever the template is by now, its file's
directory belongs to the one its URL was built from. -/
structure WrittenUnder (cfg : Config) (templates : Set String)
    (asks : String → String → Prop) (past : List State)
    (markers : QHash String String) (w : CacheWrite) : Prop where
  answers : ∀ k ∈ w.responseKeys, asks w.download.tilePath.dir.provider k
  sent : ∃ origin, w.data.origin = some origin ∧ ∃ s ∈ past, ∃ c,
    s.downloads.clients.lookup origin.client = some c ∧
      c.download = w.download
  built : ∃ t ∈ templates, BelongsTo cfg markers w.download.tilePath.dir t ∧
    BuiltFrom t w.download.url

/-- A pending read: one of the present generation reads a directory of
the present template. -/
structure ReadUnder (cfg : Config) (past : List State)
    (providers : QHash String MapProvider) (markers : QHash String String)
    (generation : Nat) (r : CacheRead) : Prop where
  generation_le : r.generation ≤ generation
  keyed : TileKey r.provider r.canonicalKey
  named : r.readKey = readKeyOf r.canonicalKey r.generation
  dir : r.generation = generation →
    CurrentDir cfg providers markers r.provider r.readPath.dir
  result : r.generation = generation → ∀ data, r.result = some data →
    data.isEmpty = false → CurrentBytes past providers r.provider data

/-- Whatever holds bytes, or is going to, knows their template. -/
structure UpstreamInv (cfg : Config) (templates : Set String)
    (asks : String → String → Prop) (past : List State) (s : State) :
    Prop where
  unset : s.permanentDataDirectory = ""
  known : ∀ p t, templateOf s.configuredProviders p = some t →
    t ∈ templates
  marked : ∀ p m, s.markers.lookup p = some m → m ≠ ""
  dirs : ∀ p dir, s.providerCachePaths.lookup p = some dir →
    CurrentDir cfg s.configuredProviders s.markers p dir
  scheduled : Downloads.Scheduled cfg s.downloads
  downloads : Downloads.Carries
    (AskedUnder cfg asks s.configuredProviders s.markers)
    (JoinedUnder asks) s.downloads
  writes : ∀ id w, s.writes.lookup id = some w →
    WrittenUnder cfg templates asks past s.markers w
  files : ∀ path file, s.files.lookup path = some file →
    ∃ t ∈ templates, BelongsTo cfg s.markers path.dir t ∧
      Downloaded past path.dir.provider t file.blob
  entries : ∀ key data, s.tileMemoryCache.lookup key = some data →
    ∃ p, TileKey p key ∧ CurrentBytes past s.configuredProviders p data
  reads : ∀ id r, s.reads.lookup id = some r →
    ReadUnder cfg past s.configuredProviders s.markers s.cacheGeneration r
  waiting : ∀ readKey keys, s.cacheReadsPending.lookup readKey = some keys →
    ∀ k ∈ keys, ∃ key generation, readKey = readKeyOf key generation ∧
      JoinedUnder asks key k

theorem CurrentBytes.mono {providers : QHash String MapProvider}
    {provider : String} {data : Blob}
    (h : CurrentBytes past providers provider data) {past' : List State}
    (hsub : ∀ s ∈ past, s ∈ past') :
    CurrentBytes past' providers provider data := by
  obtain ⟨t, ht, hdata⟩ := h
  exact ⟨t, ht, hdata.mono hsub⟩

theorem CurrentDir.grow {providers : QHash String MapProvider}
    {markers markers' : QHash String String} {provider : String}
    {dir : TileDir} (h : CurrentDir cfg providers markers provider dir)
    (hgrow : Grows markers markers') :
    CurrentDir cfg providers markers' provider dir := by
  obtain ⟨hp, t, ht, hdir⟩ := h
  exact ⟨hp, t, ht, hdir.grow hgrow⟩

/-- More of the past, and more marker files. -/
theorem UpstreamInv.mono (h : UpstreamInv cfg templates asks past s)
    {past' : List State} (hsub : ∀ s ∈ past, s ∈ past') :
    UpstreamInv cfg templates asks past' s := by
  refine ⟨h.unset, h.known, h.marked, h.dirs, h.scheduled, h.downloads, ?_,
    ?_, ?_, ?_, h.waiting⟩
  · intro id w hw
    obtain ⟨hanswers, ⟨origin, horigin, s₀, hmem, hsent⟩, hbuilt⟩ :=
      h.writes id w hw
    exact ⟨hanswers, ⟨origin, horigin, s₀, hsub s₀ hmem, hsent⟩, hbuilt⟩
  · intro path file hfile
    obtain ⟨t, ht, hdir, hdata⟩ := h.files path file hfile
    exact ⟨t, ht, hdir, hdata.mono hsub⟩
  · intro key data hdata
    obtain ⟨p, hp, hbytes⟩ := h.entries key data hdata
    exact ⟨p, hp, hbytes.mono hsub⟩
  · intro id r hr
    obtain ⟨hle, hkeyed, hnamed, hdir, hresult⟩ := h.reads id r hr
    exact ⟨hle, hkeyed, hnamed, hdir, fun hgen data hdata hempty =>
      (hresult hgen data hdata hempty).mono hsub⟩

/-- Selecting directories and writing their markers. -/
theorem UpstreamInv.select (h : UpstreamInv cfg templates asks past s)
    {paths : QHash String TileDir} {markers : QHash String String}
    (hgrow : Grows s.markers markers)
    (hmarked : ∀ p m, markers.lookup p = some m → m ≠ "")
    (hdirs : ∀ p dir, paths.lookup p = some dir →
      CurrentDir cfg s.configuredProviders markers p dir) :
    UpstreamInv cfg templates asks past
      { s with providerCachePaths := paths, markers := markers } := by
  refine ⟨h.unset, h.known, hmarked, hdirs, h.scheduled, ?_, ?_, ?_,
    h.entries, ?_, h.waiting⟩
  · refine h.downloads.mono ?_ fun _ _ hk => hk
    intro d hd
    obtain ⟨t, ht, hdir, hbuilt⟩ := hd.built
    exact ⟨hd.keyed, hd.response, t, ht, hdir.grow hgrow, hbuilt⟩
  · intro id w hw
    obtain ⟨hanswers, hsent, t, ht, hdir, hbuilt⟩ := h.writes id w hw
    exact ⟨hanswers, hsent, t, ht, hdir.grow hgrow, hbuilt⟩
  · intro path file hfile
    obtain ⟨t, ht, hdir, hdata⟩ := h.files path file hfile
    exact ⟨t, ht, hdir.grow hgrow, hdata⟩
  · intro id r hr
    obtain ⟨hle, hkeyed, hnamed, hdir, hresult⟩ := h.reads id r hr
    exact ⟨hle, hkeyed, hnamed, fun hgen => (hdir hgen).grow hgrow, hresult⟩

/-- A marker for a provider that had none leaves the others. -/
theorem grows_insert {markers : QHash String String} {provider : String}
    (hnone : markers.lookup provider = none) (marker : String) :
    Grows markers (markers.insert provider marker) := by
  intro p m hm
  have hne : p ≠ provider := by
    intro hsame
    rw [hsame, hnone] at hm
    cases hm
  rw [AList.lookup_insert_ne hne]
  exact hm

/-- With one more that is not empty, no marker is empty. -/
theorem marked_insert {markers : QHash String String} {marker : String}
    (hmarked : ∀ p m, markers.lookup p = some m → m ≠ "")
    (hnonempty : marker ≠ "") (provider : String) :
    ∀ p m, (markers.insert provider marker).lookup p = some m → m ≠ "" := by
  intro p m hm
  by_cases hsame : p = provider
  · rw [hsame, AList.lookup_insert] at hm
    rw [← Option.some.inj hm]
    exact hnonempty
  · rw [AList.lookup_insert_ne hsame] at hm
    exact hmarked p m hm

/-- The directory that was selected for a provider is recorded for it. -/
theorem UpstreamInv.selected (h : UpstreamInv cfg templates asks past s)
    {provider template : String} (dir : TileDir)
    {markers : QHash String String}
    (htemplate : templateOf s.configuredProviders provider = some template)
    (hgrow : Grows s.markers markers)
    (hmarked : ∀ p m, markers.lookup p = some m → m ≠ "")
    (hdir : dir.provider = provider)
    (hbelongs : BelongsTo cfg markers dir template) :
    UpstreamInv cfg templates asks past
        { s with
          providerCachePaths := s.providerCachePaths.insert provider dir
          markers := markers } ∧
      CurrentDir cfg s.configuredProviders markers provider dir := by
  have hcurrent : CurrentDir cfg s.configuredProviders markers provider dir :=
    ⟨hdir, _, htemplate, hbelongs⟩
  refine ⟨h.select hgrow hmarked ?_, hcurrent⟩
  intro p d hp
  by_cases hsame : p = provider
  · rw [hsame, AList.lookup_insert] at hp
    rw [hsame, ← Option.some.inj hp]
    exact hcurrent
  · rw [AList.lookup_insert_ne hsame] at hp
    exact (h.dirs p d hp).grow hgrow

/-- The directory `providerCachePath` selects belongs to the present
template. -/
theorem providerCachePath_current (hdistinct : DistinctPrefixes cfg templates)
    (h : UpstreamInv cfg templates asks past s) {choice : Choice}
    (hchoice : choice.markerWritten = true) (provider : String) :
    ∃ paths markers, (providerCachePath cfg choice provider s).2
        = { s with providerCachePaths := paths, markers := markers } ∧
      UpstreamInv cfg templates asks past
        { s with providerCachePaths := paths, markers := markers } ∧
      ∀ dir, (providerCachePath cfg choice provider s).1 = some dir →
        CurrentDir cfg s.configuredProviders markers provider dir := by
  have hstill : UpstreamInv cfg templates asks past
      { s with
        providerCachePaths := s.providerCachePaths
        markers := s.markers } := h
  unfold providerCachePath
  cases hsource : s.configuredProviders.lookup provider with
  | none =>
      exact ⟨s.providerCachePaths, s.markers, rfl, hstill,
        fun dir hdir => by cases hdir⟩
  | some source =>
      have htemplate : templateOf s.configuredProviders provider
          = some source.urlTemplate := by
        unfold templateOf
        rw [hsource]
        rfl
      have hnonempty := hdistinct.nonempty _
        (h.known provider _ htemplate)
      cases hknown : s.providerCachePaths.lookup provider with
      | some dir =>
          refine ⟨s.providerCachePaths, s.markers, rfl, hstill, ?_⟩
          intro dir' hdir'
          cases hdir'
          exact h.dirs provider dir hknown
      | none =>
          simp only
          split
          · obtain ⟨hinv, hcurrent⟩ := h.selected
              { base := cfg.cacheBaseDirectory
                provider := provider
                variant := some (String.ofList
                  ((cfg.fingerprint source.urlTemplate).toList.take 16)) }
              htemplate (fun _ _ hm => hm) h.marked rfl rfl
            refine ⟨_, s.markers, rfl, hinv, ?_⟩
            intro dir hdir
            cases hdir
            exact hcurrent
          · rename_i hother
            cases hmarker : s.markers.lookup provider with
            | none =>
                obtain ⟨hinv, hcurrent⟩ := h.selected
                  { base := cfg.cacheBaseDirectory, provider := provider }
                  htemplate (grows_insert hmarker _)
                  (marked_insert h.marked hnonempty provider) rfl
                  (AList.lookup_insert _)
                refine ⟨_, _, ?_, hinv, ?_⟩
                · simp [hchoice]
                · intro dir hdir
                  cases hdir
                  exact hcurrent
            | some m =>
                have hm := h.marked provider m hmarker
                have heq : m = cfg.fingerprint source.urlTemplate := by
                  rw [hmarker] at hother
                  by_contra hne
                  exact hother ⟨hm, hne⟩
                obtain ⟨hinv, hcurrent⟩ := h.selected
                  { base := cfg.cacheBaseDirectory, provider := provider }
                  htemplate (fun _ _ h => h) h.marked rfl
                  (hmarker.trans (congrArg some heq))
                refine ⟨_, _, ?_, hinv, ?_⟩
                · simp [hm]
                · intro dir hdir
                  cases hdir
                  exact hcurrent

-- ============================================================= requests

/-- Bytes in a directory of the present template were downloaded under
it. -/
theorem UpstreamInv.read (hdistinct : DistinctPrefixes cfg templates)
    (h : UpstreamInv cfg templates asks past s) {provider : String}
    {path : TilePath} {data : Blob}
    (hdir : CurrentDir cfg s.configuredProviders s.markers provider path.dir)
    (hread : readFile s path = some data) :
    CurrentBytes past s.configuredProviders provider data := by
  obtain ⟨hp, t, ht, hbelongs⟩ := hdir
  unfold readFile at hread
  cases hfile : s.files.lookup path with
  | none =>
      rw [hfile] at hread
      cases hread
  | some file =>
      obtain ⟨t', ht', hbelongs', hdata⟩ := h.files path file hfile
      rw [hfile] at hread
      simp only at hread
      split at hread
      · cases hread
        have hsame := BelongsTo.unique hdistinct (h.known provider t ht) ht'
          hbelongs hbelongs'
        rw [← hsame, hp] at hdata
        exact ⟨t, ht, hdata⟩
      · cases hread

/-- Bytes of the present template may be cached. -/
theorem UpstreamInv.stored (h : UpstreamInv cfg templates asks past s)
    {provider key : String} {data : Blob} (hkey : TileKey provider key)
    (hdata : CurrentBytes past s.configuredProviders provider data) :
    UpstreamInv cfg templates asks past (cacheInsert key data s) := by
  refine ⟨h.unset, h.known, h.marked, h.dirs, h.scheduled, h.downloads,
    h.writes, h.files, ?_, h.reads, h.waiting⟩
  intro k d hk
  have hk : (s.tileMemoryCache.insert key data).lookup k = some d := hk
  by_cases hsame : k = key
  · rw [hsame, AList.lookup_insert] at hk
    rw [hsame, ← Option.some.inj hk]
    exact ⟨provider, hkey, hdata⟩
  · rw [AList.lookup_insert_ne hsame] at hk
    exact h.entries k d hk

/-- A cached entry of a provider's key. -/
theorem UpstreamInv.cached (h : UpstreamInv cfg templates asks past s)
    {provider key : String} {data : Blob} (hkey : TileKey provider key)
    (hdata : cached s key = some data) :
    CurrentBytes past s.configuredProviders provider data := by
  obtain ⟨p, hp, hbytes⟩ := h.entries key data
    (Option.filter_eq_some_iff.1 hdata).1
  rw [hkey.unique hp]
  exact hbytes

/-- What a request for a provider's tile leaves: bytes it is served with
at once are of the present template. -/
structure Served (cfg : Config) (templates : Set String)
    (asks : String → String → Prop) (past : List State) (provider : String)
    (s : State) (r : TileRequestResult × State) : Prop where
  inv : UpstreamInv cfg templates asks past r.2
  providers : r.2.configuredProviders = s.configuredProviders
  outbox : r.2.outbox = s.outbox
  data : r.1.status = .ready →
    CurrentBytes past s.configuredProviders provider r.1.data

/-- A request that was refused, or waits. -/
theorem Served.unserved {provider : String} {r : TileRequestResult × State}
    (hinv : UpstreamInv cfg templates asks past r.2)
    (hproviders : r.2.configuredProviders = s.configuredProviders)
    (houtbox : r.2.outbox = s.outbox) (hstatus : r.1.status ≠ .ready) :
    Served cfg templates asks past provider s r :=
  ⟨hinv, hproviders, houtbox, fun hready => absurd hready hstatus⟩

/-- An upstream request is built from the present template. -/
theorem fetchTile_served (h : UpstreamInv cfg templates asks past s)
    {provider key canonicalKey : String} {source : MapProvider}
    (hsource : s.configuredProviders.lookup provider = some source)
    (choice : Choice) {path : TilePath}
    (hdir : CurrentDir cfg s.configuredProviders s.markers provider path.dir)
    (hkeyed : TileKey provider canonicalKey) (hasks : asks provider key) :
    Served cfg templates asks past provider s
      (fetchTile cfg choice source path canonicalKey key s) := by
  unfold fetchTile
  split
  · obtain ⟨hp, t, ht, hbelongs⟩ := hdir
    have htemplate : t = source.urlTemplate := by
      unfold templateOf at ht
      rw [hsource] at ht
      exact (Option.some.inj ht).symm
    refine Served.unserved ?_ rfl rfl ?_
    · refine ⟨h.unset, h.known, h.marked, h.dirs,
        Downloads.scheduled_step (a := .schedule _) h.scheduled rfl,
        Downloads.carries_schedule h.scheduled.tables h.scheduled.work
          h.downloads _ ?_ ?_, h.writes, h.files, h.entries, h.reads,
        h.waiting⟩
      · rw [← hp] at hkeyed hasks ht
        refine ⟨hkeyed, hasks, t, ht, hbelongs, source, choice.subdomain,
          path.zoom, path.x, path.y, htemplate.symm, rfl⟩
      · exact ⟨provider, hkeyed, hasks⟩
    · simp only
      split
      · simp
      · simp
  · exact Served.unserved h rfl rfl (by simp)

/-- Behind the warm memory cache. -/
theorem getColdTile_served (hdistinct : DistinctPrefixes cfg templates)
    (h : UpstreamInv cfg templates asks past s)
    {provider key : String} {source : MapProvider}
    (hsource : s.configuredProviders.lookup provider = some source)
    (choice : Choice) {dir : TileDir} {zoom x y : Int}
    (hdir : CurrentDir cfg s.configuredProviders s.markers provider dir)
    (hplain : '%' ∉ provider.toList) (hasks : asks provider key) :
    Served cfg templates asks past provider s
      (getColdTile cfg choice provider source zoom x y
        (canonicalTileKey provider zoom x y) key dir s) := by
  have hkeyed : TileKey provider (canonicalTileKey provider zoom x y) :=
    ⟨hplain, zoom, x, y, rfl⟩
  unfold getColdTile
  have hunset := h.unset
  simp only [hunset, ne_eq, not_true_eq_false, false_and, if_false, if_true]
  split
  · rename_i data hdata
    exact ⟨h, rfl, rfl, fun _ => h.cached hkeyed hdata⟩
  · split
    · rename_i data hdata
      have hbytes : CurrentBytes past s.configuredProviders provider data :=
        h.read hdistinct hdir (Option.filter_eq_some_iff.1 hdata).1
      exact ⟨h.stored hkeyed hbytes, rfl, rfl, fun _ => hbytes⟩
    · exact fetchTile_served h hsource choice hdir hkeyed hasks

/-- Serving from a state whose directories were just selected. -/
theorem Served.of_select {provider : String} {paths : QHash String TileDir}
    {markers : QHash String String} {r : TileRequestResult × State}
    (h : Served cfg templates asks past provider
      { s with providerCachePaths := paths, markers := markers } r) :
    Served cfg templates asks past provider s r :=
  ⟨h.inv, h.providers, h.outbox, h.data⟩

/-- `getTile` serves bytes of the present template. -/
theorem getTile_served (hdistinct : DistinctPrefixes cfg templates)
    (h : UpstreamInv cfg templates asks past s) {provider key : String}
    {choice : Choice} (hchoice : choice.markerWritten = true)
    (hplain : '%' ∉ provider.toList) (hasks : asks provider key)
    (z x y : Int) :
    Served cfg templates asks past provider s
      (getTile cfg choice provider z x y key s) := by
  unfold getTile
  cases hsource : s.configuredProviders.lookup provider with
  | none => exact Served.unserved h rfl rfl (by simp)
  | some source =>
      simp only
      split
      · exact Served.unserved h rfl rfl (by simp)
      · split
        · exact Served.unserved h rfl rfl (by simp)
        · split
          · rename_i data hdata
            rw [if_pos (Or.inl h.unset)] at hdata
            exact ⟨h, rfl, rfl, fun _ => h.cached ⟨hplain, _, _, _, rfl⟩
              hdata⟩
          · obtain ⟨paths, markers, hframe, hinv, hcurrent⟩ :=
              providerCachePath_current hdistinct h hchoice provider
            rw [hframe]
            split
            · exact Served.unserved hinv rfl rfl (by simp)
            · rename_i dir hdir
              exact (getColdTile_served hdistinct hinv hsource choice
                (hcurrent dir hdir) hplain hasks).of_select

/-- A read of a file of the present template is scheduled or joined. -/
theorem scheduleRead_served (h : UpstreamInv cfg templates asks past s)
    {read : CacheRead} {key : String}
    (hread : ReadUnder cfg past s.configuredProviders s.markers
      s.cacheGeneration read) (hasks : asks read.provider key) :
    Served cfg templates asks past read.provider s
      (scheduleRead read key s) := by
  have hnew : ∃ k generation, read.readKey = readKeyOf k generation ∧
      JoinedUnder asks k key :=
    ⟨_, _, hread.named, read.provider, hread.keyed, hasks⟩
  -- a waiting list that grew by this request
  have hwaiting : ∀ keys : List String,
      (∀ k ∈ keys, ∃ key generation,
        read.readKey = readKeyOf key generation ∧ JoinedUnder asks key k) →
      ∀ readKey ks, (s.cacheReadsPending.insert read.readKey
        keys).lookup readKey = some ks →
      ∀ k ∈ ks, ∃ key generation, readKey = readKeyOf key generation ∧
        JoinedUnder asks key k := by
    intro keys hkeys readKey ks hks
    by_cases hsame : readKey = read.readKey
    · rw [hsame, AList.lookup_insert] at hks
      cases hks
      rw [hsame]
      exact hkeys
    · rw [AList.lookup_insert_ne hsame] at hks
      exact h.waiting readKey ks hks
  unfold scheduleRead
  split
  · rename_i keys hkeys
    refine Served.unserved ?_ rfl rfl (by simp)
    refine ⟨h.unset, h.known, h.marked, h.dirs, h.scheduled, h.downloads,
      h.writes, h.files, h.entries, h.reads, hwaiting _ ?_⟩
    intro k hk
    rcases List.mem_append.1 hk with hk | hk
    · exact h.waiting _ keys hkeys k hk
    · rw [List.mem_singleton.1 hk]
      exact hnew
  · split
    · exact Served.unserved h rfl rfl (by simp)
    · split
      · exact Served.unserved h rfl rfl (by simp)
      · refine Served.unserved ?_ rfl rfl (by simp)
        refine ⟨h.unset, h.known, h.marked, h.dirs, h.scheduled, h.downloads,
          h.writes, h.files, h.entries, ?_, hwaiting _ ?_⟩
        · intro id r hr
          have hr : (s.reads.insert s.nextRead read).lookup id = some r := hr
          by_cases hsame : id = s.nextRead
          · rw [hsame, AList.lookup_insert] at hr
            rw [← Option.some.inj hr]
            exact hread
          · rw [AList.lookup_insert_ne hsame] at hr
            exact h.reads id r hr
        · intro k hk
          rw [List.mem_singleton.1 hk]
          exact hnew

/-- The read of a file of the present template. -/
theorem coldRead_under {provider canonicalKey : String} {zoom x y : Int}
    {path : TilePath}
    (hdir : CurrentDir cfg s.configuredProviders s.markers provider path.dir)
    (hkeyed : TileKey provider canonicalKey) :
    ReadUnder cfg past s.configuredProviders s.markers s.cacheGeneration
      (coldRead provider zoom x y canonicalKey false path s) := by
  refine ⟨Nat.le_refl _, hkeyed, rfl, fun _ => hdir, ?_⟩
  intro _ data hdata
  cases hdata

/-- `getTileForHttp` serves bytes of the present template. -/
theorem getTileForHttp_served (hdistinct : DistinctPrefixes cfg templates)
    (h : UpstreamInv cfg templates asks past s) {provider key : String}
    {choice : Choice} (hchoice : choice.markerWritten = true)
    (hplain : '%' ∉ provider.toList) (hasks : asks provider key)
    (z x y : Int) :
    Served cfg templates asks past provider s
      (getTileForHttp cfg choice provider z x y key s) := by
  have hkeyed : TileKey provider (canonicalTileKey provider z
      (positiveModulo x (tileCount z)) y) := ⟨hplain, _, _, _, rfl⟩
  unfold getTileForHttp
  split
  · exact Served.unserved h rfl rfl (by simp)
  · split
    · exact Served.unserved h rfl rfl (by simp)
    · simp only
      split
      · rename_i data hdata
        rw [if_pos (Or.inl h.unset)] at hdata
        exact ⟨h, rfl, rfl, fun _ => h.cached hkeyed hdata⟩
      · unfold getColdTileForHttp
        have hunset := h.unset
        simp only [hunset, ne_eq, not_true_eq_false, false_and, if_false]
        split
        · rename_i data hdata
          exact ⟨h, rfl, rfl, fun _ => h.cached hkeyed hdata⟩
        · obtain ⟨paths, markers, hframe, hinv, hcurrent⟩ :=
            providerCachePath_current hdistinct h hchoice provider
          rw [hframe]
          split
          · exact (getTile_served hdistinct hinv hchoice hplain hasks
              z x y).of_select
          · rename_i dir hdir
            split
            · exact (scheduleRead_served hinv
                (coldRead_under (s := { s with
                  providerCachePaths := paths
                  markers := markers }) (hcurrent dir hdir) hkeyed)
                hasks).of_select
            · exact (getTile_served hdistinct hinv hchoice hplain hasks
                z x y).of_select

-- ============================================================== signals

/-- A signal whose bytes, if it has any, are of the present template of a
provider its key asks for. -/
def SoundSignal (asks : String → String → Prop) (past : List State)
    (providers : QHash String MapProvider) (signal : Signal) : Prop :=
  ∀ k data, signal = .tileReady k data →
    ∃ p, asks p k ∧ CurrentBytes past providers p data

/-- What a callback leaves: the invariant, the catalogue, and sound
signals. -/
structure Sound (cfg : Config) (templates : Set String)
    (asks : String → String → Prop) (past : List State)
    (providers : QHash String MapProvider) (u : State) : Prop where
  inv : UpstreamInv cfg templates asks past u
  catalogue : u.configuredProviders = providers
  signals : ∀ signal ∈ u.outbox, SoundSignal asks past providers signal

/-- The outbox is none of the invariant's business. -/
theorem UpstreamInv.emitted (h : UpstreamInv cfg templates asks past s)
    (signals : List Signal) :
    UpstreamInv cfg templates asks past (emitAll signals s) :=
  ⟨h.unset, h.known, h.marked, h.dirs, h.scheduled, h.downloads, h.writes,
    h.files, h.entries, h.reads, h.waiting⟩

theorem UpstreamInv.of_outbox (h : UpstreamInv cfg templates asks past s)
    (outbox : List Signal) :
    UpstreamInv cfg templates asks past { s with outbox := outbox } :=
  ⟨h.unset, h.known, h.marked, h.dirs, h.scheduled, h.downloads, h.writes,
    h.files, h.entries, h.reads, h.waiting⟩

/-- Nothing but bytes of the present template was emitted. -/
theorem Sound.emitted {providers : QHash String MapProvider}
    (h : UpstreamInv cfg templates asks past u)
    (hproviders : u.configuredProviders = providers)
    (hquiet : u.outbox = []) {signals : List Signal}
    (hsignals : ∀ signal ∈ signals,
      SoundSignal asks past providers signal) :
    Sound cfg templates asks past providers (emitAll signals u) := by
  refine ⟨h.emitted signals, hproviders, ?_⟩
  intro signal hsignal
  have hsignal : signal ∈ u.outbox ++ signals := hsignal
  rw [hquiet, List.nil_append] at hsignal
  exact hsignals signal hsignal

/-- A callback without signals. -/
theorem Sound.quiet {providers : QHash String MapProvider}
    (h : UpstreamInv cfg templates asks past u)
    (hproviders : u.configuredProviders = providers)
    (hquiet : u.outbox = []) :
    Sound cfg templates asks past providers u := by
  refine ⟨h, hproviders, ?_⟩
  intro signal hsignal
  rw [hquiet] at hsignal
  cases hsignal

theorem soundSignal_failed {providers : QHash String MapProvider}
    {keys : List String} {reason : TileFailureReason} :
    ∀ signal ∈ keys.map (fun key => Signal.tileFailed key reason),
      SoundSignal asks past providers signal := by
  intro signal hsignal k data heq
  obtain ⟨key, -, rfl⟩ := List.mem_map.1 hsignal
  cases heq

theorem soundSignal_ready {providers : QHash String MapProvider}
    {keys : List String} {data : Blob} {provider : String}
    (hkeys : ∀ k ∈ keys, asks provider k)
    (hdata : CurrentBytes past providers provider data) :
    ∀ signal ∈ keys.map (fun key => Signal.tileReady key data),
      SoundSignal asks past providers signal := by
  intro signal hsignal k d heq
  obtain ⟨_, hkey, rfl⟩ := List.mem_map.1 hsignal
  cases heq
  exact ⟨provider, hkeys k hkey, hdata⟩

-- ============================================================ downloads

/-- Ending a client keeps the invariant, whatever is emitted. -/
theorem UpstreamInv.ended (h : UpstreamInv cfg templates asks past s)
    {client : ClientId} {ended : Downloads.Ended}
    (hended : Downloads.clientEnds cfg client s.downloads = some ended) :
    UpstreamInv cfg templates asks past { s with
      downloads := Downloads.startQueuedDownloads cfg ended.downloads } := by
  obtain ⟨-, -, -, hcarries⟩ :=
    Downloads.carries_clientEnds h.downloads hended
  have htables := Downloads.schedulerInv_clientEnds h.scheduled.tables hended
  refine ⟨h.unset, h.known, h.marked, h.dirs, ?_, ?_, h.writes, h.files,
    h.entries, h.reads, h.waiting⟩
  · refine Downloads.scheduled_step (a := .ended client) h.scheduled ?_
    show (Downloads.clientEnds cfg client s.downloads).map _ = _
    rw [hended]
    rfl
  · exact Downloads.carries_startQueued htables hcarries

/-- A finished client answers with bytes of the present template, or
hands them to the cache and to a write. -/
theorem requestFinished_sound (h : UpstreamInv cfg templates asks past s)
    (hnow : ∃ s₀ ∈ past, s₀.downloads = s.downloads) (hquiet : s.outbox = [])
    {client : ClientId} {bytes : Bytes} {mayStore : Bool}
    (hstep : requestFinished cfg client bytes mayStore s = some u) :
    Sound cfg templates asks past s.configuredProviders u := by
  have hlive : ∀ ended,
      Downloads.clientEnds cfg client s.downloads = some ended →
      ended.client.cancelRequested = false := by
    intro ended hended
    unfold requestFinished at hstep
    rw [hended] at hstep
    simp only at hstep
    split at hstep
    · cases hstep
    · rename_i hnot
      exact Bool.eq_false_iff.2 hnot
  obtain ⟨ended, hended, hcases⟩ := requestFinished_inv hstep
  obtain ⟨hclient, hasked, hkeys, -⟩ :=
    Downloads.carries_clientEnds h.downloads hended
  have hasked := hasked (hlive ended hended)
  have hinv := h.ended hended
  obtain ⟨s₀, hs₀, hdownloads⟩ := hnow
  rw [← hdownloads] at hclient
  obtain ⟨t, ht, hbelongs, hbuilt⟩ := hasked.built
  have hdata : CurrentBytes past s.configuredProviders
      ended.client.download.tilePath.dir.provider
      (responseBlob client bytes ended.client.download) :=
    ⟨t, ht, _, rfl, s₀, hs₀, ended.client, hclient, rfl, hbuilt⟩
  have hanswers : ∀ k ∈ ended.responseKeys,
      asks ended.client.download.tilePath.dir.provider k := by
    intro k hk
    rcases hkeys k hk with rfl | ⟨p, hp, hasks⟩
    · exact hasked.response
    · rw [hasked.keyed.unique hp]
      exact hasks
  rcases hcases with rfl | ⟨-, rfl⟩
  · rw [emitReady_eq]
    exact Sound.emitted hinv rfl hquiet (soundSignal_ready hanswers hdata)
  · refine Sound.quiet ?_ rfl hquiet
    have hstored := hinv.stored hasked.keyed hdata
    refine ⟨hstored.unset, hstored.known, hstored.marked, hstored.dirs,
      hstored.scheduled, hstored.downloads, ?_, hstored.files,
      hstored.entries, hstored.reads, hstored.waiting⟩
    intro id w hw
    have hw : (s.writes.insert s.nextWrite _).lookup id = some w := hw
    by_cases hsame : id = s.nextWrite
    · rw [hsame, AList.lookup_insert] at hw
      cases hw
      exact ⟨hanswers, ⟨_, rfl, s₀, hs₀, ended.client, hclient, rfl⟩, t,
        h.known _ t ht, hbelongs, hbuilt⟩
    · rw [AList.lookup_insert_ne hsame] at hw
      exact h.writes id w hw

/-- A failed client answers with no bytes. -/
theorem requestError_sound (h : UpstreamInv cfg templates asks past s)
    (hquiet : s.outbox = []) {client : ClientId}
    {reason : TileFailureReason}
    (hstep : requestError cfg client reason s = some u) :
    Sound cfg templates asks past s.configuredProviders u := by
  obtain ⟨ended, hended, rfl⟩ := requestError_inv hstep
  rw [emitFailed_eq]
  exact Sound.emitted (h.ended hended) rfl hquiet soundSignal_failed

-- ====================================================== writes and reads

/-- A committed file stands in the directory of the template its bytes
were downloaded under. -/
theorem writeRuns_sound (h : UpstreamInv cfg templates asks past s)
    (hquiet : s.outbox = []) {write : WriteId} {saved : Bool}
    (hstep : writeRuns write saved s = some u) :
    Sound cfg templates asks past s.configuredProviders u := by
  obtain ⟨w, hw, -, hcases⟩ := writeRuns_inv hstep
  have hunder := h.writes write w hw
  have hwrites : ∀ result id w', (s.writes.insert write
      { w with result := some result }).lookup id = some w' →
      WrittenUnder cfg templates asks past s.markers w' := by
    intro result id w' hw'
    by_cases hsame : id = write
    · rw [hsame, AList.lookup_insert] at hw'
      cases hw'
      exact ⟨hunder.answers, hunder.sent, hunder.built⟩
    · rw [AList.lookup_insert_ne hsame] at hw'
      exact h.writes id w' hw'
  rcases hcases with ⟨result, rfl⟩ | ⟨-, rfl⟩
  · refine Sound.quiet ?_ rfl hquiet
    exact ⟨h.unset, h.known, h.marked, h.dirs, h.scheduled, h.downloads,
      hwrites result, h.files, h.entries, h.reads, h.waiting⟩
  · refine Sound.quiet ?_ rfl hquiet
    refine ⟨h.unset, h.known, h.marked, h.dirs, h.scheduled, h.downloads,
      hwrites true, ?_, h.entries, h.reads, h.waiting⟩
    intro path file hfile
    have hfile : (s.files.insert w.download.tilePath
      { blob := w.data }).lookup path = some file := hfile
    by_cases hsame : path = w.download.tilePath
    · rw [hsame, AList.lookup_insert] at hfile
      cases hfile
      obtain ⟨t, ht, hbelongs, hbuilt⟩ := hunder.built
      obtain ⟨origin, horigin, s₀, hs₀, c, hc, hdownload⟩ := hunder.sent
      rw [hsame]
      refine ⟨t, ht, hbelongs, origin, horigin, s₀, hs₀, c, hc, ?_, ?_⟩
      · rw [hdownload]
      · rw [hdownload]
        exact hbuilt
    · rw [AList.lookup_insert_ne hsame] at hfile
      exact h.files path file hfile

/-- The callback of a write keeps the invariant and answers the write's
keys with its bytes, whatever the template is by now. -/
theorem writeFinished_answers (h : UpstreamInv cfg templates asks past s)
    (hquiet : s.outbox = []) {write : WriteId}
    (hstep : writeFinished write s = some u) :
    UpstreamInv cfg templates asks past u ∧
      u.configuredProviders = s.configuredProviders ∧
      ∃ w, s.writes.lookup write = some w ∧
        u.outbox = w.responseKeys.map fun k => .tileReady k w.data := by
  obtain ⟨w, hw, -, rfl⟩ := writeFinished_inv hstep
  rw [emitReady_eq]
  refine ⟨?_, rfl, w, hw, ?_⟩
  · refine UpstreamInv.emitted ?_ _
    refine ⟨h.unset, h.known, h.marked, h.dirs,
      Downloads.scheduled_step (a := .forget _) h.scheduled rfl, ?_, ?_,
      h.files, h.entries, h.reads, h.waiting⟩
    · exact h.downloads.of_frame (fun _ hd => hd) rfl rfl fun _ _ hk => hk
    · intro id w' hw'
      have hw' : (s.writes.erase write).lookup id = some w' := hw'
      by_cases hsame : id = write
      · rw [hsame, AList.lookup_erase] at hw'
        cases hw'
      · rw [AList.lookup_erase_ne hsame] at hw'
        exact h.writes id w' hw'
  · show s.outbox ++ _ = _
    rw [hquiet, List.nil_append]

/-- A worker reads a file of the template its directory belongs to. -/
theorem readRuns_sound (hdistinct : DistinctPrefixes cfg templates)
    (h : UpstreamInv cfg templates asks past s) (hquiet : s.outbox = [])
    {read : ReadId} (hstep : readRuns read s = some u) :
    Sound cfg templates asks past s.configuredProviders u := by
  obtain ⟨r, data, hr, -, hdata, rfl⟩ := readRuns_inv hstep
  refine Sound.quiet ?_ rfl hquiet
  refine ⟨h.unset, h.known, h.marked, h.dirs, h.scheduled, h.downloads,
    h.writes, h.files, h.entries, ?_, h.waiting⟩
  intro id r' hr'
  have hr' : (s.reads.insert read { r with result := some data }).lookup id
    = some r' := hr'
  by_cases hsame : id = read
  · rw [hsame, AList.lookup_insert] at hr'
    cases hr'
    have hunder := h.reads read r hr
    refine ⟨hunder.generation_le, hunder.keyed, hunder.named, hunder.dir, ?_⟩
    intro hgen d hd hnonempty
    cases hd
    rcases hdata with rfl | hread
    · cases hnonempty
    · exact h.read hdistinct (hunder.dir hgen) hread
  · rw [AList.lookup_insert_ne hsame] at hr'
    exact h.reads id r' hr'

/-- A read that is over. -/
theorem UpstreamInv.forgetRead (h : UpstreamInv cfg templates asks past s)
    (read : ReadId) (r : CacheRead) :
    UpstreamInv cfg templates asks past (forgetRead read r s) := by
  refine ⟨h.unset, h.known, h.marked, h.dirs, h.scheduled, h.downloads,
    h.writes, h.files, h.entries, ?_, ?_⟩
  · intro id r' hr'
    have hr' : (s.reads.erase read).lookup id = some r' := hr'
    by_cases hsame : id = read
    · rw [hsame, AList.lookup_erase] at hr'
      cases hr'
    · rw [AList.lookup_erase_ne hsame] at hr'
      exact h.reads id r' hr'
  · intro readKey keys hkeys
    have hkeys : (s.cacheReadsPending.erase r.readKey).lookup readKey
      = some keys := hkeys
    by_cases hsame : readKey = r.readKey
    · rw [hsame, AList.lookup_erase] at hkeys
      cases hkeys
    · rw [AList.lookup_erase_ne hsame] at hkeys
      exact h.waiting readKey keys hkeys

/-- The keys waiting for a read ask for its provider's tiles. -/
theorem UpstreamInv.readKeys (h : UpstreamInv cfg templates asks past s)
    {read : ReadId} {r : CacheRead} (hr : s.reads.lookup read = some r) :
    ∀ k ∈ readKeys r s, asks r.provider k := by
  intro k hk
  have hunder := h.reads read r hr
  unfold Maps.readKeys at hk
  cases hkeys : s.cacheReadsPending.lookup r.readKey with
  | none =>
      rw [hkeys] at hk
      cases hk
  | some keys =>
      rw [hkeys] at hk
      obtain ⟨key, generation, hnamed, p, hp, hasks⟩ :=
        h.waiting _ keys hkeys k hk
      rw [hunder.named] at hnamed
      have hkeyed := hunder.keyed
      rw [readKeyOf_inj hnamed] at hkeyed
      rw [hkeyed.unique hp]
      exact hasks

/-- The requesters of a read that found nothing ask again. -/
theorem retryReads_sound (hdistinct : DistinctPrefixes cfg templates)
    {providers : QHash String MapProvider} (r : CacheRead)
    (hplain : '%' ∉ r.provider.toList) (requesters : List (String × Choice))
    (hrequesters : ∀ q ∈ requesters,
      asks r.provider q.1 ∧ q.2.markerWritten = true)
    (h : Sound cfg templates asks past providers s) :
    Sound cfg templates asks past providers
      (requesters.foldl (retryRead cfg r) s) := by
  induction requesters generalizing s with
  | nil => exact h
  | cons q requesters ih =>
      refine ih (fun q' hq' => hrequesters q' (List.mem_cons_of_mem _ hq')) ?_
      obtain ⟨hasks, hchoice⟩ := hrequesters q List.mem_cons_self
      have hserved := getTile_served hdistinct h.inv hchoice hplain hasks
        r.zoom r.wrappedX r.y
      have hkept : Sound cfg templates asks past providers
          (getTile cfg q.2 r.provider r.zoom r.wrappedX r.y q.1 s).2 := by
        refine ⟨hserved.inv, ?_, ?_⟩
        · rw [hserved.providers]
          exact h.catalogue
        · rw [hserved.outbox]
          exact h.signals
      have hemit : ∀ signal, SoundSignal asks past providers signal →
          Sound cfg templates asks past providers (emit signal
            (getTile cfg q.2 r.provider r.zoom r.wrappedX r.y q.1 s).2) := by
        intro signal hsignal
        rw [emit_eq]
        refine ⟨hkept.inv.emitted _, hkept.catalogue, ?_⟩
        intro other hother
        rcases List.mem_append.1 hother with hother | hother
        · exact hkept.signals other hother
        · rw [List.mem_singleton.1 hother]
          exact hsignal
      unfold retryRead
      simp only
      split
      · rename_i hready
        refine hemit _ ?_
        intro k data heq
        cases heq
        have hdata := hserved.data hready
        rw [h.catalogue] at hdata
        exact ⟨r.provider, hasks, hdata⟩
      · refine hemit _ ?_
        intro k data heq
        cases heq
      · refine hemit _ ?_
        intro k data heq
        cases heq
      · exact hkept

/-- A finished read of the present generation loads and answers bytes of
the present template; an older one answers with no bytes. -/
theorem readFinished_sound (hdistinct : DistinctPrefixes cfg templates)
    (h : UpstreamInv cfg templates asks past s) (hquiet : s.outbox = [])
    {read : ReadId} {choices : Nat → Choice}
    (hchoices : ∀ i, (choices i).markerWritten = true)
    (hstep : readFinished cfg read choices s = some u) :
    Sound cfg templates asks past s.configuredProviders u := by
  unfold readFinished at hstep
  cases hr : s.reads.lookup read with
  | none =>
      rw [hr] at hstep
      cases hstep
  | some r =>
      cases hdata : r.result with
      | none =>
          simp only [hr, hdata] at hstep
          cases hstep
      | some data =>
          simp only [hr, hdata] at hstep
          have hunder := h.reads read r hr
          have hforget := h.forgetRead read r
          have hkeys := h.readKeys hr
          split at hstep
          · rename_i hcurrent
            cases hstep
            have hbytes := hunder.result hcurrent.1 data hdata hcurrent.2
            rw [emitReady_eq]
            have hstored := hforget.stored hunder.keyed hbytes
            refine Sound.emitted ?_ ?_ ?_ (soundSignal_ready hkeys hbytes)
            · exact ⟨hstored.unset, hstored.known, hstored.marked,
                hstored.dirs, hstored.scheduled, hstored.downloads,
                hstored.writes, hstored.files, hstored.entries,
                hstored.reads, hstored.waiting⟩
            · rfl
            · exact hquiet
          · split at hstep
            · cases hstep
              rw [emitFailed_eq]
              refine Sound.emitted hforget ?_ ?_ soundSignal_failed
              · rfl
              · exact hquiet
            · cases hstep
              refine retryReads_sound hdistinct r hunder.keyed.1 _ ?_
                (Sound.quiet hforget rfl hquiet)
              intro q hq
              obtain ⟨⟨k, i⟩, hk, rfl⟩ := List.mem_map.1 hq
              exact ⟨hkeys k (List.fst_mem_of_mem_zipIdx hk), hchoices i⟩

/-- Dropping a memory cache entry. -/
theorem evict_sound (h : UpstreamInv cfg templates asks past s)
    (hquiet : s.outbox = []) (key : String) :
    Sound cfg templates asks past s.configuredProviders (evict key s) := by
  refine Sound.quiet ?_ rfl hquiet
  refine ⟨h.unset, h.known, h.marked, h.dirs, h.scheduled, h.downloads,
    h.writes, h.files, ?_, h.reads, h.waiting⟩
  intro k data hk
  have hk : (s.tileMemoryCache.erase key).lookup k = some data := hk
  by_cases hsame : k = key
  · rw [hsame, AList.lookup_erase] at hk
    cases hk
  · rw [AList.lookup_erase_ne hsame] at hk
    exact h.entries k data hk

-- ======================================================== configuration

/-- A configured template is that of some provider of the catalogue. -/
theorem templateOf_configured {providers : List MapProvider}
    {coverage : Coverage} {defaultCoverage p t : String}
    (h : templateOf (configureProviders providers coverage defaultCoverage
      s).configuredProviders p = some t) :
    ∃ q ∈ providers, q.urlTemplate = t := by
  have hfold : ∀ (ps : List MapProvider) (m : QHash String MapProvider),
      (∀ p t, templateOf m p = some t → ∃ q ∈ providers, q.urlTemplate = t) →
      (∀ q ∈ ps, q ∈ providers) → ∀ p t,
      templateOf (ps.foldl (fun configured provider =>
        if provider.enabled then configured.insert provider.id provider
        else configured) m) p = some t →
      ∃ q ∈ providers, q.urlTemplate = t := by
    intro ps
    induction ps with
    | nil => exact fun m hm _ => hm
    | cons q ps ih =>
        intro m hm hps
        refine ih _ ?_ fun p hp => hps p (List.mem_cons_of_mem _ hp)
        intro p t ht
        simp only at ht
        split at ht
        · unfold templateOf at ht
          by_cases hsame : p = q.id
          · rw [hsame, AList.lookup_insert] at ht
            exact ⟨q, hps q List.mem_cons_self, Option.some.inj ht⟩
          · rw [AList.lookup_insert_ne hsame] at ht
            exact hm p t ht
        · exact hm p t ht
  refine hfold providers ∅ ?_ (fun q hq => hq) p t h
  intro p t ht
  cases ht

/-- Cancelling before the catalogue changes leaves nothing that was asked
for under the old one: no download, no read of the new generation, no
entry, no selected directory. -/
theorem UpstreamInv.reconfigured (h : UpstreamInv cfg templates asks past s)
    (providers : List MapProvider) (coverage : Coverage)
    (defaultCoverage : String)
    (hknown : ∀ p ∈ providers, p.urlTemplate ∈ templates) :
    UpstreamInv cfg templates asks past (configureProviders providers coverage
      defaultCoverage { s with
        downloads := (Downloads.cancelUpstreamDownloads s.downloads).2 })
    := by
  refine ⟨h.unset, ?_, h.marked, ?_,
    Downloads.scheduled_step (a := .cancel) h.scheduled rfl,
    Downloads.carries_cancel h.downloads, h.writes, h.files, ?_, ?_,
    h.waiting⟩
  · intro p t ht
    obtain ⟨q, hq, rfl⟩ := templateOf_configured ht
    exact hknown q hq
  · intro p dir hdir
    cases hdir
  · intro key data hdata
    cases hdata
  · intro id r hr
    have hunder := h.reads id r hr
    have hle := hunder.generation_le
    refine ⟨Nat.le_succ_of_le hle, hunder.keyed, hunder.named, ?_, ?_⟩
    · intro hgen
      have hgen : r.generation = s.cacheGeneration + 1 := hgen
      omega
    · intro hgen
      have hgen : r.generation = s.cacheGeneration + 1 := hgen
      omega

end AowisMap.Maps
