/-
What the tile store asks upstream for: tiles that its catalogue and its
coverage allow as they are now.

`mayFetch` decides once, when a request comes. Its download may wait in
the queue for long and run for longer, while callbacks, deletions and
other requests go on: all of these leave every download in progress
allowed (`perform_kept`). Two transitions change what is allowed. Behind a
cancellation nothing is in progress that was not told to stop, so a
catalogue that is changed then finds no download that it does not allow
(`fetchInv_reconfigured`).
-/
import AowisMap.Maps.Proofs.Carried

namespace AowisMap.Maps

open Lib

variable {cfg : Config} {s u v : State}

-- =============================================================== allowed

/-- A download that the store allows as it is configured: the tile exists,
its provider is configured and may be asked for it, and the address is the
provider's for that tile. -/
structure Allowed (s : State) (d : QueuedDownload) : Prop where
  valid : d.tilePath.tile.Valid
  canonical : d.canonicalKey = d.tilePath.tile.key
  asked : ∃ source subdomain,
    s.configuredProviders.lookup d.tilePath.dir.provider = some source ∧
    mayFetch source d.tilePath s = true ∧
    d.url = providerUrl source subdomain d.tilePath.zoom d.tilePath.x
      d.tilePath.y

/-- Nothing that decides about downloads changed. -/
structure SamePolicy (s u : State) : Prop where
  remote : u.remoteFetchEnabled = s.remoteFetchEnabled
  providers : u.configuredProviders = s.configuredProviders
  coverage : u.downloadCoverage = s.downloadCoverage
  defaults : u.defaultCoverage = s.defaultCoverage

theorem SamePolicy.refl : SamePolicy s s := ⟨rfl, rfl, rfl, rfl⟩

theorem SamePolicy.trans (h₁ : SamePolicy s u) (h₂ : SamePolicy u v) :
    SamePolicy s v where
  remote := h₂.remote.trans h₁.remote
  providers := h₂.providers.trans h₁.providers
  coverage := h₂.coverage.trans h₁.coverage
  defaults := h₂.defaults.trans h₁.defaults

theorem Allowed.of_same {d : QueuedDownload} (h : Allowed s d)
    (hsame : SamePolicy s u) : Allowed u d := by
  refine ⟨h.valid, h.canonical, ?_⟩
  obtain ⟨source, subdomain, hsource, hmay, hurl⟩ := h.asked
  refine ⟨source, subdomain, ?_, ?_, hurl⟩
  · rw [hsame.providers]
    exact hsource
  · unfold mayFetch at hmay ⊢
    rw [hsame.remote, hsame.coverage, hsame.defaults]
    exact hmay

/-- Every queued download is allowed, and so is every running one that was
not told to cancel. -/
structure FetchInv (cfg : Config) (s : State) : Prop where
  dirs : OwnDirs s.providerCachePaths
  scheduled : Downloads.Scheduled cfg s.downloads
  downloads : Downloads.Carries (Allowed s) (fun _ _ => True) s.downloads

/-- A transition that leaves the policy and the invariant as they are. -/
structure Kept (cfg : Config) (s u : State) : Prop where
  same : SamePolicy s u
  inv : FetchInv cfg u

theorem Kept.refl (h : FetchInv cfg s) : Kept cfg s s := ⟨.refl, h⟩

theorem Kept.trans (h₁ : Kept cfg s u) (h₂ : Kept cfg u v) : Kept cfg s v :=
  ⟨h₁.same.trans h₂.same, h₂.inv⟩

/-- The downloads change, and each in progress is one of before. -/
theorem Kept.of_carries (hsame : SamePolicy s u)
    (hdirs : OwnDirs u.providerCachePaths)
    (hscheduled : Downloads.Scheduled cfg u.downloads)
    (h : Downloads.Carries (Allowed s) (fun _ _ => True) u.downloads) :
    Kept cfg s u :=
  ⟨hsame, hdirs, hscheduled,
    h.mono (fun _ hd => hd.of_same hsame) fun _ _ htrue => htrue⟩

/-- The downloads stay as they are. -/
theorem Kept.still (h : FetchInv cfg s) (hsame : SamePolicy s u)
    (hdirs : OwnDirs u.providerCachePaths)
    (hdownloads : u.downloads = s.downloads) : Kept cfg s u := by
  apply Kept.of_carries hsame hdirs
  · rw [hdownloads]
    exact h.scheduled
  · rw [hdownloads]
    exact h.downloads

/-- What follows a transition and touches neither downloads nor policy, an
answer that is remembered or a signal, keeps what the transition keeps. -/
theorem Kept.then_still (h : Kept cfg s u) (hsame : SamePolicy u v)
    (hdirs : v.providerCachePaths = u.providerCachePaths)
    (hdownloads : v.downloads = u.downloads) : Kept cfg s v := by
  have hown : OwnDirs v.providerCachePaths := by
    rw [hdirs]
    exact h.inv.dirs
  exact h.trans (.still h.inv hsame hown hdownloads)

/-- The directories that were selected on the way do not matter. -/
theorem Kept.of_select {paths : QHash String TileDir}
    {markers : QHash String String}
    (h : Kept cfg { s with
      providerCachePaths := paths, markers := markers } u) :
    Kept cfg s u :=
  ⟨⟨h.same.remote, h.same.providers, h.same.coverage, h.same.defaults⟩,
    h.inv⟩

-- ============================================================== requests

/-- What is handed to the scheduler is allowed. -/
theorem fetchTile_kept (h : FetchInv cfg s) {source : MapProvider}
    (path : TilePath)
    (hsource : s.configuredProviders.lookup path.dir.provider = some source)
    (hvalid : path.tile.Valid) (choice : Choice) (key : String) :
    Kept cfg s (fetchTile cfg choice source path path.tile.key key s).2 := by
  unfold fetchTile
  split
  · rename_i hmay
    apply Kept.of_carries
    · exact ⟨rfl, rfl, rfl, rfl⟩
    · exact h.dirs
    · exact Downloads.scheduled_step (a := .schedule _) h.scheduled rfl
    · apply Downloads.carries_schedule h.scheduled.tables h.scheduled.work
        h.downloads
      · exact ⟨hvalid, rfl, source, choice.subdomain, hsource, hmay, rfl⟩
      · trivial
  · exact .refl h

theorem getColdTile_kept (h : FetchInv cfg s) {source : MapProvider}
    {dir : TileDir} {zoom x y : Int}
    (hsource : s.configuredProviders.lookup dir.provider = some source)
    (hvalid : (Tile.mk dir.provider zoom x y).Valid) (choice : Choice)
    (key : String) :
    Kept cfg s (getColdTile cfg choice dir.provider source zoom x y
      (canonicalTileKey dir.provider zoom x y) key dir s).2 := by
  unfold getColdTile
  dsimp only
  split
  · exact .refl h
  · split
    · exact .still h ⟨rfl, rfl, rfl, rfl⟩ h.dirs rfl
    · split
      · exact .refl h
      · split
        · exact .still h ⟨rfl, rfl, rfl, rfl⟩ h.dirs rfl
        · exact fetchTile_kept h ⟨dir, zoom, x, y⟩ hsource hvalid
            choice key

/-- A column that is wrapped is one of the zoom's. -/
theorem wrapped_valid {provider : String} {z y : Int} (x : Int)
    (hzoom : ¬ (z < 0 ∨ z > 30)) (hrow : ¬ (y < 0 ∨ y ≥ tileCount z)) :
    (Tile.mk provider z (positiveModulo x (tileCount z)) y).Valid := by
  have hpos := tileCount_pos z
  obtain ⟨hlow, hhigh⟩ := not_or.1 hzoom
  obtain ⟨hnorth, hsouth⟩ := not_or.1 hrow
  refine ⟨not_lt.1 hlow, not_lt.1 hhigh, ?_, ?_, not_lt.1 hnorth,
    not_le.1 hsouth⟩
  · show 0 ≤ positiveModulo x (tileCount z)
    rw [positiveModulo_eq x hpos]
    exact Int.emod_nonneg x (Int.ne_of_gt hpos)
  · show positiveModulo x (tileCount z) < tileCount z
    rw [positiveModulo_eq x hpos]
    exact Int.emod_lt_of_pos x hpos

theorem getTile_kept (h : FetchInv cfg s) (choice : Choice)
    (provider : String) (z x y : Int) (key : String) :
    Kept cfg s (getTile cfg choice provider z x y key s).2 := by
  unfold getTile
  split
  · exact .refl h
  · rename_i source hsource
    split
    · exact .refl h
    · rename_i hzoom
      dsimp only
      split
      · exact .refl h
      · rename_i hrow
        split
        · exact .refl h
        · obtain ⟨paths, markers, hown, hsel, hdir⟩ :=
            providerCachePath_spec cfg choice provider h.dirs
          rw [hsel]
          have hselected : Kept cfg s { s with
              providerCachePaths := paths, markers := markers } :=
            .still h ⟨rfl, rfl, rfl, rfl⟩ hown rfl
          split
          · exact hselected
          · rename_i dir hsome
            have hprovider := hdir dir hsome
            subst hprovider
            have hcold := getColdTile_kept hselected.inv hsource
              (wrapped_valid x hzoom hrow) choice key
            exact hcold.of_select

/-- A read that is scheduled or joined touches no download. -/
theorem scheduleRead_kept (h : FetchInv cfg s) (read : CacheRead)
    (key : String) : Kept cfg s (scheduleRead read key s).2 := by
  unfold scheduleRead
  split
  · exact .still h ⟨rfl, rfl, rfl, rfl⟩ h.dirs rfl
  · split
    · exact .refl h
    · split
      · exact .refl h
      · exact .still h ⟨rfl, rfl, rfl, rfl⟩ h.dirs rfl

theorem getTileForHttp_kept (h : FetchInv cfg s) (choice : Choice)
    (provider : String) (z x y : Int) (key : String) :
    Kept cfg s (getTileForHttp cfg choice provider z x y key s).2 := by
  unfold getTileForHttp
  split
  · exact .refl h
  · split
    · exact .refl h
    · dsimp only
      split
      · exact .refl h
      · unfold getColdTileForHttp
        dsimp only
        split
        · exact scheduleRead_kept h _ key
        · split
          · exact .refl h
          · obtain ⟨paths, markers, hown, hsel, -⟩ :=
              providerCachePath_spec cfg choice provider h.dirs
            rw [hsel]
            have hselected : Kept cfg s { s with
                providerCachePaths := paths, markers := markers } :=
              .still h ⟨rfl, rfl, rfl, rfl⟩ hown rfl
            split
            · exact (getTile_kept hselected.inv choice provider z x y
                key).of_select
            · split
              · exact (scheduleRead_kept hselected.inv _ key).of_select
              · exact (getTile_kept hselected.inv choice provider z x y
                  key).of_select

theorem Kept.answered {key : String} {r : TileRequestResult × State}
    (h : Kept cfg s r.2) : Kept cfg s (answered key r) := by
  unfold Maps.answered
  split
  · exact h.then_still ⟨rfl, rfl, rfl, rfl⟩ rfl rfl
  · exact h

/-- The requesters of a read that found nothing ask again, under the
policy of that moment. -/
theorem retryReads_kept (r : CacheRead)
    (requesters : List (String × Choice)) (h : FetchInv cfg s) :
    Kept cfg s (requesters.foldl (retryRead cfg r) s) := by
  induction requesters generalizing s with
  | nil => exact .refl h
  | cons requester requesters ih =>
      have hasked : Kept cfg s (retryRead cfg r s requester) := by
        have hgot := getTile_kept h requester.2 r.provider r.zoom
          r.wrappedX r.y requester.1
        have hemit : ∀ signal, Kept cfg s (emit signal
            (getTile cfg requester.2 r.provider r.zoom r.wrappedX r.y
              requester.1 s).2) := fun signal =>
          hgot.then_still ⟨rfl, rfl, rfl, rfl⟩ rfl rfl
        unfold retryRead
        dsimp only
        split
        · exact hemit _
        · exact hemit _
        · exact hemit _
        · exact hgot
      exact hasked.trans (ih hasked.inv)

-- =========================================================== transitions

/-- The end of a client starts downloads of the queue. -/
theorem ended_kept (h : FetchInv cfg s) {client : ClientId}
    {ended : Downloads.Ended}
    (hended : Downloads.clientEnds cfg client s.downloads = some ended) :
    Kept cfg s { s with
      downloads := Downloads.startQueuedDownloads cfg ended.downloads } := by
  obtain ⟨-, -, -, hcarries⟩ :=
    Downloads.carries_clientEnds h.downloads hended
  have htables := Downloads.schedulerInv_clientEnds h.scheduled.tables hended
  apply Kept.of_carries
  · exact ⟨rfl, rfl, rfl, rfl⟩
  · exact h.dirs
  · apply Downloads.scheduled_step (a := .ended client) h.scheduled
    show (Downloads.clientEnds cfg client s.downloads).map _ = _
    rw [hended]
    rfl
  · exact Downloads.carries_startQueued htables hcarries

/-- A deletion invalidates downloads and changes none. -/
theorem deleteTiles_kept (h : FetchInv cfg s) (choice : Choice)
    (range : TileRange) (refuses : TilePath → Bool) :
    Kept cfg s (deleteTiles cfg choice range refuses s).2 := by
  have hsimulated :=
    deleteTiles_simulated cfg choice range refuses h.dirs
  have hscheduled := hsimulated.scheduled h.scheduled
  obtain ⟨paths, markers, hown, ⟨-, heq⟩ | ⟨dir, -, -, heq⟩⟩ :=
    deleteTiles_cases cfg choice range refuses h.dirs
  · rw [heq]
    exact .still h ⟨rfl, rfl, rfl, rfl⟩ hown rfl
  · rw [heq] at hscheduled ⊢
    have hcovered : Downloads.Carries (Allowed s) (fun _ _ => True)
        (Downloads.invalidateCovered range.coversKey
          s.cacheWritesPendingKeys s.downloads) :=
      h.downloads.of_frame (fun _ hd => hd) rfl rfl fun _ _ hk => hk
    rcases deleteFrom_cases range refuses dir
      { s with providerCachePaths := paths, markers := markers }
      with ⟨heq, -⟩ | ⟨u, ⟨⟨files, keys, rfl⟩, -, -⟩, heq | ⟨count, heq, -⟩⟩
    · rw [heq]
      exact .still h ⟨rfl, rfl, rfl, rfl⟩ hown rfl
    · rw [heq] at hscheduled ⊢
      exact .of_carries ⟨rfl, rfl, rfl, rfl⟩ hown hscheduled hcovered
    · rw [heq] at hscheduled ⊢
      exact .of_carries ⟨rfl, rfl, rfl, rfl⟩ hown hscheduled hcovered

/-- The two transitions that change what is allowed. -/
def Action.changesPolicy : Action → Bool
  | .configureProviders _ _ _ | .setRemoteFetchEnabled _ => true
  | _ => false

/-- Every other transition keeps what is in progress allowed. -/
theorem perform_kept {a : Action} (h : FetchInv cfg s)
    (hpolicy : a.changesPolicy = false) (hstep : perform cfg a s = some u) :
    Kept cfg s u := by
  cases a with
  | getTile choice provider z x y key =>
      cases hstep
      exact (getTile_kept h choice provider z x y key).answered
  | getTileForHttp choice provider z x y key =>
      cases hstep
      exact (getTileForHttp_kept h choice provider z x y key).answered
  | requestFinished client bytes mayStore =>
      obtain ⟨ended, hended, rfl | ⟨-, rfl⟩⟩ := requestFinished_inv hstep
      · have hkept := ended_kept h hended
        rw [emitReady_eq]
        exact hkept.then_still ⟨rfl, rfl, rfl, rfl⟩ rfl rfl
      · have hkept := ended_kept h hended
        exact hkept.then_still ⟨rfl, rfl, rfl, rfl⟩ rfl rfl
  | requestError client reason =>
      obtain ⟨ended, hended, rfl⟩ := requestError_inv hstep
      have hkept := ended_kept h hended
      rw [emitFailed_eq]
      exact hkept.then_still ⟨rfl, rfl, rfl, rfl⟩ rfl rfl
  | writeRuns write saved =>
      obtain ⟨w, -, -, ⟨result, rfl⟩ | ⟨-, rfl⟩⟩ := writeRuns_inv hstep
      · exact .still h ⟨rfl, rfl, rfl, rfl⟩ h.dirs rfl
      · exact .still h ⟨rfl, rfl, rfl, rfl⟩ h.dirs rfl
  | writeFinished write =>
      have hscheduled :=
        (perform_simulated h.dirs hstep).scheduled h.scheduled
      obtain ⟨w, -, -, rfl⟩ := writeFinished_inv hstep
      rw [emitReady_eq] at hscheduled ⊢
      have hcarries : Downloads.Carries (Allowed s) (fun _ _ => True)
          (Downloads.forgetInvalidation w.download.canonicalKey
            s.downloads) :=
        h.downloads.of_frame (fun _ hd => hd) rfl rfl fun _ _ hk => hk
      exact .of_carries ⟨rfl, rfl, rfl, rfl⟩ h.dirs hscheduled hcarries
  | readRuns read =>
      obtain ⟨r, data, -, -, -, rfl⟩ := readRuns_inv hstep
      exact .still h ⟨rfl, rfl, rfl, rfl⟩ h.dirs rfl
  | readFinished read choices =>
      obtain ⟨r, data, -, -, ⟨-, -, keys, rfl⟩ | rfl | ⟨requesters, -, rfl⟩⟩
        := readFinished_inv hstep
      · rw [emitReady_eq]
        exact .still h ⟨rfl, rfl, rfl, rfl⟩ h.dirs rfl
      · rw [emitFailed_eq]
        exact .still h ⟨rfl, rfl, rfl, rfl⟩ h.dirs rfl
      · have hforgotten : Kept cfg s (forgetRead read r s) :=
          .still h ⟨rfl, rfl, rfl, rfl⟩ h.dirs rfl
        exact hforgotten.trans (retryReads_kept r requesters hforgotten.inv)
  | deleteTiles choice range refuses =>
      cases hstep
      exact deleteTiles_kept h choice range refuses
  | cancelUpstreamDownloads =>
      have hscheduled :=
        (perform_simulated h.dirs hstep).scheduled h.scheduled
      cases hstep
      unfold cancelUpstreamDownloads at hscheduled ⊢
      rw [emitFailed_eq] at hscheduled ⊢
      have hcarries : Downloads.Carries (Allowed s) (fun _ _ => True)
          (Downloads.cancelUpstreamDownloads s.downloads).2 :=
        Downloads.carries_cancel h.downloads
      exact .of_carries ⟨rfl, rfl, rfl, rfl⟩ h.dirs hscheduled hcarries
  | configureProviders providers coverage defaultCoverage => cases hpolicy
  | setPermanentDataDirectory directory =>
      cases hstep
      exact .still h ⟨rfl, rfl, rfl, rfl⟩ h.dirs rfl
  | setRemoteFetchEnabled enabled => cases hpolicy
  | evict key =>
      cases hstep
      exact .still h ⟨rfl, rfl, rfl, rfl⟩ h.dirs rfl
  | outsideChange path outside =>
      cases hstep
      exact .still h ⟨rfl, rfl, rfl, rfl⟩ h.dirs rfl

/-- The store's transition function starts from an empty outbox. -/
theorem apply_kept {a : Action} (h : FetchInv cfg s)
    (hpolicy : a.changesPolicy = false) (hstep : apply cfg a s = some u) :
    Kept cfg s u := by
  have hempty : Kept cfg s { s with outbox := [] } :=
    .still h ⟨rfl, rfl, rfl, rfl⟩ h.dirs rfl
  exact hempty.trans (perform_kept hempty.inv hpolicy hstep)

-- ========================================================= configuration

/-- Behind a cancellation any policy may follow. -/
theorem fetchInv_reconfigured (h : FetchInv cfg s)
    (hcancel : apply cfg .cancelUpstreamDownloads s = some u)
    {providers : List MapProvider} {coverage : Coverage}
    {defaultCoverage : String}
    (hconfigure : apply cfg
      (.configureProviders providers coverage defaultCoverage) u = some v) :
    FetchInv cfg v ∧ v.remoteFetchEnabled = s.remoteFetchEnabled ∧
      v.downloadCoverage = coverage ∧
      v.defaultCoverage = defaultCoverage := by
  have hkept := apply_kept h rfl hcancel
  cases hcancel
  cases hconfigure
  refine ⟨⟨ownDirs_empty, hkept.inv.scheduled, ?_⟩, hkept.same.remote, rfl,
    rfl⟩
  show Downloads.Carries _ _ (cancelUpstreamDownloads _).downloads
  unfold cancelUpstreamDownloads
  rw [emitFailed_eq]
  exact Downloads.carries_cancel h.downloads

/-- A store without downloads. -/
theorem fetchInv_idle (hdirs : OwnDirs s.providerCachePaths)
    (hidle : s.downloads = Downloads.init) : FetchInv cfg s := by
  refine ⟨hdirs, ?_, ?_⟩
  · rw [hidle]
    exact Downloads.scheduled_reachable .refl
  · rw [hidle]
    exact Downloads.carries_init

end AowisMap.Maps
