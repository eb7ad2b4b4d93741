/-
What the server asks upstream for, over provider catalogues that change.

A download is checked against the catalogue and the coverage when it is
asked for; it is sent when the scheduler has room for it, which may be
many requests, callbacks and catalogues later. `fetches_permitted`: in
whatever order these come, every download that is queued, and every one
that runs and was not told to cancel, is permitted by the catalogue the
server was given last and by the coverage it was configured with.

A PUT cancels before it configures. That is what the result rests on: the
transitions between two PUTs keep what is in progress allowed
(Maps/Proofs/FetchPolicy.lean), and behind the cancellation nothing is.
-/
import AowisMap.Maps.Proofs.FetchPolicy
import AowisMap.Server.Proofs.Tiles
import AowisMap.Server.Watch

namespace AowisMap.Server.TileEndpoint

open Lib Maps

variable {cfg : TileConfig} {catalogue : List MapProvider} {s u : State}

-- ============================================================ statements

/-- The constructor and the PUT are the only callers of
`configureProviders`, and the constructor is that of
`setRemoteFetchEnabled`. -/
def Exchange.leavesPolicy : Exchange → Prop
  | .event a => a.changesPolicy = false
  | _ => True

/-- The server, and the catalogue it was given last. -/
def governed (cfg : TileConfig) (a : Exchange)
    (r : List MapProvider × State) : Option (List MapProvider × State) :=
  (a.serve cfg r.2).map fun s =>
    match a with
    | .put providers => (providers, s)
    | _ => (r.1, s)

/-- A download that is queued, or runs and was not told to cancel. -/
def InProgress (downloads : Downloads) (d : QueuedDownload) : Prop :=
  d ∈ downloads.queued ∨ ∃ id c, downloads.clients.lookup id = some c ∧
    c.cancelRequested = false ∧ c.download = d

/-- What a catalogue and the configuration permit: a tile that exists, of
an enabled provider with remote fetching and that zoom, within the
provider's coverage or else the server's, from the provider's address. -/
structure Permitted (cfg : TileConfig) (catalogue : List MapProvider)
    (d : QueuedDownload) : Prop where
  valid : d.tilePath.tile.Valid
  remote : cfg.mapRemoteFetchEnabled = true
  provider : ∃ source ∈ catalogue,
    source.id = d.tilePath.dir.provider ∧ source.enabled = true ∧
    source.remoteFetchEnabled = true ∧
    source.minimumZoom ≤ d.tilePath.zoom ∧
    d.tilePath.zoom ≤ source.maximumZoom ∧
    cfg.downloadCoverage.permitsTile
      (if source.coverage = "" then cfg.mapCoverage else source.coverage)
      d.tilePath.zoom d.tilePath.x d.tilePath.y = true ∧
    ∃ subdomain, d.url = providerUrl source subdomain d.tilePath.zoom
      d.tilePath.x d.tilePath.y

-- ============================================================= catalogue

/-- The configured providers are the enabled ones of a catalogue, under
their ids. -/
def Offers (catalogue : List MapProvider)
    (configured : QHash String MapProvider) : Prop :=
  ∀ provider source, configured.lookup provider = some source →
    source ∈ catalogue ∧ source.id = provider ∧ source.enabled = true

/-- An enabled provider of the catalogue replaces the one under its id. -/
theorem Offers.insert {configured : QHash String MapProvider}
    {provider : MapProvider} (h : Offers catalogue configured)
    (hmem : provider ∈ catalogue) (henabled : provider.enabled = true) :
    Offers catalogue (configured.insert provider.id provider) := by
  intro id source hsource
  by_cases hsame : id = provider.id
  · rw [hsame, AList.lookup_insert] at hsource
    cases hsource
    exact ⟨hmem, hsame.symm, henabled⟩
  · rw [AList.lookup_insert_ne hsame] at hsource
    exact h id source hsource

/-- The loop of `configureProviders`, over any part of the catalogue. -/
theorem Offers.foldl {configured : QHash String MapProvider}
    {providers : List MapProvider} (h : Offers catalogue configured)
    (hmem : ∀ provider ∈ providers, provider ∈ catalogue) :
    Offers catalogue (providers.foldl (fun configured provider =>
      if provider.enabled then configured.insert provider.id provider
      else configured) configured) := by
  induction providers generalizing configured with
  | nil => exact h
  | cons provider providers ih =>
      rw [List.foldl_cons]
      apply ih
      · split
        · rename_i henabled
          exact h.insert (hmem provider List.mem_cons_self) henabled
        · exact h
      · intro other hother
        exact hmem other (List.mem_cons_of_mem _ hother)

theorem offers_configured (providers : List MapProvider)
    (coverage : Coverage) (defaultCoverage : String) (s : Maps.State) :
    Offers providers (configureProviders providers coverage defaultCoverage
      s).configuredProviders := by
  have hempty : Offers providers ∅ := by
    intro provider source hnone
    cases hnone
  apply hempty.foldl
  intro provider hprovider
  exact hprovider

-- ============================================================= invariant

/-- The store is configured as the server is, and what is in progress is
allowed. -/
structure GovernedInv (cfg : TileConfig) (catalogue : List MapProvider)
    (s : State) : Prop where
  store : FetchInv cfg.store s.maptiles
  offers : Offers catalogue s.maptiles.configuredProviders
  remote : s.maptiles.remoteFetchEnabled = cfg.mapRemoteFetchEnabled
  coverage : s.maptiles.downloadCoverage = cfg.downloadCoverage
  defaults : s.maptiles.defaultCoverage = cfg.mapCoverage

theorem governedInv_init (files : QHash TilePath OutsideFile)
    (markers : QHash String String) :
    GovernedInv cfg cfg.mapProviders (State.init cfg files markers) where
  store := fetchInv_idle ownDirs_empty rfl
  offers := offers_configured _ _ _ _
  remote := rfl
  coverage := rfl
  defaults := rfl

/-- The store changes under the same policy. -/
theorem GovernedInv.kept (h : GovernedInv cfg catalogue s)
    (hkept : Kept cfg.store s.maptiles u.maptiles) :
    GovernedInv cfg catalogue u where
  store := hkept.inv
  offers := by
    rw [hkept.same.providers]
    exact h.offers
  remote := hkept.same.remote.trans h.remote
  coverage := hkept.same.coverage.trans h.coverage
  defaults := hkept.same.defaults.trans h.defaults

/-- A transition of the store, and its signals. -/
theorem store_step {a : Maps.Action} (h : apply cfg (.store a) s = some u) :
    ∃ maptiles, Maps.apply cfg.store a s.maptiles = some maptiles ∧
      deliver { s with maptiles := maptiles } = u :=
  Option.map_eq_some_iff.1 h

/-- A PUT puts its own catalogue in force. -/
theorem governedInv_put (h : GovernedInv cfg catalogue s)
    {providers : List MapProvider}
    (hstep : putProviders cfg providers s = some u) :
    GovernedInv cfg providers u := by
  obtain ⟨v, hcancel, hconfigure⟩ := Option.bind_eq_some_iff.1 hstep
  obtain ⟨cancelled, hcancelled, rfl⟩ := store_step hcancel
  obtain ⟨configured, hconfigured, rfl⟩ := store_step hconfigure
  rw [deliver_maptiles] at hconfigured
  obtain ⟨hinv, hremote, hcoverage, hdefaults⟩ :=
    fetchInv_reconfigured h.store hcancelled hconfigured
  have hoffers : Offers providers configured.configuredProviders := by
    cases hconfigured
    exact offers_configured _ _ _ _
  constructor
  · rw [deliver_maptiles]
    exact hinv
  · rw [deliver_maptiles]
    exact hoffers
  · rw [deliver_maptiles]
    exact hremote.trans h.remote
  · rw [deliver_maptiles]
    exact hcoverage
  · rw [deliver_maptiles]
    exact hdefaults

theorem governedInv_step {a : Exchange} {r r' : List MapProvider × State}
    (h : GovernedInv cfg r.1 r.2) (hpolicy : a.leavesPolicy)
    (hstep : governed cfg a r = some r') : GovernedInv cfg r'.1 r'.2 := by
  obtain ⟨s, hserve, rfl⟩ := Option.map_eq_some_iff.1 hstep
  cases a with
  | get choice request =>
      cases hserve
      show GovernedInv cfg r.1 (getTile cfg choice request r.2).2
      apply h.kept
      rcases getTile_store choice request r.2 with heq | heq
      · rw [heq]
        exact .refl h.store
      · exact apply_kept h.store rfl heq
  | put providers => exact governedInv_put h hserve
  | event a =>
      obtain ⟨maptiles, hmaptiles, rfl⟩ := store_step hserve
      apply h.kept
      rw [deliver_maptiles]
      exact apply_kept h.store hpolicy hmaptiles

/-- What the store allows, the catalogue in force permits. -/
theorem GovernedInv.permitted (h : GovernedInv cfg catalogue s)
    {d : QueuedDownload} (hallowed : Allowed s.maptiles d) :
    Permitted cfg catalogue d := by
  obtain ⟨source, subdomain, hsource, hmay, hurl⟩ := hallowed.asked
  obtain ⟨hmem, hid, henabled⟩ := h.offers _ source hsource
  unfold mayFetch at hmay
  simp only [Bool.and_eq_true, decide_eq_true_eq] at hmay
  obtain ⟨⟨⟨⟨hserver, hprovider⟩, hleast⟩, hmost⟩, hcovered⟩ := hmay
  rw [h.remote] at hserver
  rw [h.coverage, h.defaults] at hcovered
  exact ⟨hallowed.valid, hserver, source, hmem, hid, henabled, hprovider,
    hleast, hmost, hcovered, subdomain, hurl⟩

theorem GovernedInv.inProgress (h : GovernedInv cfg catalogue s)
    {d : QueuedDownload} (hprogress : InProgress s.maptiles.downloads d) :
    Permitted cfg catalogue d := by
  rcases hprogress with hqueued | ⟨id, c, hc, hlive, rfl⟩
  · exact h.permitted (h.store.downloads.queued d hqueued)
  · exact h.permitted (h.store.downloads.running id c hc hlive)

theorem governedInv_reachable {files : QHash TilePath OutsideFile}
    {markers : QHash String String}
    (hrun : Run (governed cfg) (fun a _ => a.leavesPolicy)
      (cfg.mapProviders, State.init cfg files markers) (catalogue, s)) :
    GovernedInv cfg catalogue s := by
  apply hrun.invariant (P := fun r => GovernedInv cfg r.1 r.2)
  · exact governedInv_init files markers
  · intro a r₁ r₂ h hpolicy hstep
    exact governedInv_step h hpolicy hstep

/-- **Nothing is asked upstream that the catalogue in force and the
coverage do not permit.** From any files on disk, in any order of tile
requests, catalogues that are put, and callbacks, workers, deletions and
cancellations of the store: every download that is queued, or runs without
having been told to cancel, is permitted by the last catalogue. -/
theorem fetches_permitted {files : QHash TilePath OutsideFile}
    {markers : QHash String String}
    (hrun : Run (governed cfg) (fun a _ => a.leavesPolicy)
      (cfg.mapProviders, State.init cfg files markers) (catalogue, s))
    {d : QueuedDownload} (hprogress : InProgress s.maptiles.downloads d) :
    Permitted cfg catalogue d :=
  (governedInv_reachable hrun).inProgress hprogress

-- ================================================================== runs

/-- OpenStreetMap tiles at another address. -/
def movedCatalogue : List MapProvider :=
  [ { id := openStreetMap
      urlTemplate := "https://maps.example.org/{z}/{x}/{y}.png" } ]

/-- Three tiles are asked for, the last of which waits for room, and a PUT
moves the provider. A cancelled download ends, and two more tiles are
asked for: again the last one waits. -/
def movedProvider : List Exchange :=
  let tile (x : Int) : TileGet :=
    { provider := openStreetMap, z := 3, x := x, y := 0 }
  [ .get {} (tile 0), .get {} (tile 1), .get {} (tile 2),
    .put movedCatalogue, .event (.requestError 0 .cancelled),
    .get {} (tile 3), .get {} (tile 4) ]

/-- What waits in the end goes to the new address. -/
theorem fetches_permitted_moved :
    ∃ s, Run (governed smallServer) (fun a _ => a.leavesPolicy)
        (smallServer.mapProviders, State.init smallServer ∅ ∅)
        (movedCatalogue, s) ∧
      s.maptiles.downloads.queued.map (·.url)
        = ["https://maps.example.org/3/4/0.png"] ∧
      ∀ d, InProgress s.maptiles.downloads d →
        Permitted smallServer movedCatalogue d := by
  have hrun : (runActions (governed smallServer) movedProvider
      (smallServer.mapProviders, State.init smallServer ∅ ∅)).map
        (fun r => (r.1, r.2.maptiles.downloads.queued.map (·.url)))
      = some (movedCatalogue, ["https://maps.example.org/3/4/0.png"]) := by
    decide +kernel
  obtain ⟨⟨catalogue, s⟩, hs, hval⟩ := Option.map_eq_some_iff.1 hrun
  obtain ⟨rfl, hqueued⟩ := Prod.mk.inj hval
  have hpolicy : ∀ a ∈ movedProvider, a.leavesPolicy := by
    intro a ha
    simp only [movedProvider, List.mem_cons, List.not_mem_nil, or_false]
      at ha
    rcases ha with rfl | rfl | rfl | rfl | rfl | rfl | rfl
    · trivial
    · trivial
    · trivial
    · trivial
    · rfl
    · trivial
    · trivial
  have hgoverned : Run (governed smallServer) (fun a _ => a.leavesPolicy)
      (smallServer.mapProviders, State.init smallServer ∅ ∅)
      (movedCatalogue, s) :=
    run_of_admitted hs fun a ha _ => hpolicy a ha
  refine ⟨s, hgoverned, hqueued, ?_⟩
  intro d hprogress
  exact fetches_permitted hgoverned hprogress

end AowisMap.Server.TileEndpoint
