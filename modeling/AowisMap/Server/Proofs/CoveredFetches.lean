/-
From the regions of the configuration to the requests that are sent: what
is in progress upstream is a tile next to a part of the globe that the
coverage of its provider names for the zoom.

The two halves are the catalogue in force (Proofs/FetchPolicy.lean), which
says that `permitsTile` let every such tile pass, and the geometry of
`permitsTile` (Proofs/TileCoverage.lean).
-/
import AowisMap.Server.Proofs.FetchPolicy
import AowisMap.Server.Proofs.TileCoverage

namespace AowisMap.Server.TileEndpoint

open Lib Maps

variable {cfg : TileConfig} {catalogue : List MapProvider} {s : State}

/-- The coverage a provider's tiles are checked against. -/
def policyOf (cfg : TileConfig) (source : MapProvider) : String :=
  if source.coverage = "" then cfg.mapCoverage else source.coverage

/-- **Upstream requests keep to the regions of the configuration.** The
server's coverage was put together from rectangles, GeoJSON collections and
profiles. In whatever order requests, catalogues, callbacks and deletions
come: every download that is queued, or runs without having been told to
cancel, is of a provider of the last catalogue, and its tile has a place of
a part that the provider's coverage names for the zoom, or is next to one;
a provider without a coverage has no bounds. -/
theorem fetches_covered {latitude : Int → Int → Rat}
    {coverage : DownloadCoverage} {files : QHash TilePath OutsideFile}
    {markers : QHash String String}
    (hloaded : Run coverageNext (fun a _ => a.ringsClosed) {} coverage)
    (hrows : ∀ zoom row, latitude zoom (row + 1) ≤ latitude zoom row)
    (hcoverage : cfg.downloadCoverage = coverage.forStore latitude)
    (hrun : Run (governed cfg) (fun a _ => a.leavesPolicy)
      (cfg.mapProviders, State.init cfg files markers) (catalogue, s))
    {d : QueuedDownload} (hprogress : InProgress s.maptiles.downloads d) :
    ∃ source ∈ catalogue, source.id = d.tilePath.dir.provider ∧
      (policyOf cfg source = "" ∨
        ∃ part, coverage.Names (policyOf cfg source).toList d.tilePath.zoom
            part ∧
          part.Near (xyzBounds latitude d.tilePath.zoom d.tilePath.x
            d.tilePath.y)) := by
  have hpermitted := (governedInv_reachable hrun).inProgress hprogress
  obtain ⟨source, hmem, hid, -, -, -, -, hcovered, -⟩ := hpermitted.provider
  refine ⟨source, hmem, hid, ?_⟩
  by_cases hpolicy : policyOf cfg source = ""
  · exact Or.inl hpolicy
  · right
    have hname : (policyOf cfg source).toList ≠ [] := by
      intro hempty
      exact hpolicy (String.toList_eq_nil_iff.1 hempty)
    rw [hcoverage] at hcovered
    have hinv := coverageInv_loaded hloaded
    obtain ⟨part, hnames, hnear⟩ :=
      near_of_permitted hinv hname hrows hcovered
    refine ⟨part, hnames, ?_⟩
    -- a column of the tile's zoom is not wrapped any further
    have hvalid := hpermitted.valid
    have hcolumn : d.tilePath.x % tileCount d.tilePath.zoom
        = d.tilePath.x := Int.emod_eq_of_lt hvalid.x_nonneg hvalid.x_lt
    rw [hcolumn] at hnear
    exact hnear

/-- What the actions load. -/
def coastCoverage : DownloadCoverage :=
  (runActions coverageNext coastActions {}).getD {}

/-- A server whose map tiles are those of the square; rows are a degree
high. -/
def coastServer : TileConfig :=
  { smallServer with
    downloadCoverage := coastCoverage.forStore fun _ row => 85 - row
    mapCoverage := "coast" }

/-- One tile of the square is asked for, and one far away from it. -/
def coastRequests : List Exchange :=
  [ .get {} { provider := openStreetMap, z := 9, x := 768, y := 82 },
    .get {} { provider := openStreetMap, z := 9, x := 0, y := 82 } ]

/-- The square is loaded, and of the two tiles one is fetched. Rows are
again one degree high, in place of those of the Mercator map. -/
theorem fetches_covered_coast :
    ∃ s, Run (governed coastServer) (fun a _ => a.leavesPolicy)
        (coastServer.mapProviders, State.init coastServer ∅ ∅)
        (coastServer.mapProviders, s) ∧
      s.maptiles.downloads.clients.entries.map
        (fun c => c.2.download.tilePath.x) = [256] ∧
      ∀ d, InProgress s.maptiles.downloads d →
        ∃ source ∈ coastServer.mapProviders,
          source.id = d.tilePath.dir.provider ∧
          (policyOf coastServer source = "" ∨
            ∃ part, coastCoverage.Names (policyOf coastServer source).toList
                d.tilePath.zoom part ∧
              part.Near (xyzBounds (fun _ row => 85 - row) d.tilePath.zoom
                d.tilePath.x d.tilePath.y)) := by
  have hloads : (runActions coverageNext coastActions {}).isSome = true := by
    decide +kernel
  have hcoverage : runActions coverageNext coastActions {}
      = some coastCoverage := by
    obtain ⟨loaded, hloaded⟩ := Option.isSome_iff_exists.1 hloads
    unfold coastCoverage
    rw [hloaded]
    rfl
  have hloaded : Run coverageNext (fun a _ => a.ringsClosed) {}
      coastCoverage :=
    run_of_admitted hcoverage fun a ha _ => coastActions_closed a ha
  have hrun : (runActions (governed coastServer) coastRequests
      (coastServer.mapProviders, State.init coastServer ∅ ∅)).map
        (fun r => (r.1, r.2.maptiles.downloads.clients.entries.map
          fun c => c.2.download.tilePath.x))
      = some (coastServer.mapProviders, [256]) := by
    decide +kernel
  obtain ⟨⟨catalogue, s⟩, hs, hval⟩ := Option.map_eq_some_iff.1 hrun
  obtain ⟨rfl, hclients⟩ := Prod.mk.inj hval
  have hgoverned : Run (governed coastServer) (fun a _ => a.leavesPolicy)
      (coastServer.mapProviders, State.init coastServer ∅ ∅)
      (coastServer.mapProviders, s) := by
    apply run_of_admitted hs
    intro a ha _
    simp only [coastRequests, List.mem_cons, List.not_mem_nil, or_false]
      at ha
    rcases ha with rfl | rfl
    · trivial
    · trivial
  refine ⟨s, hgoverned, hclients, ?_⟩
  intro d hprogress
  apply fetches_covered hloaded _ rfl hgoverned hprogress
  intro zoom row
  push_cast
  linarith

end AowisMap.Server.TileEndpoint
