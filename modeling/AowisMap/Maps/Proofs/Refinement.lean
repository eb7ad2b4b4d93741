/-
The tile store's downloads are the scheduler's machine: each transition
of the store is a run of scheduler transitions (`apply_downloads`), most
of them empty or of one step, so every run of the store is a run of the
scheduler and has its invariant.

The result about the scheduler that callers may rely on closes the file:
exact counts, bounds, work conservation and first come, first served per
origin, in every reachable state of the store.
-/
import AowisMap.Maps.Proofs.Steps

namespace AowisMap.Maps

open Lib

variable {cfg : Config}

-- =========================================================== simulation

/-- What one transition of the store may do to the downloads and the
selected directories. -/
structure Simulated (cfg : Config) (s u : State) : Prop where
  dirs : OwnDirs u.providerCachePaths
  path : Run (Downloads.next cfg) anyStep s.downloads u.downloads

theorem Simulated.trans {s u v : State} (h₁ : Simulated cfg s u)
    (h₂ : Simulated cfg u v) : Simulated cfg s v :=
  ⟨h₂.dirs, h₁.path.trans h₂.path⟩

/-- A transition that leaves the downloads alone. -/
theorem Simulated.still {s u : State} (hdirs : OwnDirs u.providerCachePaths)
    (heq : u.downloads = s.downloads) : Simulated cfg s u := by
  refine ⟨hdirs, ?_⟩
  rw [heq]
  exact .refl

/-- Only the downloads of the first state matter. -/
theorem Simulated.of_downloads {s u v : State} (h : Simulated cfg v u)
    (heq : v.downloads = s.downloads) : Simulated cfg s u := by
  refine ⟨h.dirs, ?_⟩
  rw [← heq]
  exact h.path

/-- A transition that is one of the scheduler's. -/
theorem Simulated.one {s u : State} (hdirs : OwnDirs u.providerCachePaths)
    (a : Downloads.Action)
    (hnext : Downloads.next cfg a s.downloads = some u.downloads) :
    Simulated cfg s u :=
  ⟨hdirs, .single trivial hnext⟩

/-- Signals and answers touch no download. -/
theorem Simulated.emitted {s u : State} (h : Simulated cfg s u)
    (signals : List Signal) : Simulated cfg s (emitAll signals u) :=
  ⟨h.dirs, h.path⟩

theorem Simulated.answered {s : State} {key : String}
    {r : TileRequestResult × State} (h : Simulated cfg s r.2) :
    Simulated cfg s (answered key r) := by
  unfold Maps.answered
  split
  · exact ⟨h.dirs, h.path⟩
  · exact h

/-- A request is a `schedule` of the scheduler, or nothing. -/
theorem Requested.simulated {key : String} {s u : State}
    {r : TileRequestResult} (h : Requested cfg key s r u) :
    Simulated cfg s u := by
  cases h with
  | quiet r paths markers hown hr => exact .still hown rfl
  | loaded path data paths markers keys hown hread => exact .still hown rfl
  | scheduled d paths markers hown hkey hcanon hvalid =>
      exact .one hown (.schedule d) rfl
  | joined readKey keys paths markers hown hk => exact .still hown rfl
  | reading read paths markers hown hnone hgen hres hcanon =>
      exact .still hown rfl

/-- The fallbacks of a read are `schedule`s of the scheduler. -/
theorem retryReads_simulated (r : CacheRead)
    (requesters : List (String × Choice)) {s : State}
    (hdirs : OwnDirs s.providerCachePaths) :
    Simulated cfg s (requesters.foldl (retryRead cfg r) s) := by
  induction requesters generalizing s with
  | nil => exact .still hdirs rfl
  | cons requester requesters ih =>
      have hone : Simulated cfg s (retryRead cfg r s requester) := by
        obtain ⟨answer, u, hreq, hrest⟩ :=
          retryRead_requested hdirs cfg r requester
        have hsim := hreq.simulated
        rcases hrest with ⟨-, heq⟩ | ⟨-, signal, -, heq⟩
        · rw [heq]
          exact hsim
        · rw [heq, emit_eq]
          exact hsim.emitted [signal]
      exact hone.trans (ih hone.dirs)

/-- A deletion is an `invalidate` of the scheduler, or nothing. -/
theorem deleteTiles_simulated (cfg : Config) (choice : Choice)
    (range : TileRange) (refuses : TilePath → Bool) {s : State}
    (hdirs : OwnDirs s.providerCachePaths) :
    Simulated cfg s (deleteTiles cfg choice range refuses s).2 := by
  obtain ⟨paths, markers, hown, ⟨-, heq⟩ | ⟨dir, -, -, heq⟩⟩ :=
    deleteTiles_cases cfg choice range refuses hdirs
  · rw [heq]
    exact .still hown rfl
  · rw [heq]
    rcases deleteFrom_cases range refuses dir
      { s with providerCachePaths := paths, markers := markers }
      with ⟨heq, -⟩ | ⟨u, ⟨⟨files, keys, rfl⟩, -, -⟩, heq | ⟨count, heq, -⟩⟩
    · rw [heq]
      exact .still hown rfl
    · rw [heq]
      exact .one hown (.invalidate range.coversKey s.cacheWritesPendingKeys)
        rfl
    · rw [heq]
      exact .one hown (.invalidate range.coversKey s.cacheWritesPendingKeys)
        rfl

/-- Every transition of the store is a run of the scheduler. -/
theorem perform_simulated {a : Action} {s u : State}
    (hdirs : OwnDirs s.providerCachePaths)
    (hstep : perform cfg a s = some u) : Simulated cfg s u := by
  cases a with
  | getTile choice provider z x y key =>
      cases hstep
      exact (getTile_requested hdirs cfg choice provider z x y
        key).simulated.answered
  | getTileForHttp choice provider z x y key =>
      cases hstep
      exact (getTileForHttp_requested hdirs cfg choice provider z x y
        key).simulated.answered
  | requestFinished client bytes mayStore =>
      obtain ⟨ended, hended, hcases⟩ := requestFinished_inv hstep
      have hnext : Downloads.next cfg (.ended client) s.downloads
          = some (Downloads.startQueuedDownloads cfg ended.downloads) := by
        simp only [Downloads.next, hended, Option.map_some]
      rcases hcases with rfl | ⟨-, rfl⟩
      · rw [emitReady_eq]
        apply Simulated.emitted
        exact .one hdirs (.ended client) hnext
      · exact .one hdirs (.ended client) hnext
  | requestError client reason =>
      obtain ⟨ended, hended, rfl⟩ := requestError_inv hstep
      rw [emitFailed_eq]
      apply Simulated.emitted
      refine .one hdirs (.ended client) ?_
      simp only [Downloads.next, hended, Option.map_some]
  | writeRuns write saved =>
      obtain ⟨w, -, -, ⟨result, rfl⟩ | ⟨-, rfl⟩⟩ := writeRuns_inv hstep
      · exact .still hdirs rfl
      · exact .still hdirs rfl
  | writeFinished write =>
      obtain ⟨w, -, -, rfl⟩ := writeFinished_inv hstep
      rw [emitReady_eq]
      apply Simulated.emitted
      exact .one hdirs (.forget w.download.canonicalKey) rfl
  | readRuns read =>
      obtain ⟨r, data, -, -, -, rfl⟩ := readRuns_inv hstep
      exact .still hdirs rfl
  | readFinished read choices =>
      obtain ⟨r, data, -, -, ⟨-, -, keys, rfl⟩ | rfl | ⟨requesters, -, rfl⟩⟩
        := readFinished_inv hstep
      · rw [emitReady_eq]
        apply Simulated.emitted
        exact .still hdirs rfl
      · rw [emitFailed_eq]
        apply Simulated.emitted
        exact .still hdirs rfl
      · have hretry : Simulated cfg (forgetRead read r s)
            (requesters.foldl (retryRead cfg r) (forgetRead read r s)) :=
          retryReads_simulated r requesters hdirs
        exact hretry.of_downloads rfl
  | deleteTiles choice range refuses =>
      cases hstep
      exact deleteTiles_simulated cfg choice range refuses hdirs
  | cancelUpstreamDownloads =>
      cases hstep
      unfold cancelUpstreamDownloads
      rw [emitFailed_eq]
      apply Simulated.emitted
      exact .one hdirs .cancel rfl
  | configureProviders providers coverage defaultCoverage =>
      cases hstep
      exact .still ownDirs_empty rfl
  | setPermanentDataDirectory directory =>
      cases hstep
      exact .still hdirs rfl
  | setRemoteFetchEnabled enabled =>
      cases hstep
      exact .still hdirs rfl
  | evict key =>
      cases hstep
      exact .still hdirs rfl
  | outsideChange path outside =>
      cases hstep
      exact .still hdirs rfl

/-- The same of a transition, which starts on an empty outbox. -/
theorem apply_simulated {a : Action} {s u : State}
    (hdirs : OwnDirs s.providerCachePaths)
    (hstep : apply cfg a s = some u) : Simulated cfg s u :=
  (perform_simulated (s := { s with outbox := [] }) hdirs hstep).of_downloads
    rfl

/-- The downloads of a reachable store are reachable by the scheduler. -/
theorem downloads_reachable {s : State} (h : Reachable cfg s) :
    Downloads.Reachable cfg s.downloads := by
  obtain ⟨files, markers, hrun⟩ := h
  exact hrun.simulates (P := fun s => OwnDirs s.providerCachePaths)
    (f := State.downloads) ownDirs_empty
    (fun _ _ _ hdirs _ hstep => (apply_simulated hdirs hstep).dirs)
    (fun _ _ _ hdirs _ hstep => (apply_simulated hdirs hstep).path)

-- ============================================================= contract

/-- What the scheduler promises between transitions. -/
structure SchedulerContract (cfg : Config) (d : Downloads) : Prop where
  activeBound : d.active.card ≤ cfg.activeLimit
  runningOnce : (d.running.map (·.canonicalKey)).Nodup
  activeRunning : ∀ k, k ∈ d.active ↔ k ∈ d.running.map (·.canonicalKey)
  perOrigin : ∀ o, d.activePerOrigin.lookup o
    = if d.runningAt cfg o = 0 then none else some (d.runningAt cfg o : Int)
  perOriginBound : ∀ o, d.runningAt cfg o ≤ 6
  queuedKeys : ∀ k, k ∈ d.queuedKeys ↔ k ∈ d.queued.map (·.canonicalKey)
  queuedOnce : (d.queued.map (·.canonicalKey)).Nodup
  queuedApart : Disjoint d.queuedKeys d.active
  queueBound : d.queued.length ≤ cfg.queueLimit
  workConserving : ∀ q ∈ d.queued, d.canStartDownloadLocked cfg q = false
  /-- Downloads of one origin start in the order they were scheduled. -/
  startsOrdered : d.starts.Pairwise fun a b =>
    a.origin = b.origin → a.ticket < b.ticket
  /-- Nobody started ahead of a queued download of its origin. -/
  queueBehind : ∀ a ∈ d.starts, ∀ q ∈ d.queued,
    a.origin = downloadOrigin cfg q.url → a.ticket < q.ticket
  /-- A scheduled download starts, waits, or was cancelled in the queue.
  -/
  accounted : ∀ t < d.nextTicket, t ∈ d.starts.map (·.ticket) ∨
    t ∈ d.queued.map (·.ticket) ∨ t ∈ d.dropped

/-- The scheduler keeps its contract in every reachable state of the
store. -/
theorem schedulerContract_reachable {s : State} (h : Reachable cfg s) :
    SchedulerContract cfg s.downloads := by
  have hinv := Downloads.scheduled_reachable (downloads_reachable h)
  obtain ⟨honce, hactive⟩ := hinv.active_running
  have hstarts : Downloads.startOrder cfg s.downloads []
      = s.downloads.starts.map fun st => (st.ticket, st.origin) := by
    unfold Downloads.startOrder
    rw [List.map_nil, List.append_nil]
  refine ⟨hinv.tables.activeBound, honce, hactive, ?_, ?_,
    hinv.tables.queuedKeys, hinv.tables.queuedOnce, ?_,
    hinv.tables.queueBound, hinv.work, ?_, ?_, ?_⟩
  · intro o
    rw [← Downloads.tally_ofOrigin]
    exact hinv.tables.origins o
  · intro o
    have hbound := hinv.tables.originBound o
    rw [Downloads.tally_ofOrigin] at hbound
    unfold maximumActiveDownloadsPerOrigin at hbound
    omega
  · rw [Finset.disjoint_left]
    intro k hk
    obtain ⟨q, hq, rfl⟩ :=
      List.mem_map.1 ((hinv.tables.queuedKeys k).1 hk)
    exact hinv.tables.apart q hq
  · have hordered := hinv.tables.ordered
    rw [hstarts, List.pairwise_map] at hordered
    exact hordered
  · intro a ha q hq ho
    have hahead := hinv.tables.ahead
    rw [hstarts] at hahead
    exact hahead _ (List.mem_map_of_mem ha) q hq ho
  · intro t ht
    rcases hinv.accounted t ht with hs | hm | hrest
    · exact Or.inl hs
    · cases hm
    · exact Or.inr hrest

/-- The OpenStreetMap provider of the default catalogue. -/
def openStreetMap : String := "0381bc44-67e9-5af9-aeb0-023ccba36658"

/-- A store with two download places, asked for OpenStreetMap tiles only.
-/
def smallConfig : Config where
  cacheBaseDirectory := "/var/cache/aowis"
  maximumActiveDownloads := 2
  maximumQueuedDownloads := 2
  parseUrl _ :=
    { scheme := "https", host := "tile.openstreetmap.org", port := -1 }
  fingerprint _ :=
    "f65928ca3a8e2a2e0128134b3041fe34c8473fb34e486401c5197e7d9e4a76bc"

/-- Four tiles are asked for, one of them twice, and the first arrives. -/
def fourTiles : List Action :=
  [ .getTile {} openStreetMap 3 0 0 "a", .getTile {} openStreetMap 3 1 0 "b",
    .getTile {} openStreetMap 3 2 0 "c", .getTile {} openStreetMap 3 2 0 "d",
    .getTile {} openStreetMap 3 3 0 "e", .requestFinished 0 [1] true ]

/-- Three downloads have started in the order of their tickets, and the fourth
waits. -/
theorem schedulerContract_fourTiles :
    ∃ s, runActions (apply smallConfig) fourTiles (State.init ∅ ∅) = some s ∧
      SchedulerContract smallConfig s.downloads ∧
      s.downloads.starts.map (·.ticket) = [0, 1, 2] ∧
      s.downloads.queued.map (·.ticket) = [3] := by
  have hrun : (runActions (apply smallConfig) fourTiles
      (State.init ∅ ∅)).map (fun s => (s.downloads.starts.map (·.ticket),
        s.downloads.queued.map (·.ticket))) = some ([0, 1, 2], [3]) := by
    decide +kernel
  obtain ⟨s, hs, hval⟩ := Option.map_eq_some_iff.1 hrun
  obtain ⟨hstarts, hqueued⟩ := Prod.mk.inj hval
  exact ⟨s, hs, schedulerContract_reachable ⟨∅, ∅, run_of_runActions hs⟩,
    hstarts, hqueued⟩

end AowisMap.Maps
