/-
The clients of the tile store's downloads over one transition: which are
created, which end and which are told to cancel.

Between two ends a client stays as it is (`Grown`): the transitions that
are neither the end of a client nor a cancellation only create clients,
under numbers that were never used, and untold (`perform_grown`). The end
of a client takes that client away and creates others
(`requestFinished_grown`, `requestError_grown`), and a cancellation tells
the registered clients and changes no other (`lookup_cancelled`).
-/
import AowisMap.Maps.Proofs.Held
import AowisMap.Maps.TileClients

namespace AowisMap.Maps

open Lib Downloads

variable {cfg : Config}

-- ================================================================ growth

/-- Clients are created, and nothing else happens to any. -/
structure Grown (d u : Downloads) : Prop where
  next : d.nextClient ≤ u.nextClient
  kept : ∀ id c, d.clients.lookup id = some c →
    u.clients.lookup id = some c
  created : ∀ id c, u.clients.lookup id = some c →
    d.clients.lookup id = some c ∨
      d.nextClient ≤ id ∧ c.cancelRequested = false
  fresh : FreshClients u

/-- The same clients. -/
theorem Grown.still {d u : Downloads} (hfresh : FreshClients d)
    (hclients : u.clients = d.clients) (hnext : u.nextClient = d.nextClient) :
    Grown d u where
  next := Nat.le_of_eq hnext.symm
  kept id c hid := by
    rw [hclients]
    exact hid
  created id c hid := by
    rw [hclients] at hid
    exact Or.inl hid
  fresh id hid := by
    rw [hnext] at hid
    rw [hclients]
    exact hfresh id hid

/-- Downloads start, and more of them. -/
theorem Grown.trans {d u v : Downloads} (h₁ : Grown d u) (h₂ : Grown u v) :
    Grown d v where
  next := Nat.le_trans h₁.next h₂.next
  kept id c hid := h₂.kept id c (h₁.kept id c hid)
  created id c hid := by
    rcases h₂.created id c hid with hid | ⟨hnew, hflag⟩
    · exact h₁.created id c hid
    · exact Or.inr ⟨Nat.le_trans h₁.next hnew, hflag⟩
  fresh := h₂.fresh

/-- Only the clients and their numbers matter. -/
theorem Grown.of_clients {d d' u : Downloads} (h : Grown d' u)
    (hclients : d'.clients = d.clients) (hnext : d'.nextClient = d.nextClient) :
    Grown d u := by
  refine ⟨hnext ▸ h.next, ?_, ?_, h.fresh⟩
  · rw [← hclients]
    exact h.kept
  · rw [← hclients, ← hnext]
    exact h.created

/-- A download that starts takes a number of its own. -/
theorem grown_start {d : Downloads} (hfresh : FreshClients d)
    (download : QueuedDownload) :
    Grown d (startMapTileDownload cfg d download) where
  next := Nat.le_succ _
  kept id c hid := by
    have hne : id ≠ d.nextClient := by
      intro heq
      rw [heq, hfresh _ (Nat.le_refl _)] at hid
      cases hid
    show (d.clients.insert d.nextClient _).lookup id = some c
    rw [AList.lookup_insert_ne hne, hid]
  created id c hid := by
    have hid : (d.clients.insert d.nextClient { download := download }).lookup
      id = some c := hid
    by_cases hne : id = d.nextClient
    · rw [hne, AList.lookup_insert] at hid
      cases hid
      exact Or.inr ⟨Nat.le_of_eq hne.symm, rfl⟩
    · rw [AList.lookup_insert_ne hne] at hid
      exact Or.inl hid
  fresh id hid := by
    have hid : d.nextClient + 1 ≤ id := hid
    show (d.clients.insert d.nextClient _).lookup id = none
    rw [AList.lookup_insert_ne (Nat.ne_of_gt hid)]
    exact hfresh id (Nat.le_of_succ_le hid)

/-- Some of them, one after the other. -/
theorem grown_startAll (marked : List QueuedDownload) {d : Downloads}
    (hfresh : FreshClients d) :
    Grown d (marked.foldl (startMapTileDownload cfg) d) := by
  induction marked generalizing d with
  | nil => exact .still hfresh rfl rfl
  | cons download marked ih =>
      have hstart := @grown_start cfg d hfresh download
      exact hstart.trans (ih hstart.fresh)

/-- Those for which there is room. -/
theorem grown_startQueued {d : Downloads} (hfresh : FreshClients d) :
    Grown d (startQueuedDownloads cfg d) := by
  obtain ⟨-, hclients, hnext, -⟩ := @startLoop_spec cfg d.queued.length d
  have hloop := Grown.still hfresh hclients hnext
  exact hloop.trans (grown_startAll _ hloop.fresh)

/-- A download that is scheduled starts, waits or joins another one. -/
theorem grown_schedule {d : Downloads} (hfresh : FreshClients d)
    (download : QueuedDownload) :
    Grown d (scheduleMapTileDownload cfg download d).2 := by
  unfold scheduleMapTileDownload
  split
  · unfold joinDownload
    split
    · exact .still hfresh rfl rfl
    · exact .still hfresh rfl rfl
  · split
    · have hmarked : FreshClients (markDownloadStartedLocked cfg
          (d.numbered download) { d with nextTicket := d.nextTicket + 1 }) :=
        hfresh
      exact (grown_start hmarked _).of_clients rfl rfl
    · split
      · exact .still hfresh rfl rfl
      · exact .still hfresh rfl rfl

-- =========================================================== transitions

/-- A request creates at most one client. -/
theorem Requested.grown {key : String} {s u : State} {r : TileRequestResult}
    (h : Requested cfg key s r u) (hfresh : FreshClients s.downloads) :
    Grown s.downloads u.downloads := by
  cases h with
  | quiet r paths markers hown hr => exact .still hfresh rfl rfl
  | loaded path data paths markers keys hown hread =>
      exact .still hfresh rfl rfl
  | scheduled d paths markers hown hkey hcanon hvalid =>
      exact grown_schedule hfresh d
  | joined readKey keys paths markers hown hk => exact .still hfresh rfl rfl
  | reading read paths markers hown hnone hgen hres hcanon =>
      exact .still hfresh rfl rfl

/-- An answer starts none. -/
theorem grown_answered {key : String} {s : State}
    {r : TileRequestResult × State} (h : Grown s.downloads r.2.downloads) :
    Grown s.downloads (answered key r).downloads := by
  unfold Maps.answered
  split
  · exact h
  · exact h

/-- Requests that fall back to a download start it. -/
theorem retryReads_grown (r : CacheRead)
    (requesters : List (String × Choice)) {s : State}
    (hdirs : OwnDirs s.providerCachePaths)
    (hfresh : FreshClients s.downloads) :
    Grown s.downloads (requesters.foldl (retryRead cfg r) s).downloads := by
  induction requesters generalizing s with
  | nil => exact .still hfresh rfl rfl
  | cons requester requesters ih =>
      obtain ⟨answer, u, hreq, hrest⟩ :=
        retryRead_requested hdirs cfg r requester
      have hgrown := hreq.grown hfresh
      have hdirs' := hreq.simulated.dirs
      rw [List.foldl_cons]
      rcases hrest with ⟨-, heq⟩ | ⟨-, signal, -, heq⟩
      · rw [heq]
        exact hgrown.trans (ih hdirs' hgrown.fresh)
      · rw [heq]
        exact hgrown.trans (ih (s := emit signal u) hdirs' hgrown.fresh)

/-- A deletion starts none: it marks those that run. -/
theorem deleteTiles_grown (cfg : Config) (choice : Choice)
    (range : TileRange) (refuses : TilePath → Bool) {s : State}
    (hdirs : OwnDirs s.providerCachePaths)
    (hfresh : FreshClients s.downloads) :
    Grown s.downloads
      (deleteTiles cfg choice range refuses s).2.downloads := by
  obtain ⟨paths, markers, hown, ⟨-, heq⟩ | ⟨dir, -, -, heq⟩⟩ :=
    deleteTiles_cases cfg choice range refuses hdirs
  · rw [heq]
    exact .still hfresh rfl rfl
  · rw [heq]
    rcases deleteFrom_cases range refuses dir
      { s with providerCachePaths := paths, markers := markers }
      with ⟨heq, -⟩ | ⟨u, ⟨⟨files, keys, rfl⟩, -, -⟩, heq | ⟨count, heq, -⟩⟩
    · rw [heq]
      exact .still hfresh rfl rfl
    · rw [heq]
      exact .still hfresh rfl rfl
    · rw [heq]
      exact .still hfresh rfl rfl

/-- What is neither the end of a client nor a cancellation creates
clients only. -/
theorem perform_grown {a : Action} {s u : State}
    (hdirs : OwnDirs s.providerCachePaths)
    (hfresh : FreshClients s.downloads) (howner : a.isCallback = false)
    (hcancel : a ≠ .cancelUpstreamDownloads)
    (hstep : perform cfg a s = some u) :
    Grown s.downloads u.downloads := by
  cases a with
  | getTile choice provider z x y key =>
      cases hstep
      exact grown_answered ((getTile_requested hdirs cfg choice provider z x y
        key).grown hfresh)
  | getTileForHttp choice provider z x y key =>
      cases hstep
      exact grown_answered ((getTileForHttp_requested hdirs cfg choice
        provider z x y key).grown hfresh)
  | requestFinished client bytes mayStore => cases howner
  | requestError client reason => cases howner
  | writeRuns write saved =>
      obtain ⟨w, -, -, ⟨result, rfl⟩ | ⟨-, rfl⟩⟩ := writeRuns_inv hstep
      · exact .still hfresh rfl rfl
      · exact .still hfresh rfl rfl
  | writeFinished write =>
      obtain ⟨w, -, -, rfl⟩ := writeFinished_inv hstep
      rw [emitReady_eq]
      exact .still hfresh rfl rfl
  | readRuns read =>
      obtain ⟨r, data, -, -, -, rfl⟩ := readRuns_inv hstep
      exact .still hfresh rfl rfl
  | readFinished read choices =>
      obtain ⟨r, data, -, -, ⟨-, -, keys, rfl⟩ | rfl | ⟨requesters, -, rfl⟩⟩
        := readFinished_inv hstep
      · rw [emitReady_eq]
        exact .still hfresh rfl rfl
      · rw [emitFailed_eq]
        exact .still hfresh rfl rfl
      · exact retryReads_grown (s := forgetRead read r s) r requesters hdirs
          hfresh
  | deleteTiles choice range refuses =>
      cases hstep
      exact deleteTiles_grown cfg choice range refuses hdirs hfresh
  | cancelUpstreamDownloads => exact absurd rfl hcancel
  | configureProviders providers coverage defaultCoverage =>
      cases hstep
      exact .still hfresh rfl rfl
  | setPermanentDataDirectory directory =>
      cases hstep
      exact .still hfresh rfl rfl
  | setRemoteFetchEnabled enabled =>
      cases hstep
      exact .still hfresh rfl rfl
  | evict key =>
      cases hstep
      exact .still hfresh rfl rfl
  | outsideChange path outside =>
      cases hstep
      exact .still hfresh rfl rfl

-- ================================================================== ends

/-- The downloads without an ended client. -/
theorem clientEnds_clients {client : ClientId} {d : Downloads} {e : Ended}
    (h : clientEnds cfg client d = some e) :
    d.clients.lookup client = some e.client ∧
      e.downloads.clients = d.clients.erase client ∧
      e.downloads.nextClient = d.nextClient := by
  obtain ⟨c, hc, heq⟩ := Option.map_eq_some_iff.1 h
  rw [← heq]
  exact ⟨hc, rfl, rfl⟩

/-- One client ended; nothing else happened to any, and others were
created. -/
structure EndsOne (client : ClientId) (d u : Downloads) : Prop where
  kept : ∀ id c, id ≠ client → d.clients.lookup id = some c →
    u.clients.lookup id = some c
  created : ∀ id c, u.clients.lookup id = some c →
    id ≠ client ∧ d.clients.lookup id = some c ∨
      d.nextClient ≤ id ∧ c.cancelRequested = false

/-- One download ends and others take its place. -/
theorem endsOne_startQueued {client : ClientId} {d : Downloads} {e : Ended}
    (hfresh : FreshClients d) (h : clientEnds cfg client d = some e) :
    EndsOne client d (startQueuedDownloads cfg e.downloads) := by
  obtain ⟨-, hclients, hnext⟩ := clientEnds_clients h
  have hended : FreshClients e.downloads := by
    intro id hid
    rw [hnext] at hid
    rw [hclients]
    by_cases hne : id = client
    · rw [hne, AList.lookup_erase]
    · rw [AList.lookup_erase_ne hne]
      exact hfresh id hid
  have hgrown := @grown_startQueued cfg _ hended
  refine ⟨?_, ?_⟩
  · intro id c hne hid
    apply hgrown.kept
    rw [hclients, AList.lookup_erase_ne hne]
    exact hid
  · intro id c hid
    rcases hgrown.created id c hid with hid | ⟨hnew, hflag⟩
    · rw [hclients] at hid
      by_cases hne : id = client
      · rw [hne, AList.lookup_erase] at hid
        cases hid
      · rw [AList.lookup_erase_ne hne] at hid
        exact Or.inl ⟨hne, hid⟩
    · exact Or.inr ⟨hnext ▸ hnew, hflag⟩

/-- The end of a client is accepted, if a client that was told to cancel
says so. -/
theorem requestFinished_accepted {client : ClientId} {c : Client} {s : State}
    (hc : s.downloads.clients.lookup client = some c)
    (hflag : c.cancelRequested = false) (bytes : Bytes) (mayStore : Bool) :
    ∃ u, requestFinished cfg client bytes mayStore s = some u := by
  have hended : ∃ e, clientEnds cfg client s.downloads = some e := by
    unfold clientEnds
    rw [hc]
    exact ⟨_, rfl⟩
  obtain ⟨e, he⟩ := hended
  have hclient : e.client = c :=
    Option.some.inj ((clientEnds_clients he).1.symm.trans hc)
  unfold requestFinished
  rw [he]
  simp only [hclient, hflag, Bool.false_eq_true, if_false]
  split
  · exact ⟨_, rfl⟩
  · split
    · exact ⟨_, rfl⟩
    · exact ⟨_, rfl⟩

/-- A running client can always report a failure. -/
theorem requestError_accepted {client : ClientId} {c : Client} {s : State}
    (hc : s.downloads.clients.lookup client = some c)
    {reason : TileFailureReason}
    (hreason : c.cancelRequested = true → reason = .cancelled) :
    ∃ u, requestError cfg client reason s = some u := by
  have hended : ∃ e, clientEnds cfg client s.downloads = some e := by
    unfold clientEnds
    rw [hc]
    exact ⟨_, rfl⟩
  obtain ⟨e, he⟩ := hended
  have hclient : e.client = c :=
    Option.some.inj ((clientEnds_clients he).1.symm.trans hc)
  unfold requestError
  rw [he]
  simp only [hclient]
  rw [if_neg fun hboth => hboth.2 (hreason hboth.1)]
  exact ⟨_, rfl⟩

/-- A client that finished has ended its download, -/
theorem requestFinished_endsOne {client : ClientId} {bytes : Bytes}
    {mayStore : Bool} {s u : State} (hfresh : FreshClients s.downloads)
    (h : requestFinished cfg client bytes mayStore s = some u) :
    EndsOne client s.downloads u.downloads := by
  obtain ⟨ended, hended, hcases⟩ := requestFinished_inv h
  have hends := endsOne_startQueued hfresh hended
  rcases hcases with rfl | ⟨-, rfl⟩
  · rw [emitReady_eq]
    exact hends
  · exact hends

/-- and so has one that failed. -/
theorem requestError_endsOne {client : ClientId} {reason : TileFailureReason}
    {s u : State} (hfresh : FreshClients s.downloads)
    (h : requestError cfg client reason s = some u) :
    EndsOne client s.downloads u.downloads := by
  obtain ⟨ended, hended, rfl⟩ := requestError_inv h
  rw [emitFailed_eq]
  exact endsOne_startQueued hfresh hended

-- ========================================================== cancellation

/-- Emptying the queue touches no running download. -/
theorem drainQueue_clients (queue : List QueuedDownload) (d : Downloads) :
    (drainQueue queue d).2.clients = d.clients := by
  induction queue generalizing d with
  | nil => rfl
  | cons download queue ih => exact ih _

/-- A cancellation tells the registered clients. -/
theorem lookup_cancelled (s : State) (id : ClientId) :
    (cancelUpstreamDownloads s).downloads.clients.lookup id
      = (s.downloads.clients.lookup id).map fun c =>
        { c with cancelRequested := c.cancelRequested
            || (registered s.downloads).contains id } := by
  unfold Maps.cancelUpstreamDownloads
  rw [emitFailed_eq]
  show (QHash.filterMapValues _ _).lookup id = _
  rw [QHash.lookup_filterMapValues, drainQueue_clients]
  cases s.downloads.clients.lookup id with
  | none => rfl
  | some c => rfl

end AowisMap.Maps
