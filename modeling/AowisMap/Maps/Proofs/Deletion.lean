/-
Deleted tiles stay deleted, on the runs where every mark of a deletion
lives as long as what it marks.

# Bytes and deletions

Bytes know the download they come from (`Blob.origin`), and a recorded
deletion knows how many downloads had started before it, so an origin is
stale when a deletion covered its tile after its download had started
(`Origin.Stale`). `NoResurrection` says that no recorded insertion or
committed file stores stale bytes.

# What a deletion must reach

Stale bytes can be in the memory cache, in files, in scheduled writes, in
reads and in running downloads. A deletion empties the first two, raises
the flag of the writes registered under a covered key, retires the reads
by their generation and marks the keys of the downloads. All of that is
keyed by tile, and a tile can have several downloads and writes alive at
once; `Spared` is the condition under which each of them is reached and
keeps its mark. The counterexample behind the theorem is a run that
breaks it: the callback of an older write takes the mark of a running
download off.
-/
import AowisMap.Maps.Proofs.Held

namespace AowisMap.Maps

open Lib

variable {cfg : Config}

-- ============================================================= staleness

/-- The deletion an event records, with the number of downloads started
before it. -/
def Event.deletion? : Event → Option (TileRange × ClientId)
  | .deleted range clients => some (range, clients)
  | .inserted _ _ | .written _ _ => none

/-- Where the bytes an event stores come from. -/
def Event.origin? : Event → Option Origin
  | .inserted _ data | .written _ data => data.origin
  | .deleted _ _ => none

/-- The deletions of a history. -/
def deletions (history : List Event) : List (TileRange × ClientId) :=
  history.filterMap Event.deletion?

/-- A deletion covered the tile of a download that had started. -/
def Origin.Stale (ds : List (TileRange × ClientId)) (o : Origin) : Prop :=
  ∃ d ∈ ds, d.1.Covers o.tile ∧ o.client < d.2

/-- What is stored behind a deletion is not from before it. -/
def Respects (earlier later : Event) : Prop :=
  ∀ range clients, earlier = .deleted range clients →
    ∀ o, later.origin? = some o → range.Covers o.tile → clients ≤ o.client

/-- No bytes of a download started before a deletion that covers its tile
are inserted into the memory cache or written to a file behind it. -/
def NoResurrection (history : List Event) : Prop :=
  ∀ before range clients after,
    history = before ++ .deleted range clients :: after →
    ∀ e ∈ after, ∀ o, e.origin? = some o → range.Covers o.tile →
      clients ≤ o.client

theorem noResurrection_of_pairwise {history : List Event}
    (h : history.Pairwise Respects) : NoResurrection history := by
  intro before range clients after heq e he o ho hcovers
  rw [heq] at h
  have hbehind := (List.pairwise_append.1 h).2.1
  exact (List.pairwise_cons.1 hbehind).1 e he range clients rfl o ho hcovers

theorem deletions_append (history : List Event) (e : Event) :
    deletions (history ++ [e]) = deletions history ++ e.deletion?.toList := by
  unfold deletions
  rw [List.filterMap_append]
  cases h : e.deletion? with
  | none => simp [h]
  | some d => simp [h]

/-- Storing bytes changes no deletion. -/
theorem deletions_stored {history : List Event} {e : Event}
    (h : e.deletion? = none) :
    deletions (history ++ [e]) = deletions history := by
  rw [deletions_append, h]
  exact List.append_nil _

/-- Appending an event that stores nothing stale. -/
theorem pairwise_respects_append {history : List Event} {e : Event}
    (h : history.Pairwise Respects)
    (he : ∀ o, e.origin? = some o → ¬ o.Stale (deletions history)) :
    (history ++ [e]).Pairwise Respects := by
  refine List.pairwise_append.2 ⟨h, List.pairwise_singleton _ _, ?_⟩
  intro earlier hearlier later hlater range clients heq o ho hcovers
  rw [List.mem_singleton.1 hlater] at ho
  by_contra hlt
  refine he o ho ⟨(range, clients), ?_, hcovers, Nat.lt_of_not_le hlt⟩
  refine List.mem_filterMap.2 ⟨earlier, hearlier, ?_⟩
  rw [heq]
  rfl

/-- An old deletion or the new one. -/
theorem Origin.Stale.cases {ds : List (TileRange × ClientId)}
    {range : TileRange} {clients : ClientId} {o : Origin}
    (h : o.Stale (ds ++ [(range, clients)])) :
    o.Stale ds ∨ range.Covers o.tile := by
  obtain ⟨d, hd, hcovers, hlt⟩ := h
  rcases List.mem_append.1 hd with hd | hd
  · exact Or.inl ⟨d, hd, hcovers, hlt⟩
  · rw [List.mem_singleton.1 hd] at hcovers
    exact Or.inr hcovers

/-- A covered tile's key is found by the deletion. -/
theorem TileRange.Covers.coversKey {range : TileRange} {t : Tile}
    (h : range.Covers t) (hvalid : t.Valid)
    (hplain : PlainId range.provider) : range.coversKey t.key = true := by
  rw [← h.provider] at hplain
  unfold TileRange.coversKey
  rw [hvalid.parse_key hplain]
  exact h.contains hvalid

-- ============================================================ invariants

/-- Bytes of a tile that no deletion should have reached. -/
def Fresh (ds : List (TileRange × ClientId)) (t : Tile) (data : Blob) :
    Prop :=
  ∀ o, data.origin = some o → o.tile = t ∧ t.Valid ∧ ¬ o.Stale ds

def FreshMemory (ds : List (TileRange × ClientId))
    (memory : QHash String Blob) : Prop :=
  ∀ k data o, memory.lookup k = some data → data.origin = some o →
    k = o.tile.key ∧ o.tile.Valid ∧ ¬ o.Stale ds

def FreshFiles (ds : List (TileRange × ClientId))
    (files : QHash TilePath TileFile) : Prop :=
  ∀ path file, files.lookup path = some file →
    Fresh ds path.tile file.blob

/-- A write that may still commit its file holds no stale bytes. -/
structure FreshWrite (ds : List (TileRange × ClientId)) (w : CacheWrite) :
    Prop where
  origin : ∀ o, w.data.origin = some o → o.tile = w.download.tilePath.tile
  valid : w.download.tilePath.tile.Valid
  keyed : w.download.canonicalKey = w.download.tilePath.tile.key
  live : w.result = none → w.invalidated = false →
    ∀ o, w.data.origin = some o → ¬ o.Stale ds

/-- A read of the current generation holds no stale bytes. -/
structure FreshRead (ds : List (TileRange × ClientId)) (generation : Nat)
    (r : CacheRead) : Prop where
  keyed : r.canonicalKey = r.readPath.tile.key
  generation_le : r.generation ≤ generation
  result : ∀ data, r.result = some data → r.generation = generation →
    Fresh ds r.readPath.tile data

/-- A running download that a deletion covered is marked. -/
structure FreshDownloads (ds : List (TileRange × ClientId)) (d : Downloads) :
    Prop where
  started : ∀ e ∈ ds, e.2 ≤ d.nextClient
  keyed : ∀ q, q ∈ d.running ∨ q ∈ d.queued →
    q.tilePath.tile.Valid ∧ q.canonicalKey = q.tilePath.tile.key
  marked : ∀ id c, d.clients.lookup id = some c →
    Origin.Stale ds ⟨id, c.download.tilePath.tile⟩ →
    c.download.canonicalKey ∈ d.invalidated

structure DeletionInv (s : State) : Prop where
  safe : s.history.Pairwise Respects
  memory : FreshMemory (deletions s.history) s.tileMemoryCache
  files : FreshFiles (deletions s.history) s.files
  writes : ∀ id w, s.writes.lookup id = some w →
    FreshWrite (deletions s.history) w
  reads : ∀ id r, s.reads.lookup id = some r →
    FreshRead (deletions s.history) s.cacheGeneration r
  downloads : FreshDownloads (deletions s.history) s.downloads

theorem deletionInv_init (files : QHash TilePath OutsideFile)
    (markers : QHash String String) :
    DeletionInv (State.init files markers) where
  safe := List.Pairwise.nil
  memory k data o h := by cases h
  files path file h := by
    have h : (QHash.filterMapValues (fun _ outside =>
        some (OutsideFile.file outside)) files).lookup path = some file := h
    rw [QHash.lookup_filterMapValues] at h
    obtain ⟨outside, -, heq⟩ := Option.bind_eq_some_iff.1 h
    cases heq
    intro o ho
    cases ho
  writes id w h := by cases h
  reads id r h := by cases h
  downloads := by
    refine ⟨?_, ?_, ?_⟩
    · intro e he
      cases he
    · intro q hq
      rcases hq with hq | hq
      · cases hq
      · cases hq
    · intro id c h
      cases h

-- ============================================================= scheduler

namespace Downloads

/-- Two clients of one key are one. -/
theorem SchedulerInv.client_once {s : Downloads}
    (h : SchedulerInv cfg [] s) {id id' : ClientId} {c c' : Client}
    (hc : s.clients.lookup id = some c)
    (hc' : s.clients.lookup id' = some c')
    (hkey : c.download.canonicalKey = c'.download.canonicalKey) :
    id = id' := by
  by_contra hne
  have hkeys := h.keys c.download.canonicalKey
  have herase := QHash.total_erase
    (fun (_ : ClientId) (x : Client) =>
      ofKey c.download.canonicalKey x.download) id s.clients
  have hother : (s.clients.erase id).lookup id' = some c' := by
    rw [AList.lookup_erase_ne fun heq => hne heq.symm, hc']
  have hle := QHash.measure_le_total (f := fun (_ : ClientId) (x : Client) =>
    ofKey c.download.canonicalKey x.download) hother
  rw [QHash.measureAt_some hc] at herase
  have hone : ofKey c.download.canonicalKey c.download = 1 := if_pos rfl
  have hone' : ofKey c.download.canonicalKey c'.download = 1 :=
    if_pos hkey.symm
  unfold tally at hkeys
  simp only [List.map_nil, List.sum_nil, Nat.add_zero] at hkeys
  simp only [hone, hone'] at herase hle
  split at hkeys
  · omega
  · omega

/-- The key of a running download is active. -/
theorem Scheduled.client_active {s : Downloads} (h : Scheduled cfg s)
    {id : ClientId} {c : Client} (hc : s.clients.lookup id = some c) :
    c.download.canonicalKey ∈ s.active := by
  refine (h.active_running.2 _).2 (List.mem_map.2 ⟨c.download, ?_, rfl⟩)
  exact mem_running.2 ⟨id, c, hc, rfl⟩

/-- The clients of marked downloads are new ones. -/
theorem startAll_back (marked : List QueuedDownload) (s : Downloads) :
    let u := marked.foldl (startMapTileDownload cfg) s
    u.invalidated = s.invalidated ∧ s.nextClient ≤ u.nextClient ∧
      u.queued = s.queued ∧
      ∀ id c, u.clients.lookup id = some c → s.clients.lookup id = some c ∨
        s.nextClient ≤ id ∧ c.download ∈ marked := by
  induction marked generalizing s with
  | nil => exact ⟨rfl, Nat.le_refl _, rfl, fun id c h => Or.inl h⟩
  | cons e marked ih =>
      obtain ⟨hinv, hnext, hqueued, hback⟩ := ih (startMapTileDownload cfg s e)
      refine ⟨hinv, Nat.le_of_succ_le hnext, hqueued, ?_⟩
      intro id c hc
      rcases hback id c hc with hc | ⟨hid, hmem⟩
      · have hc : (s.clients.insert s.nextClient _).lookup id = some c := hc
        by_cases heq : id = s.nextClient
        · rw [heq, AList.lookup_insert] at hc
          cases hc
          refine Or.inr ⟨Nat.le_of_eq heq.symm, List.mem_cons_self⟩
        · rw [AList.lookup_insert_ne heq] at hc
          exact Or.inl hc
      · exact Or.inr ⟨Nat.le_of_succ_le hid, List.mem_cons_of_mem _ hmem⟩

/-- The loop's downloads are from the queue. -/
theorem startLoop_back (rounds : Nat) (s : Downloads) :
    (startLoop cfg rounds s).1.invalidated = s.invalidated ∧
      ∀ d, d ∈ (startLoop cfg rounds s).1.queued ∨
        d ∈ (startLoop cfg rounds s).2 → d ∈ s.queued := by
  induction rounds generalizing s with
  | zero =>
      refine ⟨rfl, ?_⟩
      intro d hd
      rcases hd with hd | hd
      · exact hd
      · cases hd
  | succ rounds ih =>
      rw [startLoop]
      have hstop : s.invalidated = s.invalidated ∧
          ∀ d, d ∈ s.queued ∨ d ∈ ([] : List QueuedDownload) →
            d ∈ s.queued := by
        refine ⟨rfl, ?_⟩
        intro d hd
        rcases hd with hd | hd
        · exact hd
        · cases hd
      split
      · split
        · exact hstop
        · rename_i e rest hsome
          obtain ⟨pre, post, hqueue, rfl, -, -⟩ := takeEligible_some hsome
          obtain ⟨hinv, hback⟩ := ih
            (markDownloadStartedLocked cfg e { s with
              queued := pre ++ post
              queuedKeys := s.queuedKeys.erase e.canonicalKey })
          refine ⟨hinv, ?_⟩
          have hsub : ∀ d ∈ pre ++ post, d ∈ s.queued := by
            intro d hd
            rw [hqueue, List.mem_append, List.mem_cons]
            rcases List.mem_append.1 hd with hd | hd
            · exact Or.inl hd
            · exact Or.inr (Or.inr hd)
          intro d hd
          rcases hd with hd | hd
          · exact hsub d (hback d (Or.inl hd))
          · rcases List.mem_cons.1 hd with rfl | hd
            · rw [hqueue]
              exact List.mem_append_right _ List.mem_cons_self
            · exact hsub d (hback d (Or.inr hd))
      · exact hstop

end Downloads

section downloads

variable {ds : List (TileRange × ClientId)} {d : Downloads}

/-- Clients that were running, or start now with downloads of the queue.
-/
theorem FreshDownloads.of_started (h : FreshDownloads ds d) {u : Downloads}
    (marked : List QueuedDownload) (hinv : u.invalidated = d.invalidated)
    (hnext : d.nextClient ≤ u.nextClient)
    (hqueued : ∀ q ∈ u.queued, q.tilePath.tile.Valid ∧
      q.canonicalKey = q.tilePath.tile.key)
    (hmarked : ∀ q ∈ marked, q.tilePath.tile.Valid ∧
      q.canonicalKey = q.tilePath.tile.key)
    (hclients : ∀ id c, u.clients.lookup id = some c →
      d.clients.lookup id = some c ∨
        d.nextClient ≤ id ∧ c.download ∈ marked) : FreshDownloads ds u := by
  refine ⟨?_, ?_, ?_⟩
  · intro e he
    exact Nat.le_trans (h.started e he) hnext
  · intro q hq
    rcases hq with hq | hq
    · obtain ⟨id, c, hc, rfl⟩ := Downloads.mem_running.1 hq
      rcases hclients id c hc with hc | ⟨-, hmem⟩
      · exact h.keyed _ (Or.inl (Downloads.mem_running.2 ⟨id, c, hc, rfl⟩))
      · exact hmarked _ hmem
    · exact hqueued q hq
  · intro id c hc hstale
    rcases hclients id c hc with hc | ⟨hid, -⟩
    · rw [hinv]
      exact h.marked id c hc hstale
    · -- a client that starts now is younger than every deletion
      obtain ⟨e, he, -, hlt⟩ := hstale
      exact absurd (Nat.lt_of_lt_of_le hlt (h.started e he))
        (Nat.not_lt_of_le hid)

/-- Scheduling a download of a valid tile under its key. -/
theorem FreshDownloads.schedule (h : FreshDownloads ds d)
    {q : QueuedDownload} (hvalid : q.tilePath.tile.Valid)
    (hkeyed : q.canonicalKey = q.tilePath.tile.key) :
    FreshDownloads ds (Downloads.scheduleMapTileDownload cfg q d).2 := by
  have hqueue : ∀ p ∈ d.queued, p.tilePath.tile.Valid ∧
      p.canonicalKey = p.tilePath.tile.key :=
    fun p hp => h.keyed p (Or.inr hp)
  rcases Downloads.schedule_cases cfg q d with ⟨-, heq⟩ |
    ⟨-, -, ⟨-, heq⟩ | ⟨-, ⟨-, heq⟩ | ⟨-, heq⟩⟩⟩
  · rw [heq]
    show FreshDownloads ds (Downloads.joinDownload q d)
    unfold Downloads.joinDownload
    split
    · exact ⟨h.started, h.keyed, h.marked⟩
    · exact h
  · rw [heq]
    obtain ⟨hinv, hnext, hqueued, hclients⟩ :=
      @Downloads.startAll_back cfg [d.numbered q]
        (Downloads.markDownloadStartedLocked cfg (d.numbered q)
          { d with nextTicket := d.nextTicket + 1 })
    refine h.of_started _ hinv hnext hqueue ?_ hclients
    intro p hp
    rw [List.mem_singleton.1 hp]
    exact ⟨hvalid, hkeyed⟩
  · rw [heq]
    exact h
  · rw [heq]
    refine h.of_started [] rfl (Nat.le_refl _) ?_
      (fun p hp => by cases hp) (fun id c hc => Or.inl hc)
    intro p hp
    rcases List.mem_append.1 hp with hp | hp
    · exact hqueue p hp
    · rw [List.mem_singleton.1 hp]
      exact ⟨hvalid, hkeyed⟩

/-- Scanning the queue. -/
theorem FreshDownloads.startQueued (h : FreshDownloads ds d) :
    FreshDownloads ds (Downloads.startQueuedDownloads cfg d) := by
  obtain ⟨-, hclients, hnext, -⟩ :=
    @Downloads.startLoop_spec cfg d.queued.length d
  obtain ⟨hinv, hback⟩ :=
    @Downloads.startLoop_back cfg d.queued.length d
  obtain ⟨hinv', hnext', hqueued', hclients'⟩ := @Downloads.startAll_back
    cfg (Downloads.startLoop cfg d.queued.length d).2
    (Downloads.startLoop cfg d.queued.length d).1
  refine h.of_started (Downloads.startLoop cfg d.queued.length d).2
    (hinv'.trans hinv) ?_ ?_ ?_ ?_
  · rw [← hnext]
    exact hnext'
  · intro q hq
    have hq : q ∈ (Downloads.startLoop cfg d.queued.length d).1.queued := by
      rw [← hqueued']
      exact hq
    exact h.keyed q (Or.inr (hback q (Or.inl hq)))
  · intro q hq
    exact h.keyed q (Or.inr (hback q (Or.inr hq)))
  · intro id c hc
    rw [← hclients, ← hnext]
    exact hclients' id c hc

/-- The end of a client takes only its own mark off. -/
theorem FreshDownloads.clientEnds (h : FreshDownloads ds d)
    (hscheduled : Downloads.Scheduled cfg d) {client : ClientId}
    {e : Downloads.Ended}
    (hend : Downloads.clientEnds cfg client d = some e) :
    FreshDownloads ds e.downloads := by
  obtain ⟨hc, -, -, heq⟩ := Downloads.clientEnds_inv hend
  have hother : ∀ id c, e.downloads.clients.lookup id = some c →
      id ≠ client ∧ d.clients.lookup id = some c := by
    intro id c hid
    rw [heq] at hid
    have hid : (d.clients.erase client).lookup id = some c := hid
    by_cases hne : id = client
    · rw [hne, AList.lookup_erase] at hid
      cases hid
    · rw [AList.lookup_erase_ne hne] at hid
      exact ⟨hne, hid⟩
  refine ⟨?_, ?_, ?_⟩
  · rw [heq]
    exact h.started
  · intro q hq
    rcases hq with hq | hq
    · obtain ⟨id, c, hid, rfl⟩ := Downloads.mem_running.1 hq
      exact h.keyed _ (Or.inl (Downloads.mem_running.2
        ⟨id, c, (hother id c hid).2, rfl⟩))
    · rw [heq] at hq
      exact h.keyed q (Or.inr hq)
  · intro id c hid hstale
    obtain ⟨hne, hid⟩ := hother id c hid
    rw [heq]
    refine Finset.mem_erase.2 ⟨?_, h.marked id c hid hstale⟩
    intro hkey
    exact hne (hscheduled.tables.client_once hid hc hkey)

/-- Cancelling takes off marks of queued keys only. -/
theorem drainQueue_invalidated (queue : List QueuedDownload)
    (s : Downloads) {k : String} (hk : k ∈ s.invalidated)
    (hqueue : k ∉ queue.map (·.canonicalKey)) :
    k ∈ (Downloads.drainQueue queue s).2.invalidated := by
  induction queue generalizing s with
  | nil => exact hk
  | cons q queue ih =>
      rw [List.map_cons, List.mem_cons, not_or] at hqueue
      exact ih _ (Finset.mem_erase.2 ⟨hqueue.1, hk⟩) hqueue.2

theorem FreshDownloads.cancel (h : FreshDownloads ds d)
    (hscheduled : Downloads.Scheduled cfg d) :
    FreshDownloads ds (Downloads.cancelUpstreamDownloads d).2 := by
  obtain ⟨invalidated, joined, heq⟩ :=
    Downloads.drainQueue_eq d.queued { d with queued := [] }
  have hclients : ∀ id c,
      (Downloads.cancelUpstreamDownloads d).2.clients.lookup id = some c →
      ∃ c₀, d.clients.lookup id = some c₀ ∧ c₀.download = c.download := by
    intro id c hc
    unfold Downloads.cancelUpstreamDownloads at hc
    simp only [heq, QHash.lookup_filterMapValues] at hc
    obtain ⟨c₀, hc₀, hcc⟩ := Option.bind_eq_some_iff.1 hc
    cases hcc
    exact ⟨c₀, hc₀, rfl⟩
  refine ⟨?_, ?_, ?_⟩
  · have hnext : (Downloads.cancelUpstreamDownloads d).2.nextClient
        = d.nextClient := by
      unfold Downloads.cancelUpstreamDownloads
      simp only [heq]
    rw [hnext]
    exact h.started
  · intro q hq
    rcases hq with hq | hq
    · obtain ⟨id, c, hc, rfl⟩ := Downloads.mem_running.1 hq
      obtain ⟨c₀, hc₀, hsame⟩ := hclients id c hc
      rw [← hsame]
      exact h.keyed _ (Or.inl (Downloads.mem_running.2 ⟨id, c₀, hc₀, rfl⟩))
    · unfold Downloads.cancelUpstreamDownloads at hq
      simp only [heq] at hq
      cases hq
  · intro id c hc hstale
    obtain ⟨c₀, hc₀, hsame⟩ := hclients id c hc
    rw [← hsame] at hstale ⊢
    refine drainQueue_invalidated d.queued { d with queued := [] }
      (h.marked id c₀ hc₀ hstale) ?_
    -- a running download's key is not queued
    intro hmem
    obtain ⟨q, hq, hkey⟩ := List.mem_map.1 hmem
    refine hscheduled.tables.apart q hq ?_
    rw [hkey]
    exact hscheduled.client_active hc₀

end downloads

-- ============================================================ the parts

/-- Bytes of a file that can be read are as fresh as the files. -/
theorem readFile_fresh {s : State} (h : DeletionInv s) {path : TilePath}
    {data : Blob} (hread : readFile s path = some data) :
    Fresh (deletions s.history) path.tile data := by
  unfold readFile at hread
  split at hread
  · rename_i file hfile
    split at hread
    · cases hread
      exact h.files path file hfile
    · cases hread
  · cases hread

/-- Fresh bytes may enter the memory cache under their tile's key. -/
theorem DeletionInv.cacheInsert {s : State} (h : DeletionInv s) {t : Tile}
    {data : Blob} (hfresh : Fresh (deletions s.history) t data) :
    DeletionInv (cacheInsert t.key data s) := by
  have hds : deletions (s.history ++ [.inserted t.key data])
      = deletions s.history := deletions_stored rfl
  refine ⟨?_, ?_, ?_, ?_, ?_, ?_⟩
  · refine pairwise_respects_append h.safe ?_
    intro o ho
    exact (hfresh o ho).2.2
  · show FreshMemory (deletions (s.history ++ [_])) (s.tileMemoryCache.insert
      t.key data)
    rw [hds]
    intro k b o hk ho
    by_cases hkey : k = t.key
    · rw [hkey, AList.lookup_insert] at hk
      cases hk
      obtain ⟨htile, hvalid, hstale⟩ := hfresh o ho
      rw [htile]
      exact ⟨hkey, hvalid, hstale⟩
    · rw [AList.lookup_insert_ne hkey] at hk
      exact h.memory k b o hk ho
  · show FreshFiles (deletions (s.history ++ [_])) s.files
    rw [hds]
    exact h.files
  · show ∀ id w, s.writes.lookup id = some w →
      FreshWrite (deletions (s.history ++ [_])) w
    rw [hds]
    exact h.writes
  · show ∀ id r, s.reads.lookup id = some r →
      FreshRead (deletions (s.history ++ [_])) s.cacheGeneration r
    rw [hds]
    exact h.reads
  · show FreshDownloads (deletions (s.history ++ [_])) s.downloads
    rw [hds]
    exact h.downloads

/-- The invariant without one read. -/
theorem DeletionInv.forgetRead {s : State} (h : DeletionInv s)
    (read : ReadId) (r : CacheRead) : DeletionInv (forgetRead read r s) := by
  refine ⟨h.safe, h.memory, h.files, h.writes, ?_, h.downloads⟩
  intro id r' hid
  have hid : (s.reads.erase read).lookup id = some r' := hid
  by_cases heq : id = read
  · rw [heq, AList.lookup_erase] at hid
    cases hid
  · rw [AList.lookup_erase_ne heq] at hid
    exact h.reads id r' hid

/-- A request. -/
theorem Requested.deletionInv {key : String} {s u : State}
    {r : TileRequestResult} (h : Requested cfg key s r u)
    (hinv : DeletionInv s) : DeletionInv u := by
  cases h with
  | quiet r paths markers hown hr =>
      exact ⟨hinv.safe, hinv.memory, hinv.files, hinv.writes, hinv.reads,
        hinv.downloads⟩
  | loaded path data paths markers keys hown hread =>
      have hins := hinv.cacheInsert (readFile_fresh hinv hread)
      exact ⟨hins.safe, hins.memory, hins.files, hins.writes, hins.reads,
        hins.downloads⟩
  | scheduled d paths markers hown hkey hcanon hvalid =>
      exact ⟨hinv.safe, hinv.memory, hinv.files, hinv.writes, hinv.reads,
        hinv.downloads.schedule hvalid hcanon⟩
  | joined readKey keys paths markers hown hkeys =>
      exact ⟨hinv.safe, hinv.memory, hinv.files, hinv.writes, hinv.reads,
        hinv.downloads⟩
  | reading read paths markers hown hnone hgen hres hcanon =>
      refine ⟨hinv.safe, hinv.memory, hinv.files, hinv.writes, ?_,
        hinv.downloads⟩
      intro id r hid
      have hid : (s.reads.insert s.nextRead read).lookup id = some r := hid
      by_cases heq : id = s.nextRead
      · rw [heq, AList.lookup_insert] at hid
        cases hid
        refine ⟨hcanon, Nat.le_of_eq hgen, ?_⟩
        intro data hdata
        rw [hres] at hdata
        cases hdata
      · rw [AList.lookup_insert_ne heq] at hid
        exact hinv.reads id r hid

/-- The fallbacks of a read. -/
theorem retryReads_deletionInv (r : CacheRead)
    (requesters : List (String × Choice)) {s : State}
    (hdirs : OwnDirs s.providerCachePaths) (hinv : DeletionInv s) :
    DeletionInv (requesters.foldl (retryRead cfg r) s) := by
  induction requesters generalizing s with
  | nil => exact hinv
  | cons requester requesters ih =>
      obtain ⟨answer, u, hreq, hrest⟩ :=
        retryRead_requested hdirs cfg r requester
      have hinvu := hreq.deletionInv hinv
      have hdirsu := hreq.simulated.dirs
      rcases hrest with ⟨-, heq⟩ | ⟨-, signal, -, heq⟩
      · rw [List.foldl_cons, heq]
        exact ih hdirsu hinvu
      · rw [List.foldl_cons, heq]
        exact ih hdirsu ⟨hinvu.safe, hinvu.memory, hinvu.files, hinvu.writes,
          hinvu.reads, hinvu.downloads⟩

/-- The end of a client, whichever way. -/
theorem FreshDownloads.ended {ds : List (TileRange × ClientId)}
    {d : Downloads} (h : FreshDownloads ds d)
    (hscheduled : Downloads.Scheduled cfg d) {client : ClientId}
    {e : Downloads.Ended}
    (hend : Downloads.clientEnds cfg client d = some e) :
    FreshDownloads ds (Downloads.startQueuedDownloads cfg e.downloads) :=
  (h.clientEnds hscheduled hend).startQueued

/-- A finished client: only a download without a mark is stored. -/
theorem requestFinished_deletionInv {client : ClientId} {bytes : Bytes}
    {mayStore : Bool} {s u : State} (hinv : DeletionInv s)
    (hscheduled : Downloads.Scheduled cfg s.downloads)
    (hstep : requestFinished cfg client bytes mayStore s = some u) :
    DeletionInv u := by
  obtain ⟨ended, hended, hcases⟩ := requestFinished_inv hstep
  obtain ⟨hc, hmark, -, -⟩ := Downloads.clientEnds_inv hended
  have hdownloads := hinv.downloads.ended hscheduled hended
  obtain ⟨hvalid, hkeyed⟩ := hinv.downloads.keyed ended.client.download
    (Or.inl (Downloads.mem_running.2 ⟨client, ended.client, hc, rfl⟩))
  rcases hcases with rfl | ⟨hlive, rfl⟩
  · rw [emitReady_eq]
    exact ⟨hinv.safe, hinv.memory, hinv.files, hinv.writes, hinv.reads,
      hdownloads⟩
  · have hfresh : ∀ o, (responseBlob client bytes
        ended.client.download).origin = some o →
        o.tile = ended.client.download.tilePath.tile ∧
          ¬ o.Stale (deletions s.history) := by
      intro o ho
      cases ho
      refine ⟨rfl, ?_⟩
      intro hstale
      have hmarked := hinv.downloads.marked client ended.client hc hstale
      rw [hmark, decide_eq_false_iff_not] at hlive
      exact hlive hmarked
    have hbase : DeletionInv { s with downloads :=
        Downloads.startQueuedDownloads cfg ended.downloads } :=
      ⟨hinv.safe, hinv.memory, hinv.files, hinv.writes, hinv.reads,
        hdownloads⟩
    have hblob : Fresh (deletions s.history)
        ended.client.download.tilePath.tile
        (responseBlob client bytes ended.client.download) :=
      fun o ho => ⟨(hfresh o ho).1, hvalid, (hfresh o ho).2⟩
    have hins := hbase.cacheInsert hblob
    rw [← hkeyed] at hins
    refine ⟨hins.safe, hins.memory, hins.files, ?_, hins.reads,
      hins.downloads⟩
    have hds : deletions (s.history ++ [.inserted
        ended.client.download.canonicalKey
        (responseBlob client bytes ended.client.download)])
        = deletions s.history := deletions_stored rfl
    show ∀ id w, (s.writes.insert s.nextWrite _).lookup id = some w →
      FreshWrite (deletions (s.history ++ [_])) w
    rw [hds]
    intro id w hid
    by_cases heq : id = s.nextWrite
    · rw [heq, AList.lookup_insert] at hid
      cases hid
      exact ⟨fun o ho => (hfresh o ho).1, hvalid, hkeyed,
        fun _ _ o ho => (hfresh o ho).2⟩
    · rw [AList.lookup_insert_ne heq] at hid
      exact hinv.writes id w hid

/-- A write's worker commits fresh bytes. -/
theorem writeRuns_deletionInv {write : WriteId} {saved : Bool}
    {s u : State} (hinv : DeletionInv s)
    (hstep : writeRuns write saved s = some u) : DeletionInv u := by
  obtain ⟨w, hw, hrun, hcases⟩ := writeRuns_inv hstep
  have hfresh := hinv.writes write w hw
  have hwrites : ∀ result id w',
      (s.writes.insert write { w with result := some result }).lookup id
        = some w' → FreshWrite (deletions s.history) w' := by
    intro result id w' hid
    by_cases heq : id = write
    · rw [heq, AList.lookup_insert] at hid
      cases hid
      exact ⟨hfresh.origin, hfresh.valid, hfresh.keyed, fun h => by cases h⟩
    · rw [AList.lookup_insert_ne heq] at hid
      exact hinv.writes id w' hid
  rcases hcases with ⟨result, rfl⟩ | ⟨hlive, rfl⟩
  · exact ⟨hinv.safe, hinv.memory, hinv.files, hwrites result, hinv.reads,
      hinv.downloads⟩
  · have hds : deletions (s.history
        ++ [.written w.download.tilePath w.data]) = deletions s.history :=
      deletions_stored rfl
    refine ⟨pairwise_respects_append hinv.safe (hfresh.live hrun hlive), ?_, ?_,
      ?_, ?_, ?_⟩
    · show FreshMemory (deletions (s.history ++ [_])) s.tileMemoryCache
      rw [hds]
      exact hinv.memory
    · show FreshFiles (deletions (s.history ++ [_])) (s.files.insert
        w.download.tilePath { blob := w.data })
      rw [hds]
      intro path file hpath
      by_cases heq : path = w.download.tilePath
      · rw [heq, AList.lookup_insert] at hpath
        cases hpath
        rw [heq]
        intro o ho
        exact ⟨hfresh.origin o ho, hfresh.valid, hfresh.live hrun hlive o ho⟩
      · rw [AList.lookup_insert_ne heq] at hpath
        exact hinv.files path file hpath
    · show ∀ id w', (s.writes.insert write _).lookup id = some w' →
        FreshWrite (deletions (s.history ++ [_])) w'
      rw [hds]
      exact hwrites true
    · show ∀ id r, s.reads.lookup id = some r →
        FreshRead (deletions (s.history ++ [_])) s.cacheGeneration r
      rw [hds]
      exact hinv.reads
    · show FreshDownloads (deletions (s.history ++ [_])) s.downloads
      rw [hds]
      exact hinv.downloads

/-- A read's worker reads what the files hold. -/
theorem readRuns_deletionInv {read : ReadId} {s u : State}
    (hinv : DeletionInv s) (hstep : readRuns read s = some u) :
    DeletionInv u := by
  obtain ⟨r, data, hr, -, hdata, rfl⟩ := readRuns_inv hstep
  refine ⟨hinv.safe, hinv.memory, hinv.files, hinv.writes, ?_,
    hinv.downloads⟩
  intro id r' hid
  have hid : (s.reads.insert read { r with result := some data }).lookup id
      = some r' := hid
  by_cases heq : id = read
  · rw [heq, AList.lookup_insert] at hid
    cases hid
    have hold := hinv.reads read r hr
    refine ⟨hold.keyed, hold.generation_le, ?_⟩
    intro data' hdata' _
    cases hdata'
    rcases hdata with rfl | hfile
    · intro o ho
      cases ho
    · exact readFile_fresh hinv hfile
  · rw [AList.lookup_insert_ne heq] at hid
    exact hinv.reads id r' hid

/-- A finished read loads fresh bytes. -/
theorem readFinished_deletionInv {read : ReadId} {choices : Nat → Choice}
    {s u : State} (hinv : DeletionInv s)
    (hdirs : OwnDirs s.providerCachePaths)
    (hstep : readFinished cfg read choices s = some u) : DeletionInv u := by
  obtain ⟨r, data, hr, hdata, hcases⟩ := readFinished_inv hstep
  have hread := hinv.reads read r hr
  have hforget := hinv.forgetRead read r
  rcases hcases with ⟨hgen, -, keys, rfl⟩ | rfl | ⟨requesters, -, rfl⟩
  · rw [emitReady_eq]
    have hins := hforget.cacheInsert (hread.result data hdata hgen)
    rw [← hread.keyed] at hins
    exact ⟨hins.safe, hins.memory, hins.files, hins.writes, hins.reads,
      hins.downloads⟩
  · rw [emitFailed_eq]
    exact ⟨hforget.safe, hforget.memory, hforget.files, hforget.writes,
      hforget.reads, hforget.downloads⟩
  · exact retryReads_deletionInv r requesters hdirs hforget

/-- A new generation retires every read. -/
theorem FreshRead.retired {ds ds' : List (TileRange × ClientId)}
    {generation : Nat} {r : CacheRead} (h : FreshRead ds generation r) :
    FreshRead ds' (generation + 1) r := by
  refine ⟨h.keyed, Nat.le_succ_of_le h.generation_le, ?_⟩
  intro data _ hgen
  have hle := h.generation_le
  omega

-- ============================================================= deletion

/-- What a deletion reaches: the covered memory entries, registered
writes, reads and downloads. Its files are a hypothesis, since a deletion
that failed half way has not removed them all. -/
theorem Deletion.deletionInv {range : TileRange} {dir : TileDir}
    {s u : State} (h : Deletion range dir s u) (hinv : DeletionInv s)
    (hscheduled : Downloads.Scheduled cfg s.downloads)
    (hplain : PlainId range.provider)
    (hregistered : ∀ id w, s.writes.lookup id = some w → w.result = none →
      w.invalidated = false → range.Covers w.download.tilePath.tile →
      s.cacheWriteStates.lookup w.download.canonicalKey = some id)
    (ds : List (TileRange × ClientId))
    (hstarted : ∀ e ∈ ds, e.2 ≤ s.downloads.nextClient)
    (hnew : ∀ o : Origin, o.Stale ds → o.Stale (deletions s.history) ∨
      range.Covers o.tile)
    (hfiles : ∀ path file, u.files.lookup path = some file →
      ∀ o : Origin, file.blob.origin = some o → o.Stale ds →
      o.Stale (deletions s.history)) :
    FreshMemory ds u.tileMemoryCache ∧ FreshFiles ds u.files ∧
      (∀ id w, u.writes.lookup id = some w → FreshWrite ds w) ∧
      (∀ id r, u.reads.lookup id = some r →
        FreshRead ds u.cacheGeneration r) ∧
      FreshDownloads ds u.downloads := by
  obtain ⟨⟨files, keys, rfl⟩, hsub, -⟩ := h
  refine ⟨?_, ?_, ?_, ?_, ?_, ?_, ?_⟩
  · intro k data o hk ho
    have hk : (QHash.filterMapValues (fun key data =>
        if range.coversKey key then none else some data)
        s.tileMemoryCache).lookup k = some data := hk
    rw [QHash.lookup_filterMapValues] at hk
    obtain ⟨data', hdata', hkept⟩ := Option.bind_eq_some_iff.1 hk
    split at hkept
    · cases hkept
    · rename_i hcovers
      cases hkept
      obtain ⟨hkey, hvalid, hstale⟩ := hinv.memory k data o hdata' ho
      refine ⟨hkey, hvalid, ?_⟩
      intro hds
      rcases hnew o hds with hold | hcov
      · exact hstale hold
      · rw [hkey] at hcovers
        exact hcovers (hcov.coversKey hvalid hplain)
  · intro path file hpath o ho
    obtain ⟨htile, hvalid, hstale⟩ :=
      hinv.files path file (hsub path file hpath) o ho
    exact ⟨htile, hvalid, fun hds => hstale (hfiles path file hpath o ho hds)⟩
  · intro id w' hid
    have hid : (QHash.filterMapValues (fun id (w : CacheWrite) => some
        { w with
          invalidated := w.invalidated
            || range.coversWrite s.cacheWriteStates id }) s.writes).lookup id
        = some w' := hid
    rw [QHash.lookup_filterMapValues] at hid
    obtain ⟨w, hw, heq⟩ := Option.bind_eq_some_iff.1 hid
    have heq := Option.some.inj heq
    subst heq
    have hfresh := hinv.writes id w hw
    refine ⟨hfresh.origin, hfresh.valid, hfresh.keyed, ?_⟩
    intro hrun hlive o ho hds
    obtain ⟨hnotYet, hnot⟩ := Bool.or_eq_false_iff.1 hlive
    rcases hnew o hds with hold | hcov
    · exact hfresh.live hrun hnotYet o ho hold
    · -- a registered write of a covered tile is flagged now
      have hcov' : range.Covers w.download.tilePath.tile := by
        rw [← hfresh.origin o ho]
        exact hcov
      have hreg := hregistered id w hw hrun hnotYet hcov'
      refine Bool.eq_false_iff.1 hnot (List.any_eq_true.2
        ⟨⟨w.download.canonicalKey, id⟩, AList.mem_lookup_iff.1 hreg, ?_⟩)
      simp only [beq_self_eq_true, Bool.true_and]
      rw [hfresh.keyed]
      exact hcov'.coversKey hfresh.valid hplain
  · intro id r hid
    exact (hinv.reads id r hid).retired
  · exact hstarted
  · exact hinv.downloads.keyed
  · intro id c hc hds
    have hrunning := Downloads.mem_running.2 ⟨id, c, hc, rfl⟩
    obtain ⟨hvalid, hkeyed⟩ :=
      hinv.downloads.keyed c.download (Or.inl hrunning)
    show c.download.canonicalKey ∈ s.downloads.invalidated
      ∪ (s.downloads.active ∪ s.downloads.queuedKeys
        ∪ s.cacheWritesPendingKeys).filter fun key => range.coversKey key
    rw [Finset.mem_union]
    rcases hnew _ hds with hold | hcov
    · exact Or.inl (hinv.downloads.marked id c hc hold)
    · refine Or.inr (Finset.mem_filter.2 ⟨?_, ?_⟩)
      · rw [Finset.mem_union, Finset.mem_union]
        exact Or.inl (Or.inl (hscheduled.client_active hc))
      · rw [hkeyed]
        exact hcov.coversKey hvalid hplain

/-- Recording a deletion behind one that has removed its files, or behind
none when the range has no row. -/
theorem recordDeletion_deletionInv {range : TileRange} {u : State}
    (hsafe : u.history.Pairwise Respects)
    (hparts : let ds := deletions u.history
        ++ [(range, u.downloads.nextClient)]
      FreshMemory ds u.tileMemoryCache ∧ FreshFiles ds u.files ∧
        (∀ id w, u.writes.lookup id = some w → FreshWrite ds w) ∧
        (∀ id r, u.reads.lookup id = some r →
          FreshRead ds u.cacheGeneration r) ∧
        FreshDownloads ds u.downloads) :
    DeletionInv (recordDeletion range u) := by
  have hds : deletions (recordDeletion range u).history
      = deletions u.history ++ [(range, u.downloads.nextClient)] :=
    deletions_append u.history (.deleted range u.downloads.nextClient)
  obtain ⟨hmemory, hfiles, hwrites, hreads, hdownloads⟩ := hparts
  refine ⟨?_, ?_, ?_, ?_, ?_, ?_⟩
  · refine pairwise_respects_append hsafe ?_
    intro o ho
    cases ho
  · rw [hds]
    exact hmemory
  · rw [hds]
    exact hfiles
  · rw [hds]
    exact hwrites
  · rw [hds]
    exact hreads
  · rw [hds]
    exact hdownloads

/-- The condition on a step: a write-finished callback finds no running
download of its tile that a deletion has covered; and a deletion is of an
id whose keys read back, every write of a covered tile that may still run
is the registered one of its key, and every file with downloaded bytes of
a covered tile lies in the directory the deletion lists. -/
def Spared (cfg : Config) (a : Action) (s : State) : Prop :=
  match a with
  | .writeFinished write => ∀ w, s.writes.lookup write = some w →
      ∀ id c, s.downloads.clients.lookup id = some c →
        c.download.canonicalKey = w.download.canonicalKey →
        ¬ Origin.Stale (deletions s.history) ⟨id, c.download.tilePath.tile⟩
  | .deleteTiles choice range _ =>
      PlainId range.provider ∧
      (∀ id w, s.writes.lookup id = some w → w.result = none →
        w.invalidated = false → range.Covers w.download.tilePath.tile →
        s.cacheWriteStates.lookup w.download.canonicalKey = some id) ∧
      ∀ dir, (providerCachePath cfg choice range.provider s).1 = some dir →
        ∀ path file o, s.files.lookup path = some file →
          file.blob.origin = some o → range.Covers o.tile → path.dir = dir
  | _ => True

/-- The condition does not look at signals. -/
theorem Spared.of_outbox {a : Action} {s : State} (h : Spared cfg a s)
    (outbox : List Signal) : Spared cfg a { s with outbox := outbox } := by
  cases a with
  | deleteTiles choice range refuses =>
      obtain ⟨hplain, hregistered, hdirs⟩ := h
      refine ⟨hplain, hregistered, ?_⟩
      intro dir hdir
      apply hdirs dir
      rw [← hdir]
      unfold providerCachePath
      simp only
      cases s.configuredProviders.lookup range.provider with
      | none => rfl
      | some source =>
          cases s.providerCachePaths.lookup range.provider with
          | some dir => rfl
          | none =>
              simp only
              split <;> rfl
  | writeFinished write => exact h
  | _ => trivial

/-- A spared deletion. -/
theorem deleteTiles_deletionInv {choice : Choice} {range : TileRange}
    {refuses : TilePath → Bool} {s : State} (hinv : DeletionInv s)
    (htables : TablesInv cfg s)
    (hspared : Spared cfg (.deleteTiles choice range refuses) s) :
    DeletionInv (deleteTiles cfg choice range refuses s).2 := by
  obtain ⟨hplain, hregistered, hdirs⟩ := hspared
  obtain ⟨paths, markers, hown, ⟨-, heq⟩ | ⟨dir, hdir, hsome, heq⟩⟩ :=
    deleteTiles_cases cfg choice range refuses htables.dirs
  · rw [heq]
    exact ⟨hinv.safe, hinv.memory, hinv.files, hinv.writes, hinv.reads,
      hinv.downloads⟩
  · rw [heq]
    have hbase : DeletionInv
        { s with providerCachePaths := paths, markers := markers } :=
      ⟨hinv.safe, hinv.memory, hinv.files, hinv.writes, hinv.reads,
        hinv.downloads⟩
    have hstarted : ∀ e ∈ deletions s.history
        ++ [(range, s.downloads.nextClient)],
        e.2 ≤ s.downloads.nextClient := by
      intro e he
      rcases List.mem_append.1 he with he | he
      · exact hinv.downloads.started e he
      · rw [List.mem_singleton.1 he]
    rcases deleteFrom_cases range refuses dir
      { s with providerCachePaths := paths, markers := markers }
      with ⟨heq, hrows⟩ | ⟨u, hdel, heq | ⟨count, heq, hgone⟩⟩
    · rw [heq]
      -- a range without rows makes no valid tile stale
      have hnew : ∀ t : Tile, t.Valid → ∀ o : Origin, o.tile = t →
          o.Stale (deletions s.history ++ [(range, s.downloads.nextClient)])
          → o.Stale (deletions s.history) := by
        intro t hvalid o ho hds
        rcases hds.cases with hold | hcov
        · exact hold
        · rw [ho] at hcov
          exact absurd (hcov.contains hvalid) (by simp [hrows t])
      refine recordDeletion_deletionInv hinv.safe
        ⟨?_, ?_, ?_, ?_, hstarted, hinv.downloads.keyed, ?_⟩
      · intro k data o hk ho
        obtain ⟨hkey, hvalid, hstale⟩ := hinv.memory k data o hk ho
        exact ⟨hkey, hvalid, fun hds => hstale (hnew _ hvalid o rfl hds)⟩
      · intro path file hpath o ho
        obtain ⟨htile, hvalid, hstale⟩ := hinv.files path file hpath o ho
        exact ⟨htile, hvalid, fun hds => hstale (hnew _ hvalid o htile hds)⟩
      · intro id w hw
        have hfresh := hinv.writes id w hw
        refine ⟨hfresh.origin, hfresh.valid, hfresh.keyed, ?_⟩
        intro hrun hlive o ho hds
        exact hfresh.live hrun hlive o ho
          (hnew _ hfresh.valid o (hfresh.origin o ho) hds)
      · intro id r hr
        have hfresh := hinv.reads id r hr
        refine ⟨hfresh.keyed, hfresh.generation_le, ?_⟩
        intro data hdata hgen o ho
        obtain ⟨htile, hvalid, hstale⟩ := hfresh.result data hdata hgen o ho
        exact ⟨htile, hvalid, fun hds => hstale (hnew _ hvalid o htile hds)⟩
      · intro id c hc hds
        obtain ⟨hvalid, -⟩ := hinv.downloads.keyed c.download
          (Or.inl (Downloads.mem_running.2 ⟨id, c, hc, rfl⟩))
        exact hinv.downloads.marked id c hc (hnew _ hvalid _ rfl hds)
    · rw [heq]
      obtain ⟨hmemory, hfiles, hwrites, hreads, hdownloads⟩ :=
        hdel.deletionInv hbase htables.scheduled hplain hregistered
          (deletions s.history) hinv.downloads.started
          (fun o h => Or.inl h) (fun _ _ _ _ _ h => h)
      have hhistory : u.history = s.history := by
        obtain ⟨⟨files, keys, rfl⟩, -, -⟩ := hdel
        rfl
      rw [← hhistory] at hmemory hfiles hwrites hreads hdownloads
      refine ⟨?_, hmemory, hfiles, hwrites, hreads, hdownloads⟩
      rw [hhistory]
      exact hinv.safe
    · rw [heq]
      have hhistory : u.history = s.history := by
        obtain ⟨⟨files, keys, rfl⟩, -, -⟩ := hdel
        rfl
      have hnext : u.downloads.nextClient = s.downloads.nextClient := by
        obtain ⟨⟨files, keys, rfl⟩, -, -⟩ := hdel
        rfl
      refine recordDeletion_deletionInv ?_ ?_
      · rw [hhistory]
        exact hinv.safe
      · rw [hhistory, hnext]
        refine hdel.deletionInv hbase htables.scheduled hplain hregistered _
          hstarted (fun o h => h.cases) ?_
        -- the files that are left are outside the range
        intro path file hpath o ho hds
        rcases hds.cases with hold | hcov
        · exact hold
        · have hpath' := hdel.files path file hpath
          obtain ⟨htile, hvalid, -⟩ := hinv.files path file hpath' o ho
          have hpathDir := hdirs dir hsome path file o hpath' ho hcov
          rw [htile] at hcov
          have hprovider : { path.tile with provider := range.provider }
              = path.tile := by
            rw [← hcov.provider]
          have hcovers : range.coversFile dir path = true := by
            unfold TileRange.coversFile
            rw [hprovider, hcov.contains hvalid, hpathDir]
            have hx0 : 0 ≤ path.x := hvalid.x_nonneg
            have hx : path.x < tileCount range.zoom := by
              rw [← hcov.zoom]
              exact hvalid.x_lt
            simp [hx0, hx]
          rw [hgone path file hpath] at hcovers
          cases hcovers

-- ============================================================= every step

/-- Every spared transition keeps the invariant. -/
theorem perform_deletionInv {a : Action} {s u : State}
    (hinv : DeletionInv s) (htables : TablesInv cfg s)
    (hspared : Spared cfg a s) (hstep : perform cfg a s = some u) :
    DeletionInv u := by
  have hanswered : ∀ key (r : TileRequestResult × State), DeletionInv r.2 →
      DeletionInv (answered key r) := by
    intro key r hr
    unfold answered
    split
    · exact ⟨hr.safe, hr.memory, hr.files, hr.writes, hr.reads,
        hr.downloads⟩
    · exact hr
  cases a with
  | getTile choice provider z x y key =>
      cases hstep
      exact hanswered key _ ((getTile_requested htables.dirs cfg choice
        provider z x y key).deletionInv hinv)
  | getTileForHttp choice provider z x y key =>
      cases hstep
      exact hanswered key _ ((getTileForHttp_requested htables.dirs cfg
        choice provider z x y key).deletionInv hinv)
  | requestFinished client bytes mayStore =>
      exact requestFinished_deletionInv hinv htables.scheduled hstep
  | requestError client reason =>
      obtain ⟨ended, hended, rfl⟩ := requestError_inv hstep
      rw [emitFailed_eq]
      exact ⟨hinv.safe, hinv.memory, hinv.files, hinv.writes, hinv.reads,
        hinv.downloads.ended htables.scheduled hended⟩
  | writeRuns write saved => exact writeRuns_deletionInv hinv hstep
  | writeFinished write =>
      obtain ⟨w, hw, -, rfl⟩ := writeFinished_inv hstep
      rw [emitReady_eq]
      refine ⟨hinv.safe, hinv.memory, hinv.files, ?_, hinv.reads,
        hinv.downloads.started, hinv.downloads.keyed, ?_⟩
      · intro id w' hid
        have hid : (s.writes.erase write).lookup id = some w' := hid
        by_cases heq : id = write
        · rw [heq, AList.lookup_erase] at hid
          cases hid
        · rw [AList.lookup_erase_ne heq] at hid
          exact hinv.writes id w' hid
      · intro id c hc hstale
        -- the mark that goes is no running download's
        refine Finset.mem_erase.2
          ⟨?_, hinv.downloads.marked id c hc hstale⟩
        intro hkey
        exact hspared w hw id c hc hkey hstale
  | readRuns read => exact readRuns_deletionInv hinv hstep
  | readFinished read choices =>
      exact readFinished_deletionInv hinv htables.dirs hstep
  | deleteTiles choice range refuses =>
      cases hstep
      exact deleteTiles_deletionInv hinv htables hspared
  | cancelUpstreamDownloads =>
      cases hstep
      unfold cancelUpstreamDownloads
      rw [emitFailed_eq]
      exact ⟨hinv.safe, hinv.memory, hinv.files, hinv.writes, hinv.reads,
        hinv.downloads.cancel htables.scheduled⟩
  | configureProviders providers coverage defaultCoverage =>
      cases hstep
      refine ⟨hinv.safe, ?_, hinv.files, hinv.writes, ?_, hinv.downloads⟩
      · intro k data o hk
        cases hk
      · intro id r hr
        exact (hinv.reads id r hr).retired
  | setPermanentDataDirectory directory =>
      cases hstep
      refine ⟨hinv.safe, hinv.memory, hinv.files, hinv.writes, ?_,
        hinv.downloads⟩
      intro id r hr
      exact (hinv.reads id r hr).retired
  | setRemoteFetchEnabled enabled =>
      cases hstep
      exact ⟨hinv.safe, hinv.memory, hinv.files, hinv.writes, hinv.reads,
        hinv.downloads⟩
  | evict key =>
      cases hstep
      refine ⟨hinv.safe, ?_, hinv.files, hinv.writes, hinv.reads,
        hinv.downloads⟩
      intro k data o hk
      have hk : (s.tileMemoryCache.erase key).lookup k = some data := hk
      by_cases heq : k = key
      · rw [heq, AList.lookup_erase] at hk
        cases hk
      · rw [AList.lookup_erase_ne heq] at hk
        exact hinv.memory k data o hk
  | outsideChange path outside =>
      cases hstep
      refine ⟨hinv.safe, hinv.memory, ?_, hinv.writes, hinv.reads,
        hinv.downloads⟩
      intro p file hp
      cases outside with
      | none =>
          have hp : (s.files.erase path).lookup p = some file := hp
          by_cases heq : p = path
          · rw [heq, AList.lookup_erase] at hp
            cases hp
          · rw [AList.lookup_erase_ne heq] at hp
            exact hinv.files p file hp
      | some outside =>
          have hp : (s.files.insert path outside.file).lookup p
              = some file := hp
          by_cases heq : p = path
          · rw [heq, AList.lookup_insert] at hp
            cases hp
            intro o ho
            cases ho
          · rw [AList.lookup_insert_ne heq] at hp
            exact hinv.files p file hp

/-- Deleted tiles stay deleted in every run of spared steps: whatever is
inserted into the memory cache or written to a file behind a deletion is
from no download started before it whose tile it covers. -/
theorem deleted_stay_deleted {files : QHash TilePath OutsideFile}
    {markers : QHash String String} {s : State}
    (h : Run (apply cfg) (Spared cfg) (State.init files markers) s) :
    NoResurrection s.history := by
  have hinv : HeldInv cfg s ∧ DeletionInv s := by
    refine h.invariant (P := fun s => HeldInv cfg s ∧ DeletionInv s)
      ⟨heldInv_init files markers, deletionInv_init files markers⟩ ?_
    intro a s₁ s₂ hboth hspared hstep
    obtain ⟨hheld, hdel⟩ := hboth
    refine ⟨(apply_dutiful hheld hstep).1, ?_⟩
    exact perform_deletionInv (s := { s₁ with outbox := [] })
      ⟨hdel.safe, hdel.memory, hdel.files, hdel.writes, hdel.reads,
        hdel.downloads⟩
      (hheld.tables.of_tables rfl rfl rfl rfl rfl rfl rfl)
      (hspared.of_outbox []) hstep
  exact noResurrection_of_pairwise hinv.2.safe

/-- The range of one OpenStreetMap tile. -/
def oneTile : TileRange :=
  { provider := openStreetMap, zoom := 3, xMin := 0, xMax := 0, yMin := 0,
    yMax := 0 }

/-- Its file in the ordinary cache. -/
def oneTilePath : TilePath :=
  ⟨⟨"/var/cache/aowis", openStreetMap, none⟩, 3, 0, 0⟩

/-- The tile is downloaded and its file written. -/
def storeTile : List Action :=
  [ .getTile {} openStreetMap 3 0 0 "a", .requestFinished 0 [1] true,
    .writeRuns 0 true ]

/-- It is downloaded and stored, deleted, and downloaded again. -/
theorem deleted_stay_deleted_storeTile :
    ∃ s, Run (apply smallConfig) (Spared smallConfig) (State.init ∅ ∅) s ∧
      NoResurrection s.history ∧ s.history.length = 4 := by
  -- the write's callback finds no running download
  have hstored : (runActions (apply smallConfig) storeTile
      (State.init ∅ ∅)).map (fun s => s.downloads.clients.keys)
      = some [] := by
    decide +kernel
  obtain ⟨s₁, hs₁, hclients⟩ := Option.map_eq_some_iff.1 hstored
  have hfinished : (runActions (apply smallConfig)
      (storeTile ++ [.writeFinished 0]) (State.init ∅ ∅)).map (fun s =>
        (s.writes.keys, s.files.keys,
          (providerCachePath smallConfig {} openStreetMap s).1))
      = some ([], [oneTilePath], some oneTilePath.dir) := by
    decide +kernel
  obtain ⟨s₂, hs₂, hval⟩ := Option.map_eq_some_iff.1 hfinished
  simp only [Prod.mk.injEq] at hval
  have hrun : (runActions (apply smallConfig)
      ((storeTile ++ [.writeFinished 0])
        ++ [.deleteTiles {} oneTile fun _ => false,
          .getTile {} openStreetMap 3 0 0 "b",
          .requestFinished 1 [2] true]) (State.init ∅ ∅)).map
      (fun s => s.history.length) = some 4 := by
    decide +kernel
  obtain ⟨s, hs, hlength⟩ := Option.map_eq_some_iff.1 hrun
  have hrest := runActions_rest hs₂ hs
  simp only [runActions, Option.bind_eq_some_iff] at hrest
  obtain ⟨s₃, hdeleted, s₄, hasked, s₅, hlast, heq⟩ := hrest
  cases heq
  have hspared₁ : Spared smallConfig (.writeFinished 0) s₁ := by
    intro w hw id c hc
    have hmem : id ∈ s₁.downloads.clients.keys :=
      AList.mem_keys.1 (AList.lookup_isSome.1 (by rw [hc]; rfl))
    rw [hclients] at hmem
    cases hmem
  have hspared₂ : Spared smallConfig
      (.deleteTiles {} oneTile fun _ => false) s₂ := by
    refine ⟨⟨by decide, by decide, by decide⟩, ?_, ?_⟩
    · intro id w hw
      have hmem : id ∈ s₂.writes.keys :=
        AList.mem_keys.1 (AList.lookup_isSome.1 (by rw [hw]; rfl))
      rw [hval.1] at hmem
      cases hmem
    · intro dir hdir path file o hpath
      have hmem : path ∈ s₂.files.keys :=
        AList.mem_keys.1 (AList.lookup_isSome.1 (by rw [hpath]; rfl))
      have hdir : (providerCachePath smallConfig {} openStreetMap s₂).1
          = some dir := hdir
      rw [hval.2.1, List.mem_singleton] at hmem
      rw [hval.2.2] at hdir
      cases hdir
      rw [hmem]
      exact fun _ _ => rfl
  have hspared : Run (apply smallConfig) (Spared smallConfig)
      (State.init ∅ ∅) s := by
    refine ((((?_ : Run _ _ _ s₁).step (.writeFinished 0) hspared₁
      (runActions_one (runActions_rest hs₁ hs₂))).step _ hspared₂
      hdeleted).step _ ?_ hasked).step _ ?_ hlast
    · refine run_of_admitted hs₁ ?_
      intro a ha u
      simp only [storeTile, List.mem_cons, List.not_mem_nil, or_false] at ha
      rcases ha with rfl | rfl | rfl
      · trivial
      · trivial
      · trivial
    · trivial
    · trivial
  exact ⟨s, hspared, deleted_stay_deleted hspared, hlength⟩

/-- The tile is downloaded (client 0) and its cache write waits for a
worker while the memory cache drops the tile; a request downloads it again
(client 1). It is deleted, the waiting write ends and takes the mark of
the running download off, and that download ends. -/
def takenMark : List Action :=
  [ .getTile {} openStreetMap 3 0 0 "a", .requestFinished 0 [1] true,
    .evict (Tile.mk openStreetMap 3 0 0).key,
    .getTile {} openStreetMap 3 0 0 "b",
    .deleteTiles {} oneTile fun _ => false,
    .writeRuns 0 true, .writeFinished 0, .requestFinished 1 [2] true ]

/-- Behind the deletion the bytes of the older download are inserted. -/
theorem takenMark_resurrects :
    ¬ ∀ s, Reachable smallConfig s → NoResurrection s.history := by
  intro hclaim
  have hrun : (runActions (apply smallConfig) takenMark
      (State.init ∅ ∅)).map (fun s => s.history.drop 1)
      = some [.deleted oneTile 2, .inserted
          (Tile.mk openStreetMap 3 0 0).key
          ⟨[2], some ⟨1, Tile.mk openStreetMap 3 0 0⟩⟩] := by
    decide +kernel
  obtain ⟨s, hs, hval⟩ := Option.map_eq_some_iff.1 hrun
  have hsplit : s.history = s.history.take 1 ++ _ :=
    (List.take_append_drop 1 s.history).symm
  rw [hval] at hsplit
  have hle := hclaim s ⟨∅, ∅, run_of_runActions hs⟩ _ oneTile 2 _ hsplit _
    List.mem_cons_self ⟨1, Tile.mk openStreetMap 3 0 0⟩ rfl
    ⟨rfl, rfl, ⟨by decide, by decide⟩, 0, by decide, by decide⟩
  exact absurd hle (by decide)

end AowisMap.Maps
