/-
No request for a tile is lost: a response key answered pending is held
until a signal is emitted for it.

# Holders

A download, running or queued, holds its own response key and the keys
joined to its tile (`Downloads.Holds`); a cache write holds the keys its
download handed over; a cache read holds the keys waiting for it. `Held`
is their disjunction. An empty response key asks for no answer, so the
results are about the others.

# One transition

`Passed s u` says what a transition, or a part of one, does with held
keys: each is signalled or still held, and a signalled key no longer
awaits an answer. It composes, so a callback that ends a holder, scans
the queue, answers some keys and asks again for others is the
composition of its parts.
-/
import AowisMap.Maps.Proofs.Refinement

namespace AowisMap.Maps

open Lib

variable {cfg : Config}

namespace Downloads

-- ============================================================ downloads

/-- A running or queued download answers a key. -/
def Holds (s : Downloads) (k : String) : Prop :=
  ∃ d, (d ∈ s.running ∨ d ∈ s.queued) ∧
    (d.responseKey = k ∨ k ∈ s.joinedAt d.canonicalKey)

/-- Client identities not given out yet are free. -/
def FreshClients (s : Downloads) : Prop :=
  ∀ id, s.nextClient ≤ id → s.clients.lookup id = none

theorem mem_running {s : Downloads} {d : QueuedDownload} :
    d ∈ s.running ↔ ∃ id c, s.clients.lookup id = some c ∧
      c.download = d := by
  unfold running
  rw [List.mem_map]
  constructor
  · intro h
    obtain ⟨c, hc, rfl⟩ := h
    obtain ⟨id, hid⟩ := QHash.mem_values.1 hc
    exact ⟨id, c, hid, rfl⟩
  · intro h
    obtain ⟨id, c, hid, rfl⟩ := h
    exact ⟨c, QHash.mem_values.2 ⟨id, hid⟩, rfl⟩

theorem mem_appendNew {keys : List String} {key k : String} :
    k ∈ appendNew keys key ↔ k ∈ keys ∨ k = key := by
  unfold appendNew
  split
  · rename_i hmem
    constructor
    · exact Or.inl
    · intro h
      rcases h with h | rfl
      · exact h
      · exact hmem
  · rw [List.mem_append, List.mem_singleton]

theorem mem_foldl_appendNew {new : List String} {keys : List String}
    {k : String} : k ∈ new.foldl appendNew keys ↔ k ∈ keys ∨ k ∈ new := by
  induction new generalizing keys with
  | nil => simp
  | cons key new ih =>
      rw [List.foldl_cons, ih, mem_appendNew, List.mem_cons, or_assoc]

/-- The keys a download hands over when it ends. -/
theorem mem_responseKeys {s : Downloads} {d : QueuedDownload} {k : String}
    (hk : k ≠ "") : k ∈ s.responseKeys d
      ↔ d.responseKey = k ∨ k ∈ s.joinedAt d.canonicalKey := by
  unfold responseKeys
  rw [mem_foldl_appendNew]
  split
  · rw [List.mem_singleton, eq_comm]
  · rename_i hempty
    constructor
    · intro h
      rcases h with h | h
      · cases h
      · exact Or.inr h
    · intro h
      rcases h with h | h
      · rw [h] at hempty
        exact absurd hk hempty
      · exact Or.inr h

/-- Joined keys after a join. -/
theorem mem_joinedAt_join {s : Downloads} {d : QueuedDownload}
    {c k : String} : k ∈ (joinDownload d s).joinedAt c
      ↔ k ∈ s.joinedAt c ∨
        c = d.canonicalKey ∧ k = d.responseKey ∧ k ≠ "" := by
  unfold joinDownload
  split
  · rename_i hne
    unfold joinedAt
    by_cases hc : c = d.canonicalKey
    · subst hc
      rw [AList.lookup_insert, Option.getD_some, mem_appendNew]
      constructor
      · intro h
        rcases h with h | rfl
        · exact Or.inl h
        · exact Or.inr ⟨rfl, rfl, hne⟩
      · intro h
        rcases h with h | ⟨-, hk, -⟩
        · exact Or.inl h
        · exact Or.inr hk
    · rw [AList.lookup_insert_ne hc]
      constructor
      · exact Or.inl
      · intro h
        rcases h with h | ⟨heq, -⟩
        · exact h
        · exact absurd heq hc
  · rename_i hempty
    constructor
    · exact Or.inl
    · intro h
      rcases h with h | ⟨-, rfl, hne⟩
      · exact h
      · exact absurd hne hempty

/-- Creating the clients of marked downloads makes them running. -/
theorem startAll_spec {marked : List QueuedDownload} {s : Downloads}
    (hfresh : FreshClients s) :
    (marked.foldl (startMapTileDownload cfg) s).joinedResponseKeys
        = s.joinedResponseKeys ∧
      (marked.foldl (startMapTileDownload cfg) s).queued = s.queued ∧
      ∀ d, d ∈ s.running ∨ d ∈ marked →
        d ∈ (marked.foldl (startMapTileDownload cfg) s).running := by
  induction marked generalizing s with
  | nil =>
      refine ⟨rfl, rfl, ?_⟩
      intro d hd
      rcases hd with hd | hd
      · exact hd
      · cases hd
  | cons e marked ih =>
      have hrun : ∀ d, d ∈ s.running ∨ d = e →
          d ∈ (startMapTileDownload cfg s e).running := by
        intro d hd
        rw [mem_running]
        show ∃ id c, (s.clients.insert s.nextClient _).lookup id = some c ∧ _
        rcases hd with hd | rfl
        · obtain ⟨id, c, hc, hcd⟩ := mem_running.1 hd
          have hne : id ≠ s.nextClient := by
            intro heq
            rw [heq, hfresh s.nextClient (Nat.le_refl _)] at hc
            cases hc
          exact ⟨id, c, by rw [AList.lookup_insert_ne hne, hc], hcd⟩
        · exact ⟨s.nextClient, _, AList.lookup_insert _, rfl⟩
      have hfresh' : FreshClients (startMapTileDownload cfg s e) := by
        intro id hid
        have hid : s.nextClient + 1 ≤ id := hid
        show (s.clients.insert s.nextClient _).lookup id = none
        rw [AList.lookup_insert_ne (Nat.ne_of_gt hid)]
        exact hfresh id (Nat.le_of_succ_le hid)
      obtain ⟨hjoined, hqueued, hall⟩ := ih hfresh'
      refine ⟨hjoined, hqueued, ?_⟩
      intro d hd
      apply hall
      rcases hd with hd | hd
      · exact Or.inl (hrun d (Or.inl hd))
      · rcases List.mem_cons.1 hd with hd | hd
        · exact Or.inl (hrun d (Or.inr hd))
        · exact Or.inr hd

/-- The loop only moves downloads from the queue to the marked ones. -/
theorem startLoop_spec (rounds : Nat) (s : Downloads) :
    (startLoop cfg rounds s).1.joinedResponseKeys = s.joinedResponseKeys ∧
      (startLoop cfg rounds s).1.clients = s.clients ∧
      (startLoop cfg rounds s).1.nextClient = s.nextClient ∧
      ∀ d ∈ s.queued, d ∈ (startLoop cfg rounds s).1.queued ∨
        d ∈ (startLoop cfg rounds s).2 := by
  induction rounds generalizing s with
  | zero => exact ⟨rfl, rfl, rfl, fun d hd => Or.inl hd⟩
  | succ rounds ih =>
      rw [startLoop]
      split
      · split
        · exact ⟨rfl, rfl, rfl, fun d hd => Or.inl hd⟩
        · rename_i e rest hsome
          obtain ⟨pre, post, hqueue, rfl, -, -⟩ := takeEligible_some hsome
          obtain ⟨hjoined, hclients, hnext, hkept⟩ := ih
            (markDownloadStartedLocked cfg e { s with
              queued := pre ++ post
              queuedKeys := s.queuedKeys.erase e.canonicalKey })
          refine ⟨hjoined, hclients, hnext, ?_⟩
          intro d hd
          rw [hqueue, List.mem_append, List.mem_cons] at hd
          rcases hd with hd | rfl | hd
          · rcases hkept d (List.mem_append_left _ hd) with h | h
            · exact Or.inl h
            · exact Or.inr (List.mem_cons_of_mem _ h)
          · exact Or.inr List.mem_cons_self
          · rcases hkept d (List.mem_append_right _ hd) with h | h
            · exact Or.inl h
            · exact Or.inr (List.mem_cons_of_mem _ h)
      · exact ⟨rfl, rfl, rfl, fun d hd => Or.inl hd⟩

/-- Scanning the queue loses no holder. -/
theorem holds_startQueued {s : Downloads} (hfresh : FreshClients s)
    {k : String} (h : Holds s k) :
    Holds (startQueuedDownloads cfg s) k := by
  obtain ⟨hjoined, hclients, hnext, hkept⟩ :=
    @startLoop_spec cfg s.queued.length s
  have hfresh' : FreshClients (startLoop cfg s.queued.length s).1 := by
    unfold FreshClients
    rw [hclients, hnext]
    exact hfresh
  obtain ⟨hjoined', hqueued, hrunning⟩ := @startAll_spec cfg
    (startLoop cfg s.queued.length s).2 _ hfresh'
  obtain ⟨d, hd, hk⟩ := h
  refine ⟨d, ?_, ?_⟩
  · rcases hd with hd | hd
    · refine Or.inl (hrunning d (Or.inl ?_))
      unfold running
      rw [hclients]
      exact hd
    · rcases hkept d hd with hd | hd
      · refine Or.inr ?_
        unfold startQueuedDownloads
        rw [hqueued]
        exact hd
      · exact Or.inl (hrunning d (Or.inr hd))
  · have heq : (startQueuedDownloads cfg s).joinedAt d.canonicalKey
        = s.joinedAt d.canonicalKey := by
      unfold joinedAt startQueuedDownloads
      rw [hjoined', hjoined]
    rw [heq]
    exact hk

/-- A download that ends hands over its keys; everybody else keeps
theirs. -/
theorem holds_clientEnds {s : Downloads} {client : ClientId} {e : Ended}
    (hend : clientEnds cfg client s = some e) {k : String} (hk : k ≠ "")
    (h : Holds s k) : k ∈ e.responseKeys ∨ Holds e.downloads k := by
  obtain ⟨hc, -, hkeys, heq⟩ := clientEnds_inv hend
  rw [hkeys, mem_responseKeys hk]
  by_cases hmine : e.client.download.responseKey = k
      ∨ k ∈ s.joinedAt e.client.download.canonicalKey
  · exact Or.inl hmine
  · refine Or.inr ?_
    obtain ⟨d, hd, hkd⟩ := h
    have hjoined : k ∈ s.joinedAt d.canonicalKey →
        k ∈ e.downloads.joinedAt d.canonicalKey := by
      intro hj
      have hne : d.canonicalKey ≠ e.client.download.canonicalKey := by
        intro hcan
        rw [hcan] at hj
        exact hmine (Or.inr hj)
      rw [heq]
      show k ∈ ((s.joinedResponseKeys.erase _).lookup _).getD []
      rw [AList.lookup_erase_ne hne]
      exact hj
    refine ⟨d, ?_, hkd.imp_right hjoined⟩
    rcases hd with hd | hd
    · refine Or.inl ?_
      obtain ⟨id, c, hid, rfl⟩ := mem_running.1 hd
      have hne : id ≠ client := by
        intro hcl
        rw [hcl, hc] at hid
        cases hid
        exact hmine hkd
      rw [mem_running, heq]
      refine ⟨id, c, ?_, rfl⟩
      show (s.clients.erase client).lookup id = some c
      rw [AList.lookup_erase_ne hne, hid]
    · refine Or.inr ?_
      rw [heq]
      exact hd

/-- Scheduling loses no holder, and a scheduled download's key is held.
-/
theorem holds_schedule {s : Downloads} (hfresh : FreshClients s)
    (hqueued : ∀ c, c ∈ s.queuedKeys → c ∈ s.queued.map (·.canonicalKey))
    (hactive : ∀ c, c ∈ s.active → c ∈ s.running.map (·.canonicalKey))
    (d : QueuedDownload) :
    (∀ k, Holds s k → Holds (scheduleMapTileDownload cfg d s).2 k) ∧
      ((scheduleMapTileDownload cfg d s).1 = .scheduled →
        d.responseKey ≠ "" →
        Holds (scheduleMapTileDownload cfg d s).2 d.responseKey) := by
  rcases schedule_cases cfg d s with ⟨hbusy, heq⟩ |
    ⟨-, -, ⟨-, heq⟩ | ⟨-, ⟨-, heq⟩ | ⟨-, heq⟩⟩⟩
  · rw [heq]
    have hmem : ∀ q : QueuedDownload, (q ∈ s.running ∨ q ∈ s.queued) →
        q ∈ (joinDownload d s).running ∨ q ∈ (joinDownload d s).queued := by
      intro q hq
      unfold joinDownload
      split
      · exact hq
      · exact hq
    refine ⟨?_, ?_⟩
    · intro k hk
      obtain ⟨q, hq, hkq⟩ := hk
      exact ⟨q, hmem q hq,
        hkq.imp_right fun hj => mem_joinedAt_join.2 (Or.inl hj)⟩
    · intro _ hne
      have hjoined : ∀ q : QueuedDownload,
          q.canonicalKey = d.canonicalKey →
          d.responseKey ∈ (joinDownload d s).joinedAt q.canonicalKey :=
        fun q hq => mem_joinedAt_join.2 (Or.inr ⟨hq, rfl, hne⟩)
      rcases hbusy with hbusy | hbusy
      · obtain ⟨q, hq, hcan⟩ := List.mem_map.1 (hactive _ hbusy)
        exact ⟨q, hmem q (Or.inl hq), Or.inr (hjoined q hcan)⟩
      · obtain ⟨q, hq, hcan⟩ := List.mem_map.1 (hqueued _ hbusy)
        exact ⟨q, hmem q (Or.inr hq), Or.inr (hjoined q hcan)⟩
  · rw [heq]
    have hfresh' : FreshClients (markDownloadStartedLocked cfg
        (s.numbered d) { s with nextTicket := s.nextTicket + 1 }) := hfresh
    obtain ⟨-, -, hrunning⟩ := @startAll_spec cfg
      [s.numbered d] _ hfresh'
    refine ⟨?_, ?_⟩
    · intro k hk
      obtain ⟨q, hq, hkq⟩ := hk
      refine ⟨q, ?_, hkq⟩
      rcases hq with hq | hq
      · exact Or.inl (hrunning q (Or.inl hq))
      · exact Or.inr hq
    · intro _ _
      exact ⟨s.numbered d,
        Or.inl (hrunning _ (Or.inr List.mem_cons_self)), Or.inl rfl⟩
  · rw [heq]
    refine ⟨fun k hk => hk, ?_⟩
    intro h
    cases h
  · rw [heq]
    refine ⟨?_, ?_⟩
    · intro k hk
      obtain ⟨q, hq, hkq⟩ := hk
      exact ⟨q, hq.imp_right (List.mem_append_left _), hkq⟩
    · intro _ _
      exact ⟨s.numbered d,
        Or.inr (List.mem_append_right _ List.mem_cons_self), Or.inl rfl⟩

/-- What draining the queue hands over, and what stays joined. -/
theorem drainQueue_keys (queue : List QueuedDownload) (s : Downloads)
    {k : String} (hk : k ≠ "") :
    (∀ d ∈ queue, d.responseKey = k ∨ k ∈ s.joinedAt d.canonicalKey →
        k ∈ (drainQueue queue s).1) ∧
      ∀ c, k ∈ s.joinedAt c → k ∈ (drainQueue queue s).1 ∨
        k ∈ (drainQueue queue s).2.joinedAt c := by
  induction queue generalizing s with
  | nil =>
      refine ⟨?_, fun c h => Or.inr h⟩
      intro d hd
      cases hd
  | cons e queue ih =>
      obtain ⟨hown, hjoined⟩ := ih
        { (takeResponseKeysLocked e s).2 with
          invalidated := (takeResponseKeysLocked e s).2.invalidated.erase
            e.canonicalKey }
      have hfirst : e.responseKey = k ∨ k ∈ s.joinedAt e.canonicalKey →
          k ∈ (drainQueue (e :: queue) s).1 :=
        fun h => List.mem_append_left _ ((mem_responseKeys hk).2 h)
      -- a key joined to another tile is still joined behind `e`
      have hbehind : ∀ c, k ∈ s.joinedAt c → c ≠ e.canonicalKey →
          k ∈ joinedAt { (takeResponseKeysLocked e s).2 with
            invalidated := (takeResponseKeysLocked e s).2.invalidated.erase
              e.canonicalKey } c := by
        intro c hc hne
        show k ∈ ((s.joinedResponseKeys.erase _).lookup c).getD []
        rw [AList.lookup_erase_ne hne]
        exact hc
      refine ⟨?_, ?_⟩
      · intro d hd hkd
        rcases List.mem_cons.1 hd with rfl | hd
        · exact hfirst hkd
        · by_cases hcan : k ∈ s.joinedAt e.canonicalKey
          · exact hfirst (Or.inr hcan)
          · refine List.mem_append_right _ (hown d hd ?_)
            refine hkd.imp_right fun hj => hbehind _ hj ?_
            intro heq
            rw [heq] at hj
            exact hcan hj
      · intro c hc
        by_cases hcan : c = e.canonicalKey
        · rw [hcan] at hc
          exact Or.inl (hfirst (Or.inr hc))
        · rcases hjoined c (hbehind c hc hcan) with h | h
          · exact Or.inl (List.mem_append_right _ h)
          · exact Or.inr h

/-- Cancelling hands over the keys of the queue; running downloads keep
theirs. -/
theorem holds_cancel {s : Downloads} {k : String} (hk : k ≠ "")
    (h : Holds s k) : k ∈ (cancelUpstreamDownloads s).1 ∨
      Holds (cancelUpstreamDownloads s).2 k := by
  obtain ⟨hown, hjoined⟩ := drainQueue_keys s.queued
    { s with queued := [] } hk
  obtain ⟨invalidated, joined, heq⟩ :=
    drainQueue_eq s.queued { s with queued := [] }
  obtain ⟨d, hd | hd, hkd⟩ := h
  · have hrun : d ∈ (cancelUpstreamDownloads s).2.running := by
      obtain ⟨id, c, hc, rfl⟩ := mem_running.1 hd
      rw [mem_running]
      unfold cancelUpstreamDownloads
      simp only [heq]
      refine ⟨id, { c with
        cancelRequested := c.cancelRequested
          || (s.activeClients.entries.map (·.2)).contains id }, ?_, rfl⟩
      rw [QHash.lookup_filterMapValues, hc]
      rfl
    rcases hkd with hkd | hkd
    · exact Or.inr ⟨d, Or.inl hrun, Or.inl hkd⟩
    · rcases hjoined d.canonicalKey hkd with h | h
      · exact Or.inl h
      · exact Or.inr ⟨d, Or.inl hrun, Or.inr h⟩
  · exact Or.inl (hown d hd hkd)

end Downloads

-- ============================================================== holders

/-- Somebody alive answers a response key. -/
inductive Held (s : State) (k : String) : Prop
  | download : s.downloads.Holds k → Held s k
  | write (id : WriteId) (w : CacheWrite) :
      s.writes.lookup id = some w → k ∈ w.responseKeys → Held s k
  | read (id : ReadId) (r : CacheRead) :
      s.reads.lookup id = some r → k ∈ readKeys r s → Held s k

/-- Holders are found in four tables. -/
theorem Held.of_frame {s u : State} {k : String} (h : Held s k)
    (hdownloads : u.downloads = s.downloads) (hwrites : u.writes = s.writes)
    (hpending : u.cacheReadsPending = s.cacheReadsPending)
    (hreads : u.reads = s.reads) : Held u k := by
  cases h with
  | download h =>
      refine .download ?_
      rw [hdownloads]
      exact h
  | write id w hw hk =>
      refine .write id w ?_ hk
      rw [hwrites]
      exact hw
  | read id r hr hk =>
      refine .read id r ?_ ?_
      · rw [hreads]
        exact hr
      · unfold readKeys at hk ⊢
        rw [hpending]
        exact hk

/-- The tables that holders are found in agree: every waiting list has
its one live read, and identities are fresh. -/
structure TablesInv (cfg : Config) (s : State) : Prop where
  dirs : OwnDirs s.providerCachePaths
  scheduled : Downloads.Scheduled cfg s.downloads
  waiting : ∀ id r, s.reads.lookup id = some r →
    ∃ keys, s.cacheReadsPending.lookup r.readKey = some keys
  live : ∀ readKey keys, s.cacheReadsPending.lookup readKey = some keys →
    ∃ id r, s.reads.lookup id = some r ∧ r.readKey = readKey
  once : ∀ id id' r r', s.reads.lookup id = some r →
    s.reads.lookup id' = some r' → r.readKey = r'.readKey → id = id'
  freshReads : ∀ id, s.nextRead ≤ id → s.reads.lookup id = none
  freshWrites : ∀ id, s.nextWrite ≤ id → s.writes.lookup id = none

theorem tablesInv_init (files : QHash TilePath OutsideFile)
    (markers : QHash String String) :
    TablesInv cfg (State.init files markers) where
  dirs := ownDirs_empty
  scheduled := Downloads.scheduled_reachable .refl
  waiting id r h := by cases h
  live readKey keys h := by cases h
  once id id' r r' h := by cases h
  freshReads _ _ := rfl
  freshWrites _ _ := rfl

/-- A simulated transition keeps the scheduler's part. -/
theorem Simulated.scheduled {s u : State} (h : Simulated cfg s u)
    (hinv : Downloads.Scheduled cfg s.downloads) :
    Downloads.Scheduled cfg u.downloads :=
  h.path.invariant hinv
    fun _ _ _ hinv _ hstep => Downloads.scheduled_step hinv hstep

/-- The tables after a transition that touches neither reads nor writes.
-/
theorem TablesInv.of_frame {s u : State} (h : TablesInv cfg s)
    (hsim : Simulated cfg s u)
    (hpending : u.cacheReadsPending = s.cacheReadsPending)
    (hreads : u.reads = s.reads) (hnextRead : u.nextRead = s.nextRead)
    (hfresh : ∀ id, u.nextWrite ≤ id → u.writes.lookup id = none) :
    TablesInv cfg u := by
  refine ⟨hsim.dirs, hsim.scheduled h.scheduled, ?_, ?_, ?_, ?_, hfresh⟩
  · rw [hreads, hpending]
    exact h.waiting
  · rw [hreads, hpending]
    exact h.live
  · rw [hreads]
    exact h.once
  · rw [hreads, hnextRead]
    exact h.freshReads

/-- The tables do not depend on signals, answers or caches. -/
theorem TablesInv.of_tables {s u : State} (h : TablesInv cfg s)
    (hpaths : u.providerCachePaths = s.providerCachePaths)
    (hdownloads : u.downloads = s.downloads)
    (hpending : u.cacheReadsPending = s.cacheReadsPending)
    (hreads : u.reads = s.reads) (hnextRead : u.nextRead = s.nextRead)
    (hwrites : u.writes = s.writes) (hnextWrite : u.nextWrite = s.nextWrite) :
    TablesInv cfg u := by
  refine h.of_frame (.still ?_ hdownloads) hpending hreads hnextRead ?_
  · rw [hpaths]
    exact h.dirs
  · rw [hwrites, hnextWrite]
    exact h.freshWrites

/-- The tables without a finished read. -/
theorem tablesInv_forgetRead {s : State} (h : TablesInv cfg s)
    {read : ReadId} {r : CacheRead} (hr : s.reads.lookup read = some r) :
    TablesInv cfg (forgetRead read r s) := by
  have hother : ∀ id r', (forgetRead read r s).reads.lookup id = some r' →
      id ≠ read ∧ s.reads.lookup id = some r' := by
    intro id r' hid
    have hid : (s.reads.erase read).lookup id = some r' := hid
    by_cases hne : id = read
    · rw [hne, AList.lookup_erase] at hid
      cases hid
    · rw [AList.lookup_erase_ne hne] at hid
      exact ⟨hne, hid⟩
  refine ⟨h.dirs, h.scheduled, ?_, ?_, ?_, ?_, h.freshWrites⟩
  · intro id r' hid
    obtain ⟨hne, hid⟩ := hother id r' hid
    have hkey : r'.readKey ≠ r.readKey :=
      fun heq => hne (h.once id read r' r hid hr heq)
    obtain ⟨keys, hkeys⟩ := h.waiting id r' hid
    refine ⟨keys, ?_⟩
    show (s.cacheReadsPending.erase r.readKey).lookup r'.readKey = some keys
    rw [AList.lookup_erase_ne hkey, hkeys]
  · intro readKey keys hkeys
    have hkeys : (s.cacheReadsPending.erase r.readKey).lookup readKey
        = some keys := hkeys
    have hkey : readKey ≠ r.readKey := by
      intro heq
      rw [heq, AList.lookup_erase] at hkeys
      cases hkeys
    rw [AList.lookup_erase_ne hkey] at hkeys
    obtain ⟨id, r', hid, hrk⟩ := h.live readKey keys hkeys
    have hne : id ≠ read := by
      intro heq
      rw [heq, hr] at hid
      cases hid
      exact hkey hrk.symm
    refine ⟨id, r', ?_, hrk⟩
    show (s.reads.erase read).lookup id = some r'
    rw [AList.lookup_erase_ne hne, hid]
  · intro id id' r' r'' hid hid' heq
    exact h.once id id' r' r'' (hother id r' hid).2 (hother id' r'' hid').2 heq
  · intro id hid
    show (s.reads.erase read).lookup id = none
    by_cases hne : id = read
    · rw [hne, AList.lookup_erase]
    · rw [AList.lookup_erase_ne hne]
      exact h.freshReads id hid

-- =============================================== what becomes of a holder

/-- The keys signalled in the current transition. -/
def signalled (s : State) : List String := s.outbox.map Signal.key

/-- No held key is lost between two states: each is signalled or held,
and what is signalled no longer awaits an answer. -/
structure Passed (s u : State) : Prop where
  kept : ∀ k, k ≠ "" → Held s k → k ∈ signalled u ∨ Held u k
  emitted : ∀ k ∈ signalled s, k ∈ signalled u
  awaiting : u.awaiting ⊆ s.awaiting
  settled : (∀ k ∈ signalled s, k ∉ s.awaiting) →
    ∀ k ∈ signalled u, k ∉ u.awaiting

theorem Passed.trans {s u v : State} (h₁ : Passed s u) (h₂ : Passed u v) :
    Passed s v := by
  refine ⟨?_, ?_, h₂.awaiting.trans h₁.awaiting, ?_⟩
  · intro k hk hheld
    rcases h₁.kept k hk hheld with h | h
    · exact Or.inl (h₂.emitted k h)
    · exact h₂.kept k hk h
  · intro k hk
    exact h₂.emitted k (h₁.emitted k hk)
  · intro h
    exact h₂.settled (h₁.settled h)

/-- A transition that signals nothing and keeps every holder. -/
theorem Passed.quiet {s u : State} (hheld : ∀ k, Held s k → Held u k)
    (houtbox : u.outbox = s.outbox) (hawaiting : u.awaiting = s.awaiting) :
    Passed s u := by
  have hsignalled : signalled u = signalled s := by
    unfold signalled
    rw [houtbox]
  refine ⟨fun k _ h => Or.inr (hheld k h), ?_, ?_, ?_⟩
  · rw [hsignalled]
    exact fun k hk => hk
  · rw [hawaiting]
  · rw [hsignalled, hawaiting]
    exact id

/-- Holders do not depend on signals. -/
theorem held_emitAll {signals : List Signal} {s : State} {k : String}
    (h : Held s k) : Held (emitAll signals s) k :=
  h.of_frame rfl rfl rfl rfl

/-- A holder that ends signals its keys. -/
theorem Passed.ended {s u : State} {signals : List Signal}
    (hheld : ∀ k, k ≠ "" → Held s k →
      k ∈ signals.map Signal.key ∨ Held u k)
    (houtbox : u.outbox = s.outbox) (hawaiting : u.awaiting = s.awaiting) :
    Passed s (emitAll signals u) := by
  have hsignalled : signalled (emitAll signals u)
      = signalled s ++ signals.map Signal.key := by
    unfold signalled emitAll
    rw [houtbox, List.map_append]
  refine ⟨?_, ?_, ?_, ?_⟩
  · intro k hk h
    rcases hheld k hk h with h | h
    · refine Or.inl ?_
      rw [hsignalled]
      exact List.mem_append_right _ h
    · exact Or.inr (held_emitAll h)
  · intro k hk
    rw [hsignalled]
    exact List.mem_append_left _ hk
  · show u.awaiting \ (signals.map Signal.key).toFinset ⊆ s.awaiting
    rw [hawaiting]
    exact Finset.sdiff_subset
  · intro hsettled k hk
    show k ∉ u.awaiting \ (signals.map Signal.key).toFinset
    rw [hsignalled, List.mem_append] at hk
    rw [hawaiting, Finset.mem_sdiff, List.mem_toFinset]
    rcases hk with hk | hk
    · exact fun h => hsettled k hk h.1
    · exact fun h => h.2 hk

/-- The keys of the signals of a list of keys. -/
theorem map_signal_key {signal : String → Signal}
    (h : ∀ k, (signal k).key = k) (keys : List String) :
    (keys.map signal).map Signal.key = keys := by
  rw [List.map_map]
  exact (List.map_congr_left fun k _ => h k).trans (List.map_id keys)

-- ============================================================= requests

/-- A download that is handed to the scheduler is held, if the scheduler
takes it. -/
theorem passed_scheduled {s : State} (hinv : TablesInv cfg s)
    {d : QueuedDownload} {paths : QHash String TileDir}
    {markers : QHash String String} {u : State}
    (hu : u = { s with
      providerCachePaths := paths
      markers := markers
      downloads := (Downloads.scheduleMapTileDownload cfg d s.downloads).2 }) :
    Passed s u ∧
      ((Downloads.scheduleMapTileDownload cfg d s.downloads).1 = .scheduled →
        d.responseKey ≠ "" → Held u d.responseKey) := by
  subst hu
  have hactive := hinv.scheduled.active_running.2
  obtain ⟨hkept, hnew⟩ := @Downloads.holds_schedule cfg _
    hinv.scheduled.tables.fresh
    (fun c => (hinv.scheduled.tables.queuedKeys c).1)
    (fun c => (hactive c).1) d
  refine ⟨.quiet ?_ rfl rfl, fun htaken hne => .download (hnew htaken hne)⟩
  intro k hk
  cases hk with
  | download h => exact .download (hkept k h)
  | write id w hw hk => exact .write id w hw hk
  | read id r hr hk => exact .read id r hr hk

/-- Who joins a pending read is held by it, beside those who did before. -/
theorem passed_joined {s : State} (hinv : TablesInv cfg s)
    {readKey key : String} {keys : List String}
    {paths : QHash String TileDir} {markers : QHash String String}
    (hown : OwnDirs paths)
    (hkeys : s.cacheReadsPending.lookup readKey = some keys) {u : State}
    (hu : u = { s with
      providerCachePaths := paths
      markers := markers
      cacheReadsPending :=
        s.cacheReadsPending.insert readKey (keys ++ [key]) }) :
    Passed s u ∧ TablesInv cfg u ∧ Held u key := by
  subst hu
  have hlookup := QHash.lookup_insert_if readKey (keys ++ [key])
    s.cacheReadsPending
  refine ⟨.quiet ?_ rfl rfl, ⟨hown, hinv.scheduled, ?_, ?_, hinv.once,
    hinv.freshReads, hinv.freshWrites⟩, ?_⟩
  · intro k hk
    cases hk with
    | download h => exact .download h
    | write id w hw hk => exact .write id w hw hk
    | read id r hr hk =>
        refine .read id r hr ?_
        unfold readKeys at hk ⊢
        show k ∈ ((s.cacheReadsPending.insert readKey _).lookup _).getD []
        rw [hlookup]
        split
        · rename_i heq
          rw [heq, hkeys] at hk
          exact List.mem_append_left _ hk
        · exact hk
  · intro id r hr
    obtain ⟨keys', hkeys'⟩ := hinv.waiting id r hr
    show ∃ keys', (s.cacheReadsPending.insert readKey _).lookup _ = _
    rw [hlookup]
    split
    · exact ⟨_, rfl⟩
    · exact ⟨keys', hkeys'⟩
  · intro readKey' keys' hkeys'
    have hkeys' : (s.cacheReadsPending.insert readKey
        (keys ++ [key])).lookup readKey' = some keys' := hkeys'
    rw [hlookup] at hkeys'
    split at hkeys'
    · rename_i heq
      rw [heq]
      exact hinv.live readKey keys hkeys
    · exact hinv.live readKey' keys' hkeys'
  · obtain ⟨id, r, hr, hrk⟩ := hinv.live readKey keys hkeys
    refine .read id r hr ?_
    unfold readKeys
    show key ∈ ((s.cacheReadsPending.insert readKey _).lookup _).getD []
    rw [hlookup, if_pos hrk]
    exact List.mem_append_right _ List.mem_cons_self

/-- A read that nobody waits for gets a number and a key of its own. -/
theorem TablesInv.unread {s : State} (h : TablesInv cfg s)
    {readKey : String} (hnone : s.cacheReadsPending.lookup readKey = none)
    {id : ReadId} {r : CacheRead} (hr : s.reads.lookup id = some r) :
    id ≠ s.nextRead ∧ r.readKey ≠ readKey := by
  constructor
  · intro heq
    rw [heq, h.freshReads _ (Nat.le_refl _)] at hr
    cases hr
  · intro heq
    obtain ⟨keys, hkeys⟩ := h.waiting id r hr
    rw [heq, hnone] at hkeys
    cases hkeys

/-- The tables agree with a new read in both of them. -/
theorem TablesInv.reading {s : State} (hinv : TablesInv cfg s)
    {read : CacheRead} {key : String}
    (hnone : s.cacheReadsPending.lookup read.readKey = none) {u : State}
    (hdirs : OwnDirs u.providerCachePaths)
    (hdownloads : u.downloads = s.downloads)
    (hwrites : u.writes = s.writes) (hnextWrite : u.nextWrite = s.nextWrite)
    (hpending : u.cacheReadsPending
      = s.cacheReadsPending.insert read.readKey [key])
    (hreads : u.reads = s.reads.insert s.nextRead read)
    (hnextRead : u.nextRead = s.nextRead + 1) : TablesInv cfg u := by
  have hnew : ∀ {id r}, s.reads.lookup id = some r →
      id ≠ s.nextRead ∧ r.readKey ≠ read.readKey := hinv.unread hnone
  have hsplit : ∀ {id r}, u.reads.lookup id = some r →
      id = s.nextRead ∧ r = read ∨ s.reads.lookup id = some r := by
    intro id r hid
    rw [hreads, QHash.lookup_insert_if] at hid
    split at hid
    · rename_i heq
      exact Or.inl ⟨heq, (Option.some.inj hid).symm⟩
    · exact Or.inr hid
  refine ⟨hdirs, hdownloads ▸ hinv.scheduled, ?_, ?_, ?_, ?_, ?_⟩
  · intro id r hr
    rw [hpending]
    rcases hsplit hr with ⟨-, rfl⟩ | hr
    · exact ⟨_, AList.lookup_insert _⟩
    · rw [AList.lookup_insert_ne (hnew hr).2]
      exact hinv.waiting id r hr
  · intro readKey keys hkeys
    rw [hpending] at hkeys
    rw [hreads]
    by_cases heq : readKey = read.readKey
    · exact ⟨s.nextRead, read, AList.lookup_insert _, heq.symm⟩
    · rw [AList.lookup_insert_ne heq] at hkeys
      obtain ⟨id, r, hr, hrk⟩ := hinv.live readKey keys hkeys
      refine ⟨id, r, ?_, hrk⟩
      rw [AList.lookup_insert_ne (hnew hr).1, hr]
  · intro id id' r r' hr hr' heq
    rcases hsplit hr with ⟨hid, hrr⟩ | hr
    · rcases hsplit hr' with ⟨hid', -⟩ | hr'
      · rw [hid, hid']
      · rw [hrr] at heq
        exact absurd heq.symm (hnew hr').2
    · rcases hsplit hr' with ⟨-, hrr'⟩ | hr'
      · rw [hrr'] at heq
        exact absurd heq (hnew hr).2
      · exact hinv.once id id' r r' hr hr' heq
  · intro id hid
    rw [hnextRead] at hid
    rw [hreads, AList.lookup_insert_ne (Nat.ne_of_gt hid)]
    exact hinv.freshReads id (Nat.le_of_succ_le hid)
  · rw [hwrites, hnextWrite]
    exact hinv.freshWrites

/-- A new read holds the key it was scheduled for, and those of the other
reads stay where they were. -/
theorem passed_reading {s : State} (hinv : TablesInv cfg s)
    {read : CacheRead} {key : String} {paths : QHash String TileDir}
    {markers : QHash String String}
    (hnone : s.cacheReadsPending.lookup read.readKey = none) {u : State}
    (hu : u = { s with
      providerCachePaths := paths
      markers := markers
      pendingCacheReadBytes := s.pendingCacheReadBytes + read.fileSize
      cacheReadsPending := s.cacheReadsPending.insert read.readKey [key]
      reads := s.reads.insert s.nextRead read
      nextRead := s.nextRead + 1 }) :
    Passed s u ∧ Held u key := by
  subst hu
  refine ⟨.quiet ?_ rfl rfl, ?_⟩
  · intro k hk
    cases hk with
    | download h => exact .download h
    | write id w hw hk => exact .write id w hw hk
    | read id r hr hk =>
        obtain ⟨hid, hrk⟩ := hinv.unread hnone hr
        refine .read id r ?_ ?_
        · show (s.reads.insert s.nextRead read).lookup id = some r
          rw [AList.lookup_insert_ne hid, hr]
        · unfold readKeys at hk ⊢
          show k ∈ ((s.cacheReadsPending.insert _ _).lookup _).getD []
          rw [AList.lookup_insert_ne hrk]
          exact hk
  · refine .read s.nextRead read (AList.lookup_insert _) ?_
    unfold readKeys
    show key ∈ ((s.cacheReadsPending.insert read.readKey _).lookup _).getD []
    rw [AList.lookup_insert]
    exact List.mem_cons_self

/-- A request loses no holder, and a key answered pending is held. -/
theorem Requested.passed {key : String} {s u : State}
    {r : TileRequestResult} (hinv : TablesInv cfg s)
    (h : Requested cfg key s r u) :
    Passed s u ∧ TablesInv cfg u ∧
      (r.status = .pending → key ≠ "" → Held u key) := by
  have hsim := h.simulated
  cases h with
  | quiet r paths markers hown hr =>
      exact ⟨.quiet (fun k h => h.of_frame rfl rfl rfl rfl) rfl rfl,
        hinv.of_frame hsim rfl rfl rfl hinv.freshWrites,
        fun h => absurd h hr⟩
  | loaded path data paths markers keys hown hread =>
      refine ⟨.quiet (fun k h => h.of_frame rfl rfl rfl rfl) rfl rfl,
        hinv.of_frame hsim rfl rfl rfl hinv.freshWrites, ?_⟩
      intro h
      cases h
  | scheduled d paths markers hown hkey hcanon hvalid =>
      obtain ⟨hpassed, hheld⟩ := passed_scheduled hinv rfl
      refine ⟨hpassed, hinv.of_frame hsim rfl rfl rfl hinv.freshWrites, ?_⟩
      intro hpending hne
      rw [← hkey] at hne ⊢
      refine hheld ?_ hne
      by_contra hfull
      rw [if_neg hfull] at hpending
      cases hpending
  | joined readKey keys paths markers hown hkeys =>
      obtain ⟨hpassed, htables, hheld⟩ := passed_joined hinv hown hkeys rfl
      exact ⟨hpassed, htables, fun _ _ => hheld⟩
  | reading read paths markers hown hnone hgen hres hcanon =>
      obtain ⟨hpassed, hheld⟩ := passed_reading hinv hnone rfl
      exact ⟨hpassed, hinv.reading hnone hown rfl rfl rfl rfl rfl rfl,
        fun _ _ => hheld⟩

/-- The fallbacks of a finished read: every requester is signalled or
held again. -/
theorem retryReads_passed (r : CacheRead)
    (requesters : List (String × Choice)) {s : State}
    (hinv : TablesInv cfg s) :
    Passed s (requesters.foldl (retryRead cfg r) s) ∧
      TablesInv cfg (requesters.foldl (retryRead cfg r) s) ∧
      ∀ k ∈ requesters.map (·.1), k ≠ "" →
        k ∈ signalled (requesters.foldl (retryRead cfg r) s) ∨
          Held (requesters.foldl (retryRead cfg r) s) k := by
  induction requesters generalizing s with
  | nil =>
      refine ⟨.quiet (fun _ h => h) rfl rfl, hinv, ?_⟩
      intro k hk
      cases hk
  | cons requester requesters ih =>
      obtain ⟨answer, u, hreq, hrest⟩ :=
        retryRead_requested hinv.dirs cfg r requester
      obtain ⟨hpassed, hinvu, hheld⟩ := hreq.passed hinv
      have hone : Passed s (retryRead cfg r s requester) ∧
          TablesInv cfg (retryRead cfg r s requester) ∧
          (requester.1 ≠ "" →
            requester.1 ∈ signalled (retryRead cfg r s requester) ∨
              Held (retryRead cfg r s requester) requester.1) := by
        rcases hrest with ⟨hstatus, heq⟩ | ⟨-, signal, hsignal, heq⟩
        · rw [heq]
          exact ⟨hpassed, hinvu, fun hne => Or.inr (hheld hstatus hne)⟩
        · rw [heq, emit_eq]
          refine ⟨hpassed.trans (.ended (fun k _ h => Or.inr h) rfl rfl),
            hinvu.of_tables rfl rfl rfl rfl rfl rfl rfl, ?_⟩
          intro _
          refine Or.inl ?_
          unfold signalled emitAll
          rw [List.map_append, List.map_singleton, hsignal]
          exact List.mem_append_right _ List.mem_cons_self
      obtain ⟨hrestPassed, hrestInv, hrestHeld⟩ := ih hone.2.1
      refine ⟨hone.1.trans hrestPassed, hrestInv, ?_⟩
      intro k hk hne
      rcases List.mem_cons.1 hk with rfl | hk
      · rcases hone.2.2 hne with h | h
        · exact Or.inl (hrestPassed.emitted _ h)
        · exact hrestPassed.kept _ hne h
      · exact hrestHeld k hk hne

-- ========================================================== transitions

/-- A finished client hands its keys to signals or to its cache write. -/
theorem requestFinished_passed {client : ClientId} {bytes : Bytes}
    {mayStore : Bool} {s u : State} (hinv : TablesInv cfg s)
    (hstep : requestFinished cfg client bytes mayStore s = some u) :
    Passed s u ∧ TablesInv cfg u := by
  have hsim : Simulated cfg s u := perform_simulated
    (a := .requestFinished client bytes mayStore) hinv.dirs hstep
  obtain ⟨ended, hended, hcases⟩ := requestFinished_inv hstep
  have hfresh : Downloads.FreshClients ended.downloads :=
    (Downloads.schedulerInv_clientEnds hinv.scheduled.tables hended).fresh
  have hdownload : ∀ k, k ≠ "" → s.downloads.Holds k →
      k ∈ ended.responseKeys ∨
        (Downloads.startQueuedDownloads cfg ended.downloads).Holds k := by
    intro k hk h
    exact (Downloads.holds_clientEnds hended hk h).imp_right
      (Downloads.holds_startQueued hfresh)
  rcases hcases with rfl | ⟨-, rfl⟩
  · rw [emitReady_eq] at hsim ⊢
    refine ⟨.ended ?_ rfl rfl,
      hinv.of_frame hsim rfl rfl rfl hinv.freshWrites⟩
    intro k hk hheld
    rw [map_signal_key fun _ => rfl]
    cases hheld with
    | download h => exact (hdownload k hk h).imp_right .download
    | write id w hw hkw => exact Or.inr (.write id w hw hkw)
    | read id r hr hkr => exact Or.inr (.read id r hr hkr)
  · have hold : ∀ id w, s.writes.lookup id = some w →
        (s.writes.insert s.nextWrite
          { download := ended.client.download
            data := responseBlob client bytes ended.client.download
            responseKeys := ended.responseKeys }).lookup id = some w := by
      intro id w hw
      have hne : id ≠ s.nextWrite := by
        intro heq
        rw [heq, hinv.freshWrites _ (Nat.le_refl _)] at hw
        cases hw
      rw [AList.lookup_insert_ne hne, hw]
    have hnone : ∀ k, k ≠ "" → Held s k → Held (scheduleWrite
        ended.client.download
        (responseBlob client bytes ended.client.download)
        ended.responseKeys { s with downloads :=
          Downloads.startQueuedDownloads cfg ended.downloads }) k := by
      intro k hk hheld
      cases hheld with
      | download h =>
          rcases hdownload k hk h with h | h
          · exact .write s.nextWrite _ (AList.lookup_insert _) h
          · exact .download h
      | write id w hw hkw => exact .write id w (hold id w hw) hkw
      | read id r hr hkr => exact .read id r hr hkr
    refine ⟨⟨fun k hk h => Or.inr (hnone k hk h), fun k hk => hk,
      Finset.Subset.refl _, id⟩, hinv.of_frame hsim rfl rfl rfl ?_⟩
    intro id hid
    have hid : s.nextWrite + 1 ≤ id := hid
    show (s.writes.insert s.nextWrite _).lookup id = none
    rw [AList.lookup_insert_ne (Nat.ne_of_gt hid)]
    exact hinv.freshWrites id (Nat.le_of_succ_le hid)

/-- A failed client signals its keys. -/
theorem requestError_passed {client : ClientId}
    {reason : TileFailureReason} {s u : State} (hinv : TablesInv cfg s)
    (hstep : requestError cfg client reason s = some u) :
    Passed s u ∧ TablesInv cfg u := by
  have hsim : Simulated cfg s u := perform_simulated
    (a := .requestError client reason) hinv.dirs hstep
  obtain ⟨ended, hended, rfl⟩ := requestError_inv hstep
  have hfresh : Downloads.FreshClients ended.downloads :=
    (Downloads.schedulerInv_clientEnds hinv.scheduled.tables hended).fresh
  rw [emitFailed_eq] at hsim ⊢
  refine ⟨.ended ?_ rfl rfl,
    hinv.of_frame hsim rfl rfl rfl hinv.freshWrites⟩
  intro k hk hheld
  rw [map_signal_key fun _ => rfl]
  cases hheld with
  | download h =>
      exact (Downloads.holds_clientEnds hended hk h).imp_right
        fun h => .download (Downloads.holds_startQueued hfresh h)
  | write id w hw hkw => exact Or.inr (.write id w hw hkw)
  | read id r hr hkr => exact Or.inr (.read id r hr hkr)

/-- Cancelling signals the keys of the queue. -/
theorem cancelUpstreamDownloads_passed {s : State}
    (hinv : TablesInv cfg s) :
    Passed s (cancelUpstreamDownloads s) ∧
      TablesInv cfg (cancelUpstreamDownloads s) := by
  have hsim : Simulated cfg s (cancelUpstreamDownloads s) :=
    perform_simulated (a := .cancelUpstreamDownloads) hinv.dirs rfl
  unfold cancelUpstreamDownloads at hsim ⊢
  rw [emitFailed_eq] at hsim ⊢
  refine ⟨.ended ?_ rfl rfl,
    hinv.of_frame hsim rfl rfl rfl hinv.freshWrites⟩
  intro k hk hheld
  rw [map_signal_key fun _ => rfl]
  cases hheld with
  | download h => exact (Downloads.holds_cancel hk h).imp_right .download
  | write id w hw hkw => exact Or.inr (.write id w hw hkw)
  | read id r hr hkr => exact Or.inr (.read id r hr hkr)

/-- A transition that signals nothing and leaves every holder its keys.
-/
theorem TablesInv.passed_of_frame {s u : State} (hinv : TablesInv cfg s)
    (hsim : Simulated cfg s u)
    (hclients : u.downloads.clients = s.downloads.clients)
    (hqueued : u.downloads.queued = s.downloads.queued)
    (hjoined : u.downloads.joinedResponseKeys
      = s.downloads.joinedResponseKeys)
    (hpending : u.cacheReadsPending = s.cacheReadsPending)
    (hreads : u.reads = s.reads) (hnextRead : u.nextRead = s.nextRead)
    (hnextWrite : u.nextWrite = s.nextWrite)
    (hwrites : ∀ id, (u.writes.lookup id).map CacheWrite.responseKeys
      = (s.writes.lookup id).map CacheWrite.responseKeys)
    (houtbox : u.outbox = s.outbox) (hawaiting : u.awaiting = s.awaiting) :
    Passed s u ∧ TablesInv cfg u := by
  refine ⟨.quiet ?_ houtbox hawaiting,
    hinv.of_frame hsim hpending hreads hnextRead ?_⟩
  · intro k hk
    cases hk with
    | download h =>
        obtain ⟨d, hd, hkd⟩ := h
        refine .download ⟨d, ?_, ?_⟩
        · unfold Downloads.running at hd ⊢
          rw [hclients, hqueued]
          exact hd
        · unfold Downloads.joinedAt at hkd ⊢
          rw [hjoined]
          exact hkd
    | write id w hw hk =>
        have hmap := hwrites id
        rw [hw] at hmap
        obtain ⟨w', hw', hkeys⟩ := Option.map_eq_some_iff.1 hmap
        refine .write id w' hw' ?_
        rw [hkeys]
        exact hk
    | read id r hr hk =>
        refine .read id r ?_ ?_
        · rw [hreads]
          exact hr
        · unfold readKeys at hk ⊢
          rw [hpending]
          exact hk
  · intro id hid
    rw [hnextWrite] at hid
    have hmap := hwrites id
    rw [hinv.freshWrites id hid] at hmap
    exact Option.map_eq_none_iff.1 hmap

/-- A write's worker changes no holder. -/
theorem writeRuns_passed {write : WriteId} {saved : Bool} {s u : State}
    (hinv : TablesInv cfg s) (hstep : writeRuns write saved s = some u) :
    Passed s u ∧ TablesInv cfg u := by
  have hsim : Simulated cfg s u :=
    perform_simulated (a := .writeRuns write saved) hinv.dirs hstep
  obtain ⟨w, hw, -, hcases⟩ := writeRuns_inv hstep
  have hkeys : ∀ result id, ((s.writes.insert write
      { w with result := result }).lookup id).map CacheWrite.responseKeys
      = (s.writes.lookup id).map CacheWrite.responseKeys := by
    intro result id
    by_cases heq : id = write
    · rw [heq, AList.lookup_insert, hw]
      rfl
    · rw [AList.lookup_insert_ne heq]
  rcases hcases with ⟨result, rfl⟩ | ⟨-, rfl⟩
  · exact hinv.passed_of_frame hsim rfl rfl rfl rfl rfl rfl rfl (hkeys _) rfl
      rfl
  · exact hinv.passed_of_frame hsim rfl rfl rfl rfl rfl rfl rfl (hkeys _) rfl
      rfl

/-- A finished write signals its keys. -/
theorem writeFinished_passed {write : WriteId} {s u : State}
    (hinv : TablesInv cfg s) (hstep : writeFinished write s = some u) :
    Passed s u ∧ TablesInv cfg u := by
  have hsim : Simulated cfg s u :=
    perform_simulated (a := .writeFinished write) hinv.dirs hstep
  obtain ⟨w, hw, -, rfl⟩ := writeFinished_inv hstep
  rw [emitReady_eq] at hsim ⊢
  refine ⟨.ended ?_ rfl rfl, hinv.of_frame hsim rfl rfl rfl ?_⟩
  · intro k hk hheld
    rw [map_signal_key fun _ => rfl]
    cases hheld with
    | download h => exact Or.inr (.download h)
    | write id v hv hkv =>
        by_cases heq : id = write
        · rw [heq, hw] at hv
          cases hv
          exact Or.inl hkv
        · refine Or.inr (.write id v ?_ hkv)
          show (s.writes.erase write).lookup id = some v
          rw [AList.lookup_erase_ne heq, hv]
    | read id r hr hkr => exact Or.inr (.read id r hr hkr)
  · intro id hid
    show (s.writes.erase write).lookup id = none
    by_cases heq : id = write
    · rw [heq, AList.lookup_erase]
    · rw [AList.lookup_erase_ne heq]
      exact hinv.freshWrites id hid

/-- A read's worker changes no holder. -/
theorem readRuns_passed {read : ReadId} {s u : State}
    (hinv : TablesInv cfg s) (hstep : readRuns read s = some u) :
    Passed s u ∧ TablesInv cfg u := by
  have hsim : Simulated cfg s u :=
    perform_simulated (a := .readRuns read) hinv.dirs hstep
  obtain ⟨r, data, hr, -, -, rfl⟩ := readRuns_inv hstep
  -- the reads keep their keys
  have hback : ∀ id r', (s.reads.insert read
      { r with result := some data }).lookup id = some r' →
      ∃ r₀, s.reads.lookup id = some r₀ ∧ r₀.readKey = r'.readKey := by
    intro id r' hid
    by_cases heq : id = read
    · rw [heq, AList.lookup_insert] at hid
      cases hid
      exact ⟨r, by rw [heq, hr], rfl⟩
    · rw [AList.lookup_insert_ne heq] at hid
      exact ⟨r', hid, rfl⟩
  have hforth : ∀ id r₀, s.reads.lookup id = some r₀ →
      ∃ r', (s.reads.insert read { r with result := some data }).lookup id
        = some r' ∧ r'.readKey = r₀.readKey := by
    intro id r₀ hid
    by_cases heq : id = read
    · rw [heq, hr] at hid
      cases hid
      exact ⟨{ r with result := some data },
        by rw [heq, AList.lookup_insert], rfl⟩
    · exact ⟨r₀, by rw [AList.lookup_insert_ne heq, hid], rfl⟩
  refine ⟨.quiet ?_ rfl rfl, ⟨hinv.dirs, hinv.scheduled, ?_, ?_, ?_, ?_,
    hinv.freshWrites⟩⟩
  · intro k hheld
    cases hheld with
    | download h => exact .download h
    | write id w hw hkw => exact .write id w hw hkw
    | read id r₀ hid hk =>
        obtain ⟨r', hr', hkey⟩ := hforth id r₀ hid
        refine .read id r' hr' ?_
        unfold readKeys at hk ⊢
        rw [hkey]
        exact hk
  · intro id r' hid
    obtain ⟨r₀, hr₀, hkey⟩ := hback id r' hid
    rw [← hkey]
    exact hinv.waiting id r₀ hr₀
  · intro readKey keys hkeys
    obtain ⟨id, r₀, hr₀, hkey₀⟩ := hinv.live readKey keys hkeys
    obtain ⟨r', hr', hkey⟩ := hforth id r₀ hr₀
    exact ⟨id, r', hr', hkey.trans hkey₀⟩
  · intro id id' r₁ r₂ h₁ h₂ heq
    obtain ⟨r₁', hr₁, hk₁⟩ := hback id r₁ h₁
    obtain ⟨r₂', hr₂, hk₂⟩ := hback id' r₂ h₂
    exact hinv.once id id' r₁' r₂' hr₁ hr₂ (by rw [hk₁, hk₂, heq])
  · intro id hid
    have hnone := hinv.freshReads id hid
    have hne : id ≠ read := by
      intro heq
      rw [heq, hr] at hnone
      cases hnone
    show (s.reads.insert read _).lookup id = none
    rw [AList.lookup_insert_ne hne, hnone]

/-- A finished read signals its keys or asks again for each of them. -/
theorem readFinished_passed {read : ReadId} {choices : Nat → Choice}
    {s u : State} (hinv : TablesInv cfg s)
    (hstep : readFinished cfg read choices s = some u) :
    Passed s u ∧ TablesInv cfg u := by
  obtain ⟨r, data, hr, -, hcases⟩ := readFinished_inv hstep
  have hforget := tablesInv_forgetRead hinv hr
  -- whoever else is held stays held when the read is forgotten
  have hheld : ∀ k, Held s k → k ∈ readKeys r s ∨
      Held (forgetRead read r s) k := by
    intro k hk
    cases hk with
    | download h => exact Or.inr (.download h)
    | write id w hw hkw => exact Or.inr (.write id w hw hkw)
    | read id r' hr' hkr =>
        by_cases heq : id = read
        · rw [heq, hr] at hr'
          cases hr'
          exact Or.inl hkr
        · have hkey : r'.readKey ≠ r.readKey :=
            fun h => heq (hinv.once id read r' r hr' hr h)
          refine Or.inr (.read id r' ?_ ?_)
          · show (s.reads.erase read).lookup id = some r'
            rw [AList.lookup_erase_ne heq, hr']
          · unfold readKeys at hkr ⊢
            show k ∈ ((s.cacheReadsPending.erase _).lookup _).getD []
            rw [AList.lookup_erase_ne hkey]
            exact hkr
  rcases hcases with ⟨-, -, keys, rfl⟩ | rfl | ⟨requesters, hkeys, rfl⟩
  · rw [emitReady_eq]
    refine ⟨.ended ?_ rfl rfl,
      hforget.of_tables rfl rfl rfl rfl rfl rfl rfl⟩
    intro k _ hk
    rw [map_signal_key fun _ => rfl]
    rcases hheld k hk with h | h
    · exact Or.inl h
    · exact Or.inr (h.of_frame rfl rfl rfl rfl)
  · rw [emitFailed_eq]
    refine ⟨.ended ?_ rfl rfl,
      hforget.of_tables rfl rfl rfl rfl rfl rfl rfl⟩
    intro k _ hk
    rw [map_signal_key fun _ => rfl]
    exact hheld k hk
  · obtain ⟨hpassed, hinvu, hagain⟩ :=
      retryReads_passed r requesters hforget
    rw [hkeys] at hagain
    refine ⟨⟨?_, hpassed.emitted, hpassed.awaiting, hpassed.settled⟩, hinvu⟩
    intro k hk hheldk
    rcases hheld k hheldk with h | h
    · exact hagain k h hk
    · exact hpassed.kept k hk h

/-- A deletion changes no holder. -/
theorem deleteTiles_passed (cfg : Config) (choice : Choice)
    (range : TileRange) (refuses : TilePath → Bool) {s : State}
    (hinv : TablesInv cfg s) :
    Passed s (deleteTiles cfg choice range refuses s).2 ∧
      TablesInv cfg (deleteTiles cfg choice range refuses s).2 := by
  have hsim := deleteTiles_simulated cfg choice range refuses hinv.dirs
  have hmarked : ∀ v : State, ∀ id,
      ((invalidateRange range v).writes.lookup id).map
          CacheWrite.responseKeys
        = (v.writes.lookup id).map CacheWrite.responseKeys := by
    intro v id
    unfold invalidateRange
    simp only [QHash.lookup_filterMapValues]
    cases v.writes.lookup id with
    | none => rfl
    | some w => rfl
  obtain ⟨paths, markers, hown, ⟨-, heq⟩ | ⟨dir, -, -, heq⟩⟩ :=
    deleteTiles_cases cfg choice range refuses hinv.dirs
  · rw [heq] at hsim ⊢
    exact hinv.passed_of_frame hsim rfl rfl rfl rfl rfl rfl rfl
      (fun _ => rfl) rfl rfl
  · rw [heq] at hsim ⊢
    rcases deleteFrom_cases range refuses dir
      { s with providerCachePaths := paths, markers := markers }
      with ⟨heq, -⟩ | ⟨u, ⟨⟨files, keys, rfl⟩, -, -⟩, heq | ⟨count, heq, -⟩⟩
    · rw [heq] at hsim ⊢
      exact hinv.passed_of_frame hsim rfl rfl rfl rfl rfl rfl rfl
        (fun _ => rfl) rfl rfl
    · rw [heq] at hsim ⊢
      exact hinv.passed_of_frame hsim rfl rfl rfl rfl rfl rfl rfl
        (hmarked _) rfl rfl
    · rw [heq] at hsim ⊢
      exact hinv.passed_of_frame hsim rfl rfl rfl rfl rfl rfl rfl
        (hmarked _) rfl rfl

/-- The answer to a request changes no holder. -/
theorem held_answered {key k : String} {r : TileRequestResult × State}
    (h : Held r.2 k) : Held (answered key r) k := by
  unfold answered
  split
  · exact h.of_frame rfl rfl rfl rfl
  · exact h

/-- Every key that awaits an answer is held. -/
structure HeldInv (cfg : Config) (s : State) : Prop where
  tables : TablesInv cfg s
  held : ∀ k ∈ s.awaiting, k ≠ "" → Held s k

/-- A transition's two duties: the keys awaiting an answer are held, and
no held key is lost. -/
def Dutiful (cfg : Config) (s u : State) : Prop :=
  HeldInv cfg u ∧ ∀ k, k ≠ "" → Held s k → k ∈ signalled u ∨ Held u k

/-- A transition that answers no request. -/
theorem Passed.dutiful {s u : State} (h : Passed s u ∧ TablesInv cfg u)
    (hinv : HeldInv cfg s) (hempty : s.outbox = []) : Dutiful cfg s u := by
  refine ⟨⟨h.2, ?_⟩, h.1.kept⟩
  intro k hk hne
  rcases h.1.kept k hne (hinv.held k (h.1.awaiting hk) hne) with hs | hs
  · have hnone : ∀ k ∈ signalled s, k ∉ s.awaiting := by
      intro k hk
      unfold signalled at hk
      rw [hempty] at hk
      cases hk
    exact absurd hk (h.1.settled hnone k hs)
  · exact hs

/-- A request and its answer. -/
theorem Requested.dutiful {key : String} {s : State}
    {r : TileRequestResult × State} (h : Requested cfg key s r.1 r.2)
    (hinv : HeldInv cfg s) (hempty : s.outbox = []) :
    Dutiful cfg s (answered key r) := by
  obtain ⟨hpassed, htables, hnew⟩ := h.passed hinv.tables
  obtain ⟨hinvu, hkept⟩ := Passed.dutiful ⟨hpassed, htables⟩ hinv hempty
  refine ⟨⟨?_, ?_⟩, ?_⟩
  · unfold answered
    split
    · exact htables.of_tables rfl rfl rfl rfl rfl rfl rfl
    · exact htables
  · intro k hk hne
    apply held_answered
    unfold answered at hk
    split at hk
    · rename_i hpending
      rcases Finset.mem_insert.1 hk with rfl | hk
      · exact hnew hpending hne
      · exact hinvu.held k hk hne
    · exact hinvu.held k hk hne
  · intro k hne hk
    have houtbox : signalled (answered key r) = signalled r.2 := by
      unfold answered
      split <;> rfl
    rw [houtbox]
    exact (hkept k hne hk).imp_right held_answered

/-- Every transition does its duty. -/
theorem perform_dutiful {a : Action} {s u : State} (hinv : HeldInv cfg s)
    (hempty : s.outbox = []) (hstep : perform cfg a s = some u) :
    Dutiful cfg s u := by
  have hsim := perform_simulated hinv.tables.dirs hstep
  -- a transition that touches no holder at all
  have hstill : u.downloads = s.downloads →
      u.cacheReadsPending = s.cacheReadsPending → u.reads = s.reads →
      u.nextRead = s.nextRead → u.nextWrite = s.nextWrite →
      u.writes = s.writes → u.outbox = s.outbox →
      u.awaiting = s.awaiting → Dutiful cfg s u := by
    intro hdownloads hpending hreads hnextRead hnextWrite hwrites houtbox
      hawaiting
    refine Passed.dutiful (hinv.tables.passed_of_frame hsim ?_ ?_ ?_ hpending
      hreads hnextRead hnextWrite ?_ houtbox hawaiting) hinv hempty
    · rw [hdownloads]
    · rw [hdownloads]
    · rw [hdownloads]
    · intro id
      rw [hwrites]
  cases a with
  | getTile choice provider z x y key =>
      cases hstep
      exact (getTile_requested hinv.tables.dirs cfg choice provider z x y
        key).dutiful hinv hempty
  | getTileForHttp choice provider z x y key =>
      cases hstep
      exact (getTileForHttp_requested hinv.tables.dirs cfg choice provider z
        x y key).dutiful hinv hempty
  | requestFinished client bytes mayStore =>
      exact Passed.dutiful (requestFinished_passed hinv.tables hstep) hinv
        hempty
  | requestError client reason =>
      exact Passed.dutiful (requestError_passed hinv.tables hstep) hinv
        hempty
  | writeRuns write saved =>
      exact Passed.dutiful (writeRuns_passed hinv.tables hstep) hinv hempty
  | writeFinished write =>
      exact Passed.dutiful (writeFinished_passed hinv.tables hstep) hinv
        hempty
  | readRuns read =>
      exact Passed.dutiful (readRuns_passed hinv.tables hstep) hinv hempty
  | readFinished read choices =>
      exact Passed.dutiful (readFinished_passed hinv.tables hstep) hinv
        hempty
  | deleteTiles choice range refuses =>
      cases hstep
      exact Passed.dutiful
        (deleteTiles_passed cfg choice range refuses hinv.tables) hinv hempty
  | cancelUpstreamDownloads =>
      cases hstep
      exact Passed.dutiful (cancelUpstreamDownloads_passed hinv.tables) hinv
        hempty
  | configureProviders providers coverage defaultCoverage =>
      cases hstep
      exact hstill rfl rfl rfl rfl rfl rfl rfl rfl
  | setPermanentDataDirectory directory =>
      cases hstep
      exact hstill rfl rfl rfl rfl rfl rfl rfl rfl
  | setRemoteFetchEnabled enabled =>
      cases hstep
      exact hstill rfl rfl rfl rfl rfl rfl rfl rfl
  | evict key =>
      cases hstep
      exact hstill rfl rfl rfl rfl rfl rfl rfl rfl
  | outsideChange path outside =>
      cases hstep
      exact hstill rfl rfl rfl rfl rfl rfl rfl rfl

theorem heldInv_init (files : QHash TilePath OutsideFile)
    (markers : QHash String String) :
    HeldInv cfg (State.init files markers) :=
  ⟨tablesInv_init files markers, fun k hk => by cases hk⟩

/-- Every transition of the store does its duty. -/
theorem apply_dutiful {a : Action} {s u : State} (hinv : HeldInv cfg s)
    (hstep : apply cfg a s = some u) : Dutiful cfg s u := by
  have hempty : HeldInv cfg { s with outbox := [] } := by
    refine ⟨hinv.tables.of_tables rfl rfl rfl rfl rfl rfl rfl, ?_⟩
    intro k hk hne
    exact (hinv.held k hk hne).of_frame rfl rfl rfl rfl
  obtain ⟨hinvu, hkept⟩ := perform_dutiful hempty rfl hstep
  refine ⟨hinvu, ?_⟩
  intro k hne hk
  exact hkept k hne (hk.of_frame rfl rfl rfl rfl)

theorem heldInv_reachable {s : State} (h : Reachable cfg s) :
    HeldInv cfg s := by
  obtain ⟨files, markers, hrun⟩ := h
  exact hrun.invariant (heldInv_init files markers)
    fun _ _ _ hinv _ hstep => (apply_dutiful hinv hstep).1

end AowisMap.Maps
