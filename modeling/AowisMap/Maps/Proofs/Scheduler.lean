/-
The download scheduler's invariant: exact counts, a bounded queue apart
from the running downloads, work conservation, and starts in scheduling
order per origin.

# Downloads between two tables

`startQueuedDownloads` marks several downloads as started before it
creates their clients. The invariant therefore has a list of downloads
that are marked and not yet running as a parameter: marking appends to
it (`schedulerInv_marked`), creating a client takes from its head
(`schedulerInv_started`), and between operations it is empty.

# Why first come, first served

A download is started past the queue only when its own origin has room
and the active set has. If the scheduler is work-conserving, no queued
download of that origin exists then, since it could have been started.
So `WorkConserving` carries the order, and each operation restores it:
scheduling only adds load, and the loop ends when nothing may start.
-/
import AowisMap.Maps.Downloads

namespace AowisMap.Maps.Downloads

open Lib

variable {cfg : Config}

-- ============================================================= tallies

/-- The sum of a measure over the running downloads and the marked ones
without a client. -/
def tally (f : QueuedDownload → Nat) (s : Downloads)
    (marked : List QueuedDownload) : Nat :=
  QHash.total (fun _ c => f c.download) s.clients + (marked.map f).sum

/-- One download of a canonical key. -/
def ofKey (key : String) (d : QueuedDownload) : Nat :=
  if d.canonicalKey = key then 1 else 0

/-- One download of an origin. -/
def ofOrigin (cfg : Config) (origin : String) (d : QueuedDownload) : Nat :=
  if downloadOrigin cfg d.url = origin then 1 else 0

/-- The number and the origin of every start so far, and of the marked
downloads that start next. -/
def startOrder (cfg : Config) (s : Downloads)
    (marked : List QueuedDownload) : List (Nat × String) :=
  s.starts.map (fun st => (st.ticket, st.origin))
    ++ marked.map fun d => (d.ticket, downloadOrigin cfg d.url)

/-- The scheduler's tables agree. -/
structure SchedulerInv (cfg : Config) (marked : List QueuedDownload)
    (s : Downloads) : Prop where
  keys : ∀ k, tally (ofKey k) s marked = if k ∈ s.active then 1 else 0
  origins : ∀ o, s.activePerOrigin.lookup o
    = if tally (ofOrigin cfg o) s marked = 0 then none
      else some (tally (ofOrigin cfg o) s marked : Int)
  originBound : ∀ o, (tally (ofOrigin cfg o) s marked : Int)
    ≤ maximumActiveDownloadsPerOrigin
  activeBound : s.active.card ≤ cfg.activeLimit
  queuedKeys : ∀ k, k ∈ s.queuedKeys
    ↔ k ∈ s.queued.map (·.canonicalKey)
  queuedOnce : (s.queued.map (·.canonicalKey)).Nodup
  apart : ∀ d ∈ s.queued, d.canonicalKey ∉ s.active
  queueBound : s.queued.length ≤ cfg.queueLimit
  ordered : (startOrder cfg s marked).Pairwise fun a b =>
    a.2 = b.2 → a.1 < b.1
  queueOrdered : s.queued.Pairwise fun a b => a.ticket < b.ticket
  ahead : ∀ a ∈ startOrder cfg s marked, ∀ d ∈ s.queued,
    a.2 = downloadOrigin cfg d.url → a.1 < d.ticket
  startsIssued : ∀ a ∈ startOrder cfg s marked, a.1 < s.nextTicket
  queueIssued : ∀ d ∈ s.queued, d.ticket < s.nextTicket
  fresh : ∀ id, s.nextClient ≤ id → s.clients.lookup id = none

/-- No queued download may start. -/
def WorkConserving (cfg : Config) (s : Downloads) : Prop :=
  ∀ d ∈ s.queued, s.canStartDownloadLocked cfg d = false

theorem schedulerInv_init : SchedulerInv cfg [] Downloads.init where
  keys _ := rfl
  origins _ := rfl
  originBound _ := Int.natCast_nonneg 6
  activeBound := Nat.zero_le _
  queuedKeys k := by simp [Downloads.init]
  queuedOnce := List.nodup_nil
  apart d hd := by cases hd
  queueBound := Nat.zero_le _
  ordered := List.Pairwise.nil
  queueOrdered := List.Pairwise.nil
  ahead a ha := by cases ha
  startsIssued a ha := by cases ha
  queueIssued d hd := by cases hd
  fresh _ _ := rfl

theorem workConserving_init : WorkConserving cfg Downloads.init := by
  intro d hd
  cases hd

-- ======================================================= the start test

/-- When a download may start. -/
theorem canStart_iff (s : Downloads) (d : QueuedDownload) :
    s.canStartDownloadLocked cfg d = true
      ↔ s.active.card < cfg.activeLimit ∧
        s.activeAt (downloadOrigin cfg d.url)
          < maximumActiveDownloadsPerOrigin := by
  unfold canStartDownloadLocked
  by_cases h : s.active.card ≥ cfg.activeLimit
  · rw [if_pos h]
    constructor
    · intro hf
      cases hf
    · rintro ⟨hlt, -⟩
      omega
  · rw [if_neg h, decide_eq_true_iff]
    constructor
    · intro hlt
      exact ⟨by omega, hlt⟩
    · exact And.right

/-- The count the start test reads is the tally of its origin. -/
theorem SchedulerInv.activeAt_eq {marked : List QueuedDownload}
    {s : Downloads} (h : SchedulerInv cfg marked s) (o : String) :
    s.activeAt o = (tally (ofOrigin cfg o) s marked : Int) := by
  unfold activeAt
  rw [h.origins]
  by_cases hzero : tally (ofOrigin cfg o) s marked = 0
  · rw [if_pos hzero, hzero]
    rfl
  · rw [if_neg hzero]
    rfl

/-- The count of an origin after a start. -/
theorem activeAt_marked (s : Downloads) (d : QueuedDownload) (o : String) :
    (markDownloadStartedLocked cfg d s).activeAt o
      = if o = downloadOrigin cfg d.url then s.activeAt o + 1
        else s.activeAt o := by
  show ((s.activePerOrigin.insert (downloadOrigin cfg d.url)
    (s.activeAt (downloadOrigin cfg d.url) + 1)).lookup o).getD 0 = _
  by_cases ho : o = downloadOrigin cfg d.url
  · subst ho
    rw [AList.lookup_insert, if_pos rfl]
    rfl
  · rw [AList.lookup_insert_ne ho, if_neg ho]
    rfl

/-- Starting a download closes no gap: whoever could not start before
cannot start after. -/
theorem canStart_marked {s : Downloads} {d e : QueuedDownload}
    (h : s.canStartDownloadLocked cfg e = false)
    (hkey : d.canonicalKey ∉ s.active) :
    (markDownloadStartedLocked cfg d s).canStartDownloadLocked cfg e
      = false := by
  rw [← Bool.not_eq_true, canStart_iff] at h ⊢
  rintro ⟨hcard, hcount⟩
  have hcard' : (insert d.canonicalKey s.active).card < cfg.activeLimit :=
    hcard
  rw [Finset.card_insert_of_notMem hkey] at hcard'
  rw [activeAt_marked] at hcount
  refine h ⟨by omega, ?_⟩
  split at hcount
  · omega
  · exact hcount

-- ==================================================== marking a download

/-- Marking adds a download to every tally. -/
theorem tally_marked (f : QueuedDownload → Nat) (s : Downloads)
    (marked : List QueuedDownload) (d : QueuedDownload) :
    tally f (markDownloadStartedLocked cfg d s) (marked ++ [d])
      = tally f s marked + f d := by
  unfold tally markDownloadStartedLocked
  rw [List.map_append, List.sum_append]
  simp [Nat.add_assoc]

/-- Marking a download that may start, is apart from the queue and
follows every start of its origin. -/
theorem schedulerInv_marked {marked : List QueuedDownload} {s : Downloads}
    (h : SchedulerInv cfg marked s) {d : QueuedDownload}
    (hkey : d.canonicalKey ∉ s.active)
    (hqueue : ∀ q ∈ s.queued, q.canonicalKey ≠ d.canonicalKey)
    (hcan : s.canStartDownloadLocked cfg d = true)
    (hlast : ∀ a ∈ startOrder cfg s marked,
      a.2 = downloadOrigin cfg d.url → a.1 < d.ticket)
    (hfirst : ∀ q ∈ s.queued,
      downloadOrigin cfg d.url = downloadOrigin cfg q.url →
      d.ticket < q.ticket)
    (hissued : d.ticket < s.nextTicket) :
    SchedulerInv cfg (marked ++ [d])
      (markDownloadStartedLocked cfg d s) := by
  obtain ⟨hcard, hroom⟩ := (canStart_iff s d).1 hcan
  have hat := h.activeAt_eq (downloadOrigin cfg d.url)
  have horder : startOrder cfg (markDownloadStartedLocked cfg d s)
      (marked ++ [d])
      = startOrder cfg s marked
        ++ [(d.ticket, downloadOrigin cfg d.url)] := by
    unfold startOrder markDownloadStartedLocked
    rw [List.map_append, List.append_assoc]
    rfl
  refine ⟨?_, ?_, ?_, ?_, h.queuedKeys, h.queuedOnce, ?_, h.queueBound, ?_,
    h.queueOrdered, ?_, ?_, h.queueIssued, h.fresh⟩
  · intro k
    rw [tally_marked, h.keys]
    show _ = if k ∈ insert d.canonicalKey s.active then 1 else 0
    unfold ofKey
    by_cases hk : d.canonicalKey = k
    · subst hk
      simp [hkey]
    · have hiff : k ∈ insert d.canonicalKey s.active ↔ k ∈ s.active := by
        rw [Finset.mem_insert]
        exact ⟨fun hor => hor.resolve_left fun he => hk he.symm, Or.inr⟩
      simp [hk, hiff]
  · intro o
    rw [tally_marked]
    show (s.activePerOrigin.insert (downloadOrigin cfg d.url) _).lookup o = _
    by_cases ho : o = downloadOrigin cfg d.url
    · subst ho
      rw [AList.lookup_insert, hat]
      have hone : ofOrigin cfg (downloadOrigin cfg d.url) d = 1 :=
        if_pos rfl
      rw [hone, if_neg (by omega)]
      push_cast
      rfl
    · have hzero : ofOrigin cfg o d = 0 := if_neg fun he => ho he.symm
      rw [AList.lookup_insert_ne ho, hzero, h.origins]
      rfl
  · intro o
    rw [tally_marked]
    have hbound := h.originBound o
    by_cases ho : downloadOrigin cfg d.url = o
    · have hone : ofOrigin cfg o d = 1 := if_pos ho
      rw [hat, ho] at hroom
      rw [hone]
      push_cast
      omega
    · have hzero : ofOrigin cfg o d = 0 := if_neg ho
      rw [hzero]
      exact hbound
  · show (insert d.canonicalKey s.active).card ≤ cfg.activeLimit
    rw [Finset.card_insert_of_notMem hkey]
    omega
  · intro q hq hmem
    rcases Finset.mem_insert.1 hmem with heq | hmem
    · exact hqueue q hq heq
    · exact h.apart q hq hmem
  · rw [horder]
    refine List.pairwise_append.2 ⟨h.ordered, List.pairwise_singleton _ _, ?_⟩
    intro a ha b hb
    rw [List.mem_singleton.1 hb]
    exact hlast a ha
  · rw [horder]
    intro a ha q hq ho
    rcases List.mem_append.1 ha with ha | ha
    · exact h.ahead a ha q hq ho
    · rw [List.mem_singleton.1 ha] at ho ⊢
      exact hfirst q hq ho
  · rw [horder]
    intro a ha
    rcases List.mem_append.1 ha with ha | ha
    · exact h.startsIssued a ha
    · rw [List.mem_singleton.1 ha]
      exact hissued

-- ===================================================== creating a client

/-- A client takes its download over from the marked ones. -/
theorem tally_started (f : QueuedDownload → Nat) {s : Downloads}
    (marked : List QueuedDownload) (d : QueuedDownload)
    (hfresh : s.clients.lookup s.nextClient = none) :
    tally f (startMapTileDownload cfg s d) marked
      = tally f s (d :: marked) := by
  have hins := QHash.total_insert
    (fun (_ : ClientId) (c : Client) => f c.download) s.nextClient
    { download := d } s.clients
  rw [QHash.measureAt_none hfresh] at hins
  simp only at hins
  unfold tally
  show QHash.total (fun _ c => f c.download)
    (s.clients.insert s.nextClient { download := d }) + _ = _
  rw [List.map_cons, List.sum_cons]
  omega

/-- Creating the client of the first marked download. -/
theorem schedulerInv_started {marked : List QueuedDownload}
    {s : Downloads} {d : QueuedDownload}
    (h : SchedulerInv cfg (d :: marked) s) :
    SchedulerInv cfg marked (startMapTileDownload cfg s d) := by
  have htally : ∀ f, tally f (startMapTileDownload cfg s d) marked
      = tally f s (d :: marked) :=
    fun f => tally_started f marked d (h.fresh s.nextClient (Nat.le_refl _))
  have horder : startOrder cfg (startMapTileDownload cfg s d) marked
      = startOrder cfg s (d :: marked) := by
    unfold startOrder startMapTileDownload
    simp
  refine ⟨?_, ?_, ?_, h.activeBound, h.queuedKeys, h.queuedOnce, h.apart,
    h.queueBound, ?_, h.queueOrdered, ?_, ?_, h.queueIssued, ?_⟩
  · intro k
    rw [htally]
    exact h.keys k
  · intro o
    rw [htally]
    exact h.origins o
  · intro o
    rw [htally]
    exact h.originBound o
  · rw [horder]
    exact h.ordered
  · rw [horder]
    exact h.ahead
  · rw [horder]
    exact h.startsIssued
  · intro id hid
    have hid : s.nextClient + 1 ≤ id := hid
    show (s.clients.insert s.nextClient _).lookup id = none
    rw [AList.lookup_insert_ne (Nat.ne_of_gt hid)]
    exact h.fresh id (Nat.le_of_succ_le hid)

/-- Creating the clients of all marked downloads. -/
theorem schedulerInv_startAll {marked : List QueuedDownload}
    {s : Downloads} (h : SchedulerInv cfg marked s)
    (hwork : WorkConserving cfg s) :
    SchedulerInv cfg [] (marked.foldl (startMapTileDownload cfg) s) ∧
      WorkConserving cfg (marked.foldl (startMapTileDownload cfg) s) := by
  induction marked generalizing s with
  | nil => exact ⟨h, hwork⟩
  | cons d marked ih =>
      -- a client changes nothing the start test reads
      exact ih (schedulerInv_started h) hwork

-- ================================================== scanning the queue

/-- What the scan finds: the first queued download that may start. -/
theorem takeEligible_some {s : Downloads} {queue rest : List QueuedDownload}
    {d : QueuedDownload}
    (h : takeEligible cfg s queue = some (d, rest)) :
    ∃ pre post, queue = pre ++ d :: post ∧ rest = pre ++ post ∧
      s.canStartDownloadLocked cfg d = true ∧
      ∀ e ∈ pre, s.canStartDownloadLocked cfg e = false := by
  induction queue generalizing rest with
  | nil => cases h
  | cons e queue ih =>
      rw [takeEligible] at h
      split at h
      · rename_i hcan
        cases h
        exact ⟨[], queue, rfl, rfl, hcan, by simp⟩
      · rename_i hcan
        obtain ⟨⟨d', rest'⟩, hfound, heq⟩ := Option.map_eq_some_iff.1 h
        cases heq
        obtain ⟨pre, post, rfl, rfl, hd, hpre⟩ := ih hfound
        refine ⟨e :: pre, post, rfl, rfl, hd, ?_⟩
        intro q hq
        rcases List.mem_cons.1 hq with rfl | hq
        · exact Bool.not_eq_true _ |>.mp hcan
        · exact hpre q hq

/-- A scan that finds nothing looked at the whole queue. -/
theorem takeEligible_none {s : Downloads} {queue : List QueuedDownload}
    (h : takeEligible cfg s queue = none) :
    ∀ e ∈ queue, s.canStartDownloadLocked cfg e = false := by
  induction queue with
  | nil => simp
  | cons e queue ih =>
      rw [takeEligible] at h
      split at h
      · cases h
      · rename_i hcan
        have hrest : takeEligible cfg s queue = none := by
          simpa using h
        intro q hq
        rcases List.mem_cons.1 hq with rfl | hq
        · exact Bool.not_eq_true _ |>.mp hcan
        · exact ih hrest q hq

/-- Taking a download off the queue. -/
theorem schedulerInv_dequeued {marked pre post : List QueuedDownload}
    {s : Downloads} {d : QueuedDownload} (h : SchedulerInv cfg marked s)
    (hqueue : s.queued = pre ++ d :: post) :
    SchedulerInv cfg marked { s with
      queued := pre ++ post
      queuedKeys := s.queuedKeys.erase d.canonicalKey } := by
  have hsub : (pre ++ post).Sublist s.queued := by
    rw [hqueue]
    exact (List.sublist_cons_self d post).append_left pre
  have honce := h.queuedOnce
  rw [hqueue, List.map_append, List.map_cons] at honce
  have hnot : d.canonicalKey ∉ (pre ++ post).map (·.canonicalKey) := by
    rw [List.map_append]
    exact (List.nodup_cons.1 (List.nodup_middle.1 honce)).1
  refine ⟨h.keys, h.origins, h.originBound, h.activeBound, ?_,
    h.queuedOnce.sublist (hsub.map _), ?_, ?_, h.ordered,
    h.queueOrdered.sublist hsub, ?_, h.startsIssued, ?_, h.fresh⟩
  · intro k
    rw [Finset.mem_erase, h.queuedKeys, hqueue]
    simp only [List.map_append, List.map_cons, List.mem_append,
      List.mem_cons]
    constructor
    · rintro ⟨hne, hk | hk | hk⟩
      · exact Or.inl hk
      · exact absurd hk hne
      · exact Or.inr hk
    · intro hk
      refine ⟨?_, ?_⟩
      · rintro rfl
        exact hnot (by simpa using hk)
      · rcases hk with hk | hk
        · exact Or.inl hk
        · exact Or.inr (Or.inr hk)
  · intro q hq
    exact h.apart q (hsub.subset hq)
  · exact Nat.le_trans hsub.length_le h.queueBound
  · intro a ha q hq
    exact h.ahead a ha q (hsub.subset hq)
  · intro q hq
    exact h.queueIssued q (hsub.subset hq)

/-- The loop starts downloads in queue order per origin and stops when
nothing may start. -/
theorem schedulerInv_startLoop {rounds : Nat} {s : Downloads}
    {marked : List QueuedDownload} (h : SchedulerInv cfg marked s)
    (hrounds : s.queued.length ≤ rounds) :
    SchedulerInv cfg (marked ++ (startLoop cfg rounds s).2)
        (startLoop cfg rounds s).1 ∧
      WorkConserving cfg (startLoop cfg rounds s).1 := by
  induction rounds generalizing s marked with
  | zero =>
      have hnil : s.queued = [] := List.length_eq_zero_iff.1 (by omega)
      refine ⟨by simpa [startLoop] using h, ?_⟩
      intro d hd
      have hd : d ∈ s.queued := hd
      rw [hnil] at hd
      cases hd
  | succ rounds ih =>
      rw [startLoop]
      split
      · split
        · rename_i hnone
          refine ⟨by simpa using h, ?_⟩
          exact takeEligible_none hnone
        · rename_i d rest hsome
          obtain ⟨pre, post, hqueue, rfl, hcan, hpre⟩ :=
            takeEligible_some hsome
          have hdq := schedulerInv_dequeued h hqueue
          have hd : d ∈ s.queued := by
            rw [hqueue]
            simp
          have honce := h.queuedOnce
          rw [hqueue, List.map_append, List.map_cons] at honce
          have hnot := (List.nodup_cons.1 (List.nodup_middle.1 honce)).1
          have hmarked := schedulerInv_marked hdq (d := d) (h.apart d hd)
            (fun q hq heq => hnot (by
              rw [← heq, ← List.map_append]
              exact List.mem_map_of_mem hq))
            hcan (fun a ha => h.ahead a ha d hd) (fun q hq ho => ?_)
            (h.queueIssued d hd)
          · have hlen : (pre ++ post).length ≤ rounds := by
              rw [hqueue] at hrounds
              simp only [List.length_append, List.length_cons] at hrounds ⊢
              omega
            have hloop := ih hmarked hlen
            rw [List.append_assoc] at hloop
            exact hloop
          · -- a queued download of the same origin before `d` could start
            rcases List.mem_append.1 hq with hq | hq
            · have hno := hpre q hq
              rw [← Bool.not_eq_true, canStart_iff] at hno
              rw [canStart_iff, ho] at hcan
              exact absurd hcan hno
            · have hord := h.queueOrdered
              rw [hqueue] at hord
              exact (List.pairwise_cons.1
                (List.pairwise_append.1 hord).2.1).1 q hq
      · rename_i hstop
        refine ⟨by simpa using h, ?_⟩
        intro d hd
        have hd : d ∈ s.queued := hd
        rw [← Bool.not_eq_true, canStart_iff]
        rintro ⟨hcard, -⟩
        refine hstop ⟨hcard, ?_⟩
        intro hnil
        rw [hnil] at hd
        cases hd

/-- `startQueuedDownloads` restores work conservation. -/
theorem schedulerInv_startQueued {s : Downloads}
    (h : SchedulerInv cfg [] s) :
    SchedulerInv cfg [] (startQueuedDownloads cfg s) ∧
      WorkConserving cfg (startQueuedDownloads cfg s) := by
  have hloop := schedulerInv_startLoop h (Nat.le_refl s.queued.length)
  rw [List.nil_append] at hloop
  exact schedulerInv_startAll hloop.1 hloop.2

-- ================================================= the scheduler's steps

/-- Joins change no table of the scheduler. -/
theorem SchedulerInv.of_frame {marked : List QueuedDownload}
    {s u : Downloads} (h : SchedulerInv cfg marked s)
    (hactive : u.active = s.active)
    (hperOrigin : u.activePerOrigin = s.activePerOrigin)
    (hqueued : u.queued = s.queued)
    (hqueuedKeys : u.queuedKeys = s.queuedKeys)
    (hclients : ∀ f : QueuedDownload → Nat,
      QHash.total (fun _ c => f c.download) u.clients
        = QHash.total (fun _ c => f c.download) s.clients)
    (hfresh : ∀ id, u.nextClient ≤ id → u.clients.lookup id = none)
    (hticket : u.nextTicket = s.nextTicket)
    (hstarts : u.starts = s.starts) : SchedulerInv cfg marked u := by
  have htally : ∀ f, tally f u marked = tally f s marked := by
    intro f
    unfold tally
    rw [hclients]
  have horder : startOrder cfg u marked = startOrder cfg s marked := by
    unfold startOrder
    rw [hstarts]
  refine ⟨?_, ?_, ?_, ?_, ?_, ?_, ?_, ?_, ?_, ?_, ?_, ?_, ?_, hfresh⟩
  · intro k
    rw [htally, hactive]
    exact h.keys k
  · intro o
    rw [htally, hperOrigin]
    exact h.origins o
  · intro o
    rw [htally]
    exact h.originBound o
  · rw [hactive]
    exact h.activeBound
  · rw [hqueuedKeys, hqueued]
    exact h.queuedKeys
  · rw [hqueued]
    exact h.queuedOnce
  · rw [hqueued, hactive]
    exact h.apart
  · rw [hqueued]
    exact h.queueBound
  · rw [horder]
    exact h.ordered
  · rw [hqueued]
    exact h.queueOrdered
  · rw [horder, hqueued]
    exact h.ahead
  · rw [horder, hticket]
    exact h.startsIssued
  · rw [hqueued, hticket]
    exact h.queueIssued

/-- What scheduling does: it joins, starts at once, refuses or queues. -/
theorem schedule_cases (cfg : Config) (d : QueuedDownload) (s : Downloads) :
    (d.canonicalKey ∈ s.active ∨ d.canonicalKey ∈ s.queuedKeys) ∧
        scheduleMapTileDownload cfg d s = (.scheduled, joinDownload d s) ∨
    d.canonicalKey ∉ s.active ∧ d.canonicalKey ∉ s.queuedKeys ∧
      (s.canStartDownloadLocked cfg d = true ∧
          scheduleMapTileDownload cfg d s
            = (.scheduled, startNow cfg (s.numbered d) s) ∨
        s.canStartDownloadLocked cfg d = false ∧
          (cfg.queueLimit ≤ s.queued.length ∧
              scheduleMapTileDownload cfg d s = (.queueFull, s) ∨
            s.queued.length < cfg.queueLimit ∧
              scheduleMapTileDownload cfg d s
                = (.scheduled, enqueue (s.numbered d) s))) := by
  unfold scheduleMapTileDownload
  by_cases hbusy : d.canonicalKey ∈ s.active
      ∨ d.canonicalKey ∈ s.queuedKeys
  · exact Or.inl ⟨hbusy, if_pos hbusy⟩
  · obtain ⟨hactive, hqueued⟩ := not_or.1 hbusy
    refine Or.inr ⟨hactive, hqueued, ?_⟩
    rw [if_neg hbusy]
    by_cases hcan : s.canStartDownloadLocked cfg d = true
    · exact Or.inl ⟨hcan, if_pos hcan⟩
    · refine Or.inr ⟨Bool.not_eq_true _ |>.mp hcan, ?_⟩
      rw [if_neg hcan]
      by_cases hfull : s.queued.length ≥ cfg.queueLimit
      · exact Or.inl ⟨hfull, if_pos hfull⟩
      · exact Or.inr ⟨by omega, if_neg hfull⟩

/-- Numbers go up by one. -/
theorem schedulerInv_numbered {s : Downloads} (h : SchedulerInv cfg [] s) :
    SchedulerInv cfg [] { s with nextTicket := s.nextTicket + 1 } :=
  ⟨h.keys, h.origins, h.originBound, h.activeBound, h.queuedKeys,
    h.queuedOnce, h.apart, h.queueBound, h.ordered, h.queueOrdered,
    h.ahead, fun a ha => Nat.lt_succ_of_lt (h.startsIssued a ha),
    fun q hq => Nat.lt_succ_of_lt (h.queueIssued q hq), h.fresh⟩

/-- Appending a new download to the queue. -/
theorem schedulerInv_enqueue {s : Downloads} (h : SchedulerInv cfg [] s)
    {d : QueuedDownload} (hactive : d.canonicalKey ∉ s.active)
    (hqueue : ∀ q ∈ s.queued, q.canonicalKey ≠ d.canonicalKey)
    (hroom : s.queued.length < cfg.queueLimit)
    (hnumber : d.ticket = s.nextTicket) :
    SchedulerInv cfg [] (enqueue d s) := by
  have hissue := schedulerInv_numbered h
  refine ⟨h.keys, h.origins, h.originBound, h.activeBound, ?_, ?_, ?_, ?_,
    h.ordered, ?_, ?_, hissue.startsIssued, ?_, h.fresh⟩
  · intro k
    show k ∈ insert d.canonicalKey s.queuedKeys
      ↔ k ∈ (s.queued ++ [d]).map (·.canonicalKey)
    rw [Finset.mem_insert, h.queuedKeys]
    simp [or_comm]
  · show ((s.queued ++ [d]).map (·.canonicalKey)).Nodup
    rw [List.map_append]
    refine List.nodup_append.2 ⟨h.queuedOnce, List.nodup_singleton _, ?_⟩
    intro k hk k' hk' heq
    rw [List.mem_singleton.1 hk'] at heq
    obtain ⟨q, hq, rfl⟩ := List.mem_map.1 hk
    exact hqueue q hq heq
  · intro q hq
    rcases List.mem_append.1 hq with hq | hq
    · exact h.apart q hq
    · rw [List.mem_singleton.1 hq]
      exact hactive
  · show (s.queued ++ [d]).length ≤ cfg.queueLimit
    rw [List.length_append, List.length_singleton]
    omega
  · refine List.pairwise_append.2 ⟨h.queueOrdered,
      List.pairwise_singleton _ _, ?_⟩
    intro q hq q' hq'
    rw [List.mem_singleton.1 hq', hnumber]
    exact h.queueIssued q hq
  · intro a ha q hq ho
    rcases List.mem_append.1 hq with hq | hq
    · exact h.ahead a ha q hq ho
    · rw [List.mem_singleton.1 hq, hnumber]
      exact h.startsIssued a ha
  · intro q hq
    rcases List.mem_append.1 hq with hq | hq
    · exact hissue.queueIssued q hq
    · rw [List.mem_singleton.1 hq, hnumber]
      exact Nat.lt_succ_self _

/-- Scheduling keeps the tables and work conservation. -/
theorem schedulerInv_schedule {s : Downloads} (h : SchedulerInv cfg [] s)
    (hwork : WorkConserving cfg s) (d : QueuedDownload) :
    SchedulerInv cfg [] (scheduleMapTileDownload cfg d s).2 ∧
      WorkConserving cfg (scheduleMapTileDownload cfg d s).2 := by
  have hqueue : d.canonicalKey ∉ s.queuedKeys →
      ∀ q ∈ s.queued, q.canonicalKey ≠ d.canonicalKey := by
    intro hkey q hq heq
    refine hkey ((h.queuedKeys _).2 ?_)
    rw [← heq]
    exact List.mem_map_of_mem hq
  rcases schedule_cases cfg d s with ⟨-, heq⟩ |
    ⟨hactive, hkey, ⟨hcan, heq⟩ | ⟨hcan, ⟨-, heq⟩ | ⟨hroom, heq⟩⟩⟩
  · rw [heq]
    show SchedulerInv cfg [] (joinDownload d s) ∧
      WorkConserving cfg (joinDownload d s)
    unfold joinDownload
    split
    · exact ⟨h.of_frame rfl rfl rfl rfl (fun _ => rfl) h.fresh rfl rfl,
        hwork⟩
    · exact ⟨h, hwork⟩
  · rw [heq]
    -- no queued download of its origin is waiting: it could have started
    have hnone : ∀ q ∈ s.queued,
        downloadOrigin cfg d.url ≠ downloadOrigin cfg q.url := by
      intro q hq ho
      have hno := hwork q hq
      rw [← Bool.not_eq_true, canStart_iff] at hno
      rw [canStart_iff, ho] at hcan
      exact hno hcan
    have hmarked := schedulerInv_marked (schedulerInv_numbered h)
      (d := s.numbered d) hactive (hqueue hkey) hcan
      (fun a ha _ => h.startsIssued a ha)
      (fun q hq ho => absurd ho (hnone q hq)) (Nat.lt_succ_self _)
    refine schedulerInv_startAll hmarked ?_
    intro q hq
    exact canStart_marked (hwork q hq) hactive
  · rw [heq]
    exact ⟨h, hwork⟩
  · rw [heq]
    refine ⟨schedulerInv_enqueue h hactive (hqueue hkey) hroom rfl, ?_⟩
    intro q hq
    rcases List.mem_append.1 hq with hq | hq
    · exact hwork q hq
    · rw [List.mem_singleton.1 hq]
      exact hcan

-- ========================================================= ends of clients

/-- What the end of a client takes off the tables. -/
theorem clientEnds_inv {s : Downloads} {client : ClientId} {e : Ended}
    (h : clientEnds cfg client s = some e) :
    s.clients.lookup client = some e.client ∧
      e.invalidated = decide (e.client.download.canonicalKey
        ∈ s.invalidated) ∧
      e.responseKeys = s.responseKeys e.client.download ∧
      e.downloads = { markDownloadFinishedLocked cfg e.client.download s with
        activeClients :=
          s.activeClients.erase e.client.download.canonicalKey
        invalidated := s.invalidated.erase e.client.download.canonicalKey
        clients := s.clients.erase client
        joinedResponseKeys :=
          s.joinedResponseKeys.erase e.client.download.canonicalKey } := by
  unfold clientEnds at h
  obtain ⟨c, hc, rfl⟩ := Option.map_eq_some_iff.1 h
  exact ⟨hc, rfl, rfl, rfl⟩

/-- The end of a client takes its download out of every count. -/
theorem tally_clientEnds {s : Downloads} {client : ClientId} {e : Ended}
    (hend : clientEnds cfg client s = some e) (f : QueuedDownload → Nat) :
    tally f s [] = tally f e.downloads [] + f e.client.download := by
  obtain ⟨hc, -, -, heq⟩ := clientEnds_inv hend
  have herase := QHash.total_erase
    (fun (_ : ClientId) (c : Client) => f c.download) client s.clients
  rw [QHash.measureAt_some hc] at herase
  unfold tally
  rw [heq]
  simpa using herase

/-- It gives back one place at its origin. -/
theorem activePerOrigin_clientEnds {s : Downloads} {client : ClientId}
    {e : Ended} (hend : clientEnds cfg client s = some e) (o : String) :
    e.downloads.activePerOrigin.lookup o
      = if o = downloadOrigin cfg e.client.download.url then
          if s.activeAt o - 1 > 0 then some (s.activeAt o - 1) else none
        else s.activePerOrigin.lookup o := by
  obtain ⟨-, -, -, heq⟩ := clientEnds_inv hend
  rw [heq]
  show AList.lookup o (if s.activeAt _ - 1 > 0 then _ else _) = _
  by_cases ho : o = downloadOrigin cfg e.client.download.url
  · subst ho
    rw [if_pos rfl]
    split
    · rw [AList.lookup_insert]
    · rw [AList.lookup_erase]
  · rw [if_neg ho]
    split
    · rw [AList.lookup_insert_ne ho]
    · rw [AList.lookup_erase_ne ho]

/-- Its key was active, and is so no more. -/
theorem keys_clientEnds {s : Downloads} (h : SchedulerInv cfg [] s)
    {client : ClientId} {e : Ended}
    (hend : clientEnds cfg client s = some e) (k : String) :
    tally (ofKey k) e.downloads []
      = if k ∈ s.active.erase e.client.download.canonicalKey then 1 else 0 :=
    by
  have hk := h.keys k
  rw [tally_clientEnds hend] at hk
  by_cases hkk : k = e.client.download.canonicalKey
  · have hone : ofKey k e.client.download = 1 := if_pos hkk.symm
    have hle : (if k ∈ s.active then 1 else 0) ≤ 1 := by
      split
      · exact le_refl _
      · exact Nat.zero_le _
    rw [hkk, if_neg (Finset.notMem_erase _ _), ← hkk]
    omega
  · have hzero : ofKey k e.client.download = 0 :=
      if_neg fun he => hkk he.symm
    rw [hzero, Nat.add_zero] at hk
    rw [hk]
    simp [hkk]

/-- What is left at each origin is counted. -/
theorem origins_clientEnds {s : Downloads} (h : SchedulerInv cfg [] s)
    {client : ClientId} {e : Ended}
    (hend : clientEnds cfg client s = some e) (o : String) :
    e.downloads.activePerOrigin.lookup o
      = if tally (ofOrigin cfg o) e.downloads [] = 0 then none
        else some (tally (ofOrigin cfg o) e.downloads [] : Int) := by
  rw [activePerOrigin_clientEnds hend]
  have ho := h.origins o
  have hat := h.activeAt_eq o
  rw [tally_clientEnds hend] at ho hat
  by_cases hoo : o = downloadOrigin cfg e.client.download.url
  · have hmine : ofOrigin cfg o e.client.download = 1 := if_pos hoo.symm
    rw [hmine] at hat
    rw [if_pos hoo]
    by_cases hzero : tally (ofOrigin cfg o) e.downloads [] = 0
    · rw [if_pos hzero, if_neg (by omega)]
    · rw [if_neg hzero, if_pos (by omega), hat]
      push_cast
      congr 1
      omega
  · have hother : ofOrigin cfg o e.client.download = 0 :=
      if_neg fun he => hoo he.symm
    rw [hother, Nat.add_zero] at ho
    rw [if_neg hoo]
    exact ho

/-- The end of a client frees its key and its place at its origin. -/
theorem schedulerInv_clientEnds {s : Downloads}
    (h : SchedulerInv cfg [] s) {client : ClientId} {e : Ended}
    (hend : clientEnds cfg client s = some e) :
    SchedulerInv cfg [] e.downloads := by
  obtain ⟨hc, -, -, heq⟩ := clientEnds_inv hend
  have hactive : e.downloads.active
      = s.active.erase e.client.download.canonicalKey := by
    rw [heq]
    rfl
  have hqueued : e.downloads.queued = s.queued := by
    rw [heq]
    rfl
  have horder : startOrder cfg e.downloads [] = startOrder cfg s [] := by
    unfold startOrder
    rw [heq]
    rfl
  refine ⟨?_, origins_clientEnds h hend, ?_, ?_, ?_, ?_, ?_, ?_, ?_, ?_, ?_,
    ?_, ?_, ?_⟩
  · rw [hactive]
    exact keys_clientEnds h hend
  · intro o
    have hb := h.originBound o
    rw [tally_clientEnds hend] at hb
    push_cast at hb
    omega
  · rw [hactive]
    exact Nat.le_trans (Finset.card_erase_le) h.activeBound
  · rw [hqueued, heq]
    exact h.queuedKeys
  · rw [hqueued]
    exact h.queuedOnce
  · rw [hqueued, hactive]
    intro d hd hmem
    exact h.apart d hd (Finset.mem_of_mem_erase hmem)
  · rw [hqueued]
    exact h.queueBound
  · rw [horder]
    exact h.ordered
  · rw [hqueued]
    exact h.queueOrdered
  · rw [horder, hqueued]
    exact h.ahead
  · rw [horder, heq]
    exact h.startsIssued
  · rw [hqueued, heq]
    exact h.queueIssued
  · intro id hid
    rw [heq] at hid ⊢
    have hid : s.nextClient ≤ id := hid
    show (s.clients.erase client).lookup id = none
    have hne : id ≠ client := by
      rintro rfl
      rw [h.fresh id hid] at hc
      cases hc
    rw [AList.lookup_erase_ne hne]
    exact h.fresh id hid

-- ============================================================ cancelling

/-- Draining the queue reads and writes the joined keys and the marks
only. -/
theorem drainQueue_eq (queue : List QueuedDownload) (s : Downloads) :
    ∃ invalidated joined, (drainQueue queue s).2 = { s with
      invalidated := invalidated
      joinedResponseKeys := joined } := by
  induction queue generalizing s with
  | nil => exact ⟨s.invalidated, s.joinedResponseKeys, rfl⟩
  | cons d queue ih =>
      obtain ⟨invalidated, joined, heq⟩ := ih
        { (takeResponseKeysLocked d s).2 with
          invalidated := (takeResponseKeysLocked d s).2.invalidated.erase
            d.canonicalKey }
      exact ⟨invalidated, joined, heq⟩

/-- Cancelling drops the queue and keeps everything else. -/
theorem schedulerInv_cancel {s : Downloads} (h : SchedulerInv cfg [] s) :
    SchedulerInv cfg [] (cancelUpstreamDownloads s).2 ∧
      WorkConserving cfg (cancelUpstreamDownloads s).2 := by
  obtain ⟨invalidated, joined, heq⟩ :=
    drainQueue_eq s.queued { s with queued := [] }
  have hempty : SchedulerInv cfg [] { s with
      queued := []
      queuedKeys := ∅ } :=
    ⟨h.keys, h.origins, h.originBound, h.activeBound, by simp,
      List.nodup_nil, by simp, Nat.zero_le _, h.ordered, List.Pairwise.nil,
      by simp, h.startsIssued, by simp, h.fresh⟩
  have hcancel : (cancelUpstreamDownloads s).2 = { s with
      queued := []
      queuedKeys := ∅
      invalidated := invalidated
      joinedResponseKeys := joined
      clients := (cancelUpstreamDownloads s).2.clients
      dropped := s.dropped ++ s.queued.map (·.ticket) } := by
    unfold cancelUpstreamDownloads
    simp only [heq]
  have hclients : (cancelUpstreamDownloads s).2.clients
      = QHash.filterMapValues (fun id c => some
        { c with
          cancelRequested := c.cancelRequested
            || (s.activeClients.entries.map (·.2)).contains id })
        s.clients := by
    unfold cancelUpstreamDownloads
    simp only [heq]
  refine ⟨?_, ?_⟩
  · rw [hcancel]
    refine hempty.of_frame rfl rfl rfl rfl ?_ ?_ rfl rfl
    · intro f
      show QHash.total _ (cancelUpstreamDownloads s).2.clients = _
      rw [hclients, QHash.total_filterMapValues]
    · intro id hid
      show (cancelUpstreamDownloads s).2.clients.lookup id = none
      have hnone : s.clients.lookup id = none := h.fresh id hid
      rw [hclients, QHash.lookup_filterMapValues, hnone]
      rfl
  · rw [hcancel]
    intro d hd
    cases hd

-- ============================================================ accounting

/-- Every number given out is a start's, a marked or a queued download's,
or was dropped by a cancel: no scheduled download is lost. -/
def Accounted (marked : List QueuedDownload) (s : Downloads) : Prop :=
  ∀ t < s.nextTicket, t ∈ s.starts.map (·.ticket) ∨
    t ∈ marked.map (·.ticket) ∨ t ∈ s.queued.map (·.ticket) ∨ t ∈ s.dropped

/-- The loop moves numbers from the queue to the marked downloads. -/
theorem accounted_startLoop {rounds : Nat} {s : Downloads}
    {marked : List QueuedDownload} (h : Accounted marked s) :
    Accounted (marked ++ (startLoop cfg rounds s).2)
      (startLoop cfg rounds s).1 := by
  induction rounds generalizing s marked with
  | zero => simpa [startLoop] using h
  | succ rounds ih =>
      rw [startLoop]
      split
      · split
        · simpa using h
        · rename_i d rest hsome
          obtain ⟨pre, post, hqueue, rfl, -, -⟩ := takeEligible_some hsome
          rw [List.append_cons]
          apply ih
          intro t ht
          have hcases := h t ht
          rw [hqueue] at hcases
          show t ∈ s.starts.map (·.ticket) ∨ _ ∨
            t ∈ (pre ++ post).map (·.ticket) ∨ t ∈ s.dropped
          simp only [List.map_append, List.map_cons, List.mem_append,
            List.mem_cons, List.map_nil, List.not_mem_nil] at hcases ⊢
          tauto
      · simpa using h

/-- Creating the clients moves numbers to the starts. -/
theorem accounted_startAll {marked : List QueuedDownload} {s : Downloads}
    (h : Accounted marked s) :
    Accounted [] (marked.foldl (startMapTileDownload cfg) s) := by
  induction marked generalizing s with
  | nil => exact h
  | cons d marked ih =>
      apply ih
      intro t ht
      have hcases := h t ht
      show t ∈ (s.starts ++ [(_ : Start)]).map (·.ticket) ∨ _ ∨
        t ∈ s.queued.map (·.ticket) ∨ t ∈ s.dropped
      simp only [List.map_append, List.map_cons, List.mem_append,
        List.mem_cons, List.map_nil, List.not_mem_nil] at hcases ⊢
      tauto

theorem accounted_startQueued {s : Downloads} (h : Accounted [] s) :
    Accounted [] (startQueuedDownloads cfg s) :=
  accounted_startAll (@accounted_startLoop cfg _ _ [] h)

/-- Scheduling gives a number to a download it starts or queues. -/
theorem accounted_schedule {s : Downloads} (h : Accounted [] s)
    (d : QueuedDownload) :
    Accounted [] (scheduleMapTileDownload cfg d s).2 := by
  have hissue : ∀ t < s.nextTicket + 1,
      t = s.nextTicket ∨ t ∈ s.starts.map (·.ticket) ∨
        t ∈ s.queued.map (·.ticket) ∨ t ∈ s.dropped := by
    intro t ht
    rcases Nat.lt_succ_iff_lt_or_eq.1 ht with hlt | heq
    · rcases h t hlt with hs | hm | hq
      · exact Or.inr (Or.inl hs)
      · cases hm
      · exact Or.inr (Or.inr hq)
    · exact Or.inl heq
  rcases schedule_cases cfg d s with ⟨-, heq⟩ |
    ⟨-, -, ⟨-, heq⟩ | ⟨-, ⟨-, heq⟩ | ⟨-, heq⟩⟩⟩
  · rw [heq]
    show Accounted [] (joinDownload d s)
    unfold joinDownload
    split
    · exact h
    · exact h
  · rw [heq]
    intro t ht
    have hcases := hissue t ht
    show t ∈ (s.starts ++ [(_ : Start)]).map (·.ticket) ∨ _ ∨
      t ∈ s.queued.map (·.ticket) ∨ t ∈ s.dropped
    simp only [List.map_append, List.map_cons, List.mem_append,
      List.mem_cons, List.map_nil, List.not_mem_nil, numbered]
    tauto
  · rw [heq]
    exact h
  · rw [heq]
    intro t ht
    have hcases := hissue t ht
    show t ∈ s.starts.map (·.ticket) ∨ _ ∨
      t ∈ (s.queued ++ [s.numbered d]).map (·.ticket) ∨ t ∈ s.dropped
    simp only [List.map_append, List.map_cons, List.mem_append,
      List.mem_cons, List.map_nil, List.not_mem_nil, numbered]
    tauto

/-- Cancelling moves the queue's numbers to the dropped ones. -/
theorem accounted_cancel {s : Downloads} (h : Accounted [] s) :
    Accounted [] (cancelUpstreamDownloads s).2 := by
  obtain ⟨invalidated, joined, heq⟩ :=
    drainQueue_eq s.queued { s with queued := [] }
  intro t ht
  have hticket : (cancelUpstreamDownloads s).2.nextTicket = s.nextTicket := by
    unfold cancelUpstreamDownloads
    simp only [heq]
  have hstarts : (cancelUpstreamDownloads s).2.starts = s.starts := by
    unfold cancelUpstreamDownloads
    simp only [heq]
  have hdropped : (cancelUpstreamDownloads s).2.dropped
      = s.dropped ++ s.queued.map (·.ticket) := rfl
  rw [hticket] at ht
  rw [hstarts, hdropped, List.mem_append]
  have hcases := h t ht
  tauto

-- ============================================================ every step

/-- The scheduler's invariant between operations. -/
structure Scheduled (cfg : Config) (s : Downloads) : Prop where
  tables : SchedulerInv cfg [] s
  work : WorkConserving cfg s
  accounted : Accounted [] s

/-- Every transition of the scheduler keeps its invariant. -/
theorem scheduled_step {a : Action} {s u : Downloads}
    (h : Scheduled cfg s) (hstep : next cfg a s = some u) :
    Scheduled cfg u := by
  cases a with
  | schedule d =>
      cases hstep
      obtain ⟨htables, hwork⟩ := schedulerInv_schedule h.tables h.work d
      exact ⟨htables, hwork, accounted_schedule h.accounted d⟩
  | ended client =>
      obtain ⟨e, he, rfl⟩ := Option.map_eq_some_iff.1 hstep
      obtain ⟨htables, hwork⟩ :=
        schedulerInv_startQueued (schedulerInv_clientEnds h.tables he)
      have haccounted : Accounted [] e.downloads := by
        rw [(clientEnds_inv he).2.2.2]
        exact h.accounted
      exact ⟨htables, hwork, accounted_startQueued haccounted⟩
  | cancel =>
      cases hstep
      obtain ⟨htables, hwork⟩ := schedulerInv_cancel h.tables
      exact ⟨htables, hwork, accounted_cancel h.accounted⟩
  | invalidate covered pending =>
      cases hstep
      exact ⟨h.tables.of_frame rfl rfl rfl rfl (fun _ => rfl) h.tables.fresh
        rfl rfl, h.work, h.accounted⟩
  | forget key =>
      cases hstep
      exact ⟨h.tables.of_frame rfl rfl rfl rfl (fun _ => rfl) h.tables.fresh
        rfl rfl, h.work, h.accounted⟩

/-- The invariant holds in every reachable state of the scheduler. -/
theorem scheduled_reachable {s : Downloads} (h : Reachable cfg s) :
    Scheduled cfg s :=
  h.invariant ⟨schedulerInv_init, workConserving_init, by simp [Accounted,
      Downloads.init]⟩
    fun _ _ _ hinv _ hstep => scheduled_step hinv hstep

-- ============================================== what callers rely on

/-- The running downloads: those of the live clients. -/
def running (s : Downloads) : List QueuedDownload :=
  s.clients.values.map (·.download)

/-- The running downloads of an origin, counted. -/
def runningAt (cfg : Config) (origin : String) (s : Downloads) : Nat :=
  s.running.countP fun d => downloadOrigin cfg d.url == origin

theorem tally_ofOrigin (o : String) (s : Downloads) :
    tally (ofOrigin cfg o) s [] = s.runningAt cfg o := by
  unfold tally runningAt running ofOrigin
  rw [List.countP_map, ← QHash.total_indicator, List.map_nil,
    List.sum_nil, Nat.add_zero]
  simp

theorem tally_ofKey (k : String) (s : Downloads) :
    tally (ofKey k) s [] = (s.running.map (·.canonicalKey)).count k := by
  unfold tally running ofKey List.count
  rw [List.map_map, List.countP_map, ← QHash.total_indicator, List.map_nil,
    List.sum_nil, Nat.add_zero]
  simp

/-- The active set is exactly the keys of the running downloads, and no
two of these share a key. -/
theorem Scheduled.active_running {s : Downloads} (h : Scheduled cfg s) :
    (s.running.map (·.canonicalKey)).Nodup ∧
      ∀ k, k ∈ s.active ↔ k ∈ s.running.map (·.canonicalKey) := by
  have hcount : ∀ k, (s.running.map (·.canonicalKey)).count k
      = if k ∈ s.active then 1 else 0 := by
    intro k
    rw [← tally_ofKey]
    exact h.tables.keys k
  refine ⟨List.nodup_iff_count_le_one.2 ?_, ?_⟩
  · intro k
    rw [hcount]
    split <;> omega
  · intro k
    rw [← List.count_pos_iff, hcount]
    split
    · simp_all
    · simp_all

end AowisMap.Maps.Downloads
