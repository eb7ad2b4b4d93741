/-
What every download in progress carries.

A property of downloads that does not look at their number travels with
them through the scheduler: from the request into the queue or to a
client, and from the queue to a client. `Carries P J` says that every
queued download and every download whose client was not told to cancel
has `P`, and that the response keys joined to a canonical key stand in
the relation `J` to it. One lemma for each operation keeps it.

After a cancel nothing is left to carry: the queue is dropped and every
live client is registered under the key of its download, so each is told
to cancel (`carries_cancel`). That is how a reconfiguration forgets what
was asked for under the old catalogue.
-/
import AowisMap.Maps.Proofs.Held

namespace AowisMap.Maps.Downloads

open Lib

variable {cfg : Config} {s : Downloads} {P P' : QueuedDownload → Prop}
  {J J' : String → String → Prop}

/-- What the downloads in progress and the joined response keys have; and
every live client is registered under its download's key. -/
structure Carries (P : QueuedDownload → Prop) (J : String → String → Prop)
    (s : Downloads) : Prop where
  queued : ∀ d ∈ s.queued, P d
  running : ∀ id c, s.clients.lookup id = some c →
    c.cancelRequested = false → P c.download
  joined : ∀ key k, k ∈ s.joinedAt key → J key k
  registered : ∀ id c, s.clients.lookup id = some c →
    s.activeClients.lookup c.download.canonicalKey = some id

theorem carries_init : Carries P J Downloads.init := by
  refine ⟨?_, ?_, ?_, ?_⟩
  · intro d hd
    cases hd
  · intro id c hc
    cases hc
  · intro key k hk
    cases hk
  · intro id c hc
    cases hc

theorem Carries.mono (h : Carries P J s) (hP : ∀ d, P d → P' d)
    (hJ : ∀ key k, J key k → J' key k) : Carries P' J' s :=
  ⟨fun d hd => hP d (h.queued d hd),
    fun id c hc hlive => hP _ (h.running id c hc hlive),
    fun key k hk => hJ key k (h.joined key k hk), h.registered⟩

/-- The queue, the clients and the joined keys are what matters. -/
theorem Carries.of_frame {u : Downloads} (h : Carries P J s)
    (hqueued : ∀ d ∈ u.queued, d ∈ s.queued)
    (hclients : u.clients = s.clients)
    (hactive : u.activeClients = s.activeClients)
    (hjoined : ∀ key k, k ∈ u.joinedAt key → k ∈ s.joinedAt key) :
    Carries P J u := by
  refine ⟨fun d hd => h.queued d (hqueued d hd), ?_,
    fun key k hk => h.joined key k (hjoined key k hk), ?_⟩
  · rw [hclients]
    exact h.running
  · rw [hclients, hactive]
    exact h.registered

-- ============================================================= starting

/-- Marked keys are not running yet. -/
theorem SchedulerInv.unstarted {marked : List QueuedDownload}
    {d : QueuedDownload} (h : SchedulerInv cfg (d :: marked) s)
    {id : ClientId} {c : Client} (hc : s.clients.lookup id = some c) :
    c.download.canonicalKey ≠ d.canonicalKey := by
  intro heq
  have hcount := h.keys d.canonicalKey
  have hrunning := QHash.measure_le_total
    (f := fun (_ : ClientId) (c : Client) => ofKey d.canonicalKey c.download)
    hc
  have hone : ofKey d.canonicalKey c.download = 1 := if_pos heq
  have hself : ofKey d.canonicalKey d = 1 := if_pos rfl
  unfold tally at hcount
  rw [List.map_cons, List.sum_cons, hself] at hcount
  simp only [hone] at hrunning
  split at hcount
  · omega
  · omega

/-- A client takes its download's properties over. -/
theorem carries_started {marked : List QueuedDownload} {d : QueuedDownload}
    (htables : SchedulerInv cfg (d :: marked) s) (h : Carries P J s)
    (hd : P d) : Carries P J (startMapTileDownload cfg s d) := by
  have hlookup : ∀ id c,
      (startMapTileDownload cfg s d).clients.lookup id = some c →
      id = s.nextClient ∧ c = { download := d } ∨
        s.clients.lookup id = some c := by
    intro id c hc
    have hc : (s.clients.insert s.nextClient { download := d }).lookup id
        = some c := hc
    by_cases hid : id = s.nextClient
    · rw [hid, AList.lookup_insert] at hc
      exact Or.inl ⟨hid, (Option.some.inj hc).symm⟩
    · rw [AList.lookup_insert_ne hid] at hc
      exact Or.inr hc
  refine ⟨h.queued, ?_, h.joined, ?_⟩
  · intro id c hc hlive
    rcases hlookup id c hc with ⟨-, rfl⟩ | hc
    · exact hd
    · exact h.running id c hc hlive
  · intro id c hc
    show (s.activeClients.insert d.canonicalKey s.nextClient).lookup
      c.download.canonicalKey = some id
    rcases hlookup id c hc with ⟨rfl, rfl⟩ | hc
    · exact AList.lookup_insert _
    · rw [AList.lookup_insert_ne (htables.unstarted hc)]
      exact h.registered id c hc

theorem carries_startAll {marked : List QueuedDownload}
    (htables : SchedulerInv cfg marked s) (h : Carries P J s)
    (hmarked : ∀ d ∈ marked, P d) :
    Carries P J (marked.foldl (startMapTileDownload cfg) s) := by
  induction marked generalizing s with
  | nil => exact h
  | cons d marked ih =>
      exact ih (schedulerInv_started htables)
        (carries_started htables h (hmarked d List.mem_cons_self))
        fun e he => hmarked e (List.mem_cons_of_mem _ he)

/-- The loop starts queued downloads only. -/
theorem startLoop_from (rounds : Nat) (s : Downloads) :
    (startLoop cfg rounds s).1.activeClients = s.activeClients ∧
      (∀ d ∈ (startLoop cfg rounds s).1.queued, d ∈ s.queued) ∧
      ∀ d ∈ (startLoop cfg rounds s).2, d ∈ s.queued := by
  have hnone : ∀ d ∈ ([] : List QueuedDownload), d ∈ s.queued := by
    intro d hd
    cases hd
  induction rounds generalizing s with
  | zero => exact ⟨rfl, fun d hd => hd, hnone⟩
  | succ rounds ih =>
      rw [startLoop]
      split
      · split
        · exact ⟨rfl, fun d hd => hd, hnone⟩
        · rename_i e rest hsome
          obtain ⟨pre, post, hqueue, rfl, -, -⟩ := takeEligible_some hsome
          have hrest : ∀ d ∈ pre ++ post, d ∈ s.queued := by
            intro d hd
            rw [hqueue]
            rcases List.mem_append.1 hd with hd | hd
            · exact List.mem_append_left _ hd
            · exact List.mem_append_right _ (List.mem_cons_of_mem _ hd)
          obtain ⟨hactive, hqueued, hstarted⟩ := ih
            (markDownloadStartedLocked cfg e { s with
              queued := pre ++ post
              queuedKeys := s.queuedKeys.erase e.canonicalKey })
            (by simp)
          refine ⟨hactive, fun d hd => hrest d (hqueued d hd), ?_⟩
          intro d hd
          rcases List.mem_cons.1 hd with rfl | hd
          · rw [hqueue]
            exact List.mem_append_right _ List.mem_cons_self
          · exact hrest d (hstarted d hd)
      · exact ⟨rfl, fun d hd => hd, hnone⟩

/-- Scanning the queue. -/
theorem carries_startQueued (htables : SchedulerInv cfg [] s)
    (h : Carries P J s) : Carries P J (startQueuedDownloads cfg s) := by
  have hloop := (schedulerInv_startLoop htables
    (Nat.le_refl s.queued.length)).1
  obtain ⟨hjoined, hclients, -, -⟩ :=
    @startLoop_spec cfg s.queued.length s
  obtain ⟨hactive, hqueued, hstarted⟩ :=
    @startLoop_from cfg s.queued.length s
  refine carries_startAll hloop ?_ fun d hd => h.queued d (hstarted d hd)
  refine h.of_frame hqueued hclients hactive ?_
  intro key k hk
  unfold joinedAt at hk ⊢
  rwa [hjoined] at hk

-- ============================================================ scheduling

/-- A request hands over what its download has. -/
theorem carries_schedule (htables : SchedulerInv cfg [] s)
    (hwork : WorkConserving cfg s) (h : Carries P J s) (d : QueuedDownload)
    (hd : P (s.numbered d)) (hkey : J d.canonicalKey d.responseKey) :
    Carries P J (scheduleMapTileDownload cfg d s).2 := by
  rcases schedule_cases cfg d s with ⟨-, heq⟩ |
    ⟨hactive, hqueued, ⟨hcan, heq⟩ | ⟨-, ⟨-, heq⟩ | ⟨-, heq⟩⟩⟩
  · rw [heq]
    have hjoin : ∀ key k, k ∈ (joinDownload d s).joinedAt key → J key k := by
      intro key k hk
      rcases mem_joinedAt_join.1 hk with hk | ⟨rfl, rfl, -⟩
      · exact h.joined key k hk
      · exact hkey
    unfold joinDownload at hjoin ⊢
    split
    · rename_i hne
      rw [if_pos hne] at hjoin
      exact ⟨h.queued, h.running, hjoin, h.registered⟩
    · exact h
  · rw [heq]
    have hnone : ∀ q ∈ s.queued,
        q.canonicalKey ≠ d.canonicalKey ∧
          downloadOrigin cfg d.url ≠ downloadOrigin cfg q.url := by
      intro q hq
      refine ⟨?_, ?_⟩
      · intro hsame
        refine hqueued ((htables.queuedKeys _).2 ?_)
        rw [← hsame]
        exact List.mem_map_of_mem hq
      · intro ho
        have hno := hwork q hq
        rw [← Bool.not_eq_true, canStart_iff] at hno
        rw [canStart_iff, ho] at hcan
        exact hno hcan
    have hmarked := schedulerInv_marked (schedulerInv_numbered htables)
      (d := s.numbered d) hactive (fun q hq => (hnone q hq).1) hcan
      (fun a ha _ => htables.startsIssued a ha)
      (fun q hq ho => absurd ho (hnone q hq).2) (Nat.lt_succ_self _)
    refine carries_started hmarked ?_ hd
    exact h.of_frame (fun _ hq => hq) rfl rfl fun _ _ hk => hk
  · rw [heq]
    exact h
  · rw [heq]
    refine ⟨?_, h.running, h.joined, h.registered⟩
    intro q hq
    rcases List.mem_append.1 hq with hq | hq
    · exact h.queued q hq
    · rw [List.mem_singleton.1 hq]
      exact hd

-- ================================================================= ends

/-- A download that ends hands over its own key and the joined ones. -/
theorem carries_clientEnds (h : Carries P J s) {client : ClientId}
    {e : Ended} (hend : clientEnds cfg client s = some e) :
    s.clients.lookup client = some e.client ∧
      (e.client.cancelRequested = false → P e.client.download) ∧
      (∀ k ∈ e.responseKeys, e.client.download.responseKey = k ∨
        J e.client.download.canonicalKey k) ∧
      Carries P J e.downloads := by
  obtain ⟨hc, -, hkeys, heq⟩ := clientEnds_inv hend
  refine ⟨hc, h.running client e.client hc, ?_, ?_⟩
  · intro k hk
    rw [hkeys] at hk
    unfold responseKeys at hk
    rcases mem_foldl_appendNew.1 hk with hk | hk
    · split at hk
      · exact Or.inl (List.mem_singleton.1 hk).symm
      · cases hk
    · exact Or.inr (h.joined _ k hk)
  · have hlookup : ∀ id c, e.downloads.clients.lookup id = some c →
        id ≠ client ∧ s.clients.lookup id = some c := by
      intro id c hid
      rw [heq] at hid
      have hid : (s.clients.erase client).lookup id = some c := hid
      by_cases hsame : id = client
      · rw [hsame, AList.lookup_erase] at hid
        cases hid
      · rw [AList.lookup_erase_ne hsame] at hid
        exact ⟨hsame, hid⟩
    refine ⟨?_, ?_, ?_, ?_⟩
    · rw [heq]
      exact h.queued
    · intro id c hid
      exact h.running id c (hlookup id c hid).2
    · intro key k hk
      rw [heq] at hk
      have hk : k ∈ ((s.joinedResponseKeys.erase
        e.client.download.canonicalKey).lookup key).getD [] := hk
      by_cases hsame : key = e.client.download.canonicalKey
      · rw [hsame, AList.lookup_erase] at hk
        cases hk
      · rw [AList.lookup_erase_ne hsame] at hk
        exact h.joined key k hk
    · intro id c hid
      obtain ⟨hne, hid⟩ := hlookup id c hid
      have hreg := h.registered id c hid
      rw [heq]
      show (s.activeClients.erase e.client.download.canonicalKey).lookup
        c.download.canonicalKey = some id
      rw [AList.lookup_erase_ne]
      · exact hreg
      · intro hsame
        have hmine := h.registered client e.client hc
        rw [hsame, hmine] at hreg
        exact hne (Option.some.inj hreg).symm

-- =========================================================== cancelling

/-- Draining the queue joins nothing. -/
theorem drainQueue_joined (queue : List QueuedDownload) (s : Downloads)
    {key k : String} (h : k ∈ (drainQueue queue s).2.joinedAt key) :
    k ∈ s.joinedAt key := by
  induction queue generalizing s with
  | nil => exact h
  | cons d queue ih =>
      have hrest := ih { (takeResponseKeysLocked d s).2 with
        invalidated := (takeResponseKeysLocked d s).2.invalidated.erase
          d.canonicalKey } h
      have hrest : k ∈ ((s.joinedResponseKeys.erase
        d.canonicalKey).lookup key).getD [] := hrest
      by_cases hsame : key = d.canonicalKey
      · rw [hsame, AList.lookup_erase] at hrest
        cases hrest
      · rw [AList.lookup_erase_ne hsame] at hrest
        exact hrest

/-- After a cancel nothing is carried: the queue is empty and every live
client was told to cancel. Keys joined to running downloads stay. -/
theorem carries_cancel (h : Carries P J s) :
    Carries P' J (cancelUpstreamDownloads s).2 := by
  obtain ⟨invalidated, joined, heq⟩ :=
    drainQueue_eq s.queued { s with queued := [] }
  have hjoined : ∀ key k,
      k ∈ (cancelUpstreamDownloads s).2.joinedAt key → k ∈ s.joinedAt key :=
    fun key k hk => drainQueue_joined s.queued { s with queued := [] } hk
  have hlookup : ∀ id c,
      (cancelUpstreamDownloads s).2.clients.lookup id = some c →
      c.cancelRequested = true ∧
        ∃ c₀, s.clients.lookup id = some c₀ ∧ c₀.download = c.download := by
    intro id c hc
    unfold cancelUpstreamDownloads at hc
    simp only [heq] at hc
    rw [QHash.lookup_filterMapValues] at hc
    obtain ⟨c₀, hc₀, hc⟩ := Option.bind_eq_some_iff.1 hc
    cases hc
    refine ⟨?_, c₀, hc₀, rfl⟩
    have hmem : id ∈ s.activeClients.entries.map (·.2) :=
      List.mem_map.2 ⟨_, AList.mem_lookup_iff.1 (h.registered id c₀ hc₀),
        rfl⟩
    simp only [List.contains_iff_mem.2 hmem, Bool.or_true]
  refine ⟨?_, ?_, fun key k hk => h.joined key k (hjoined key k hk), ?_⟩
  · intro d hd
    unfold cancelUpstreamDownloads at hd
    simp only [heq] at hd
    cases hd
  · intro id c hc hlive
    rw [(hlookup id c hc).1] at hlive
    cases hlive
  · intro id c hc
    obtain ⟨-, c₀, hc₀, hsame⟩ := hlookup id c hc
    unfold cancelUpstreamDownloads
    simp only [heq]
    rw [← hsame]
    exact h.registered id c₀ hc₀

end AowisMap.Maps.Downloads
