/-
No tile bytes cross an upstream URL change, in every run in which no
write's callback meets a question of another template.

# Where templates meet

The store keeps the templates apart (Maps/Proofs/Upstream.lean): what it
caches, reads or downloads is of the present template, and a pending
write goes to the directory of its own. What it does not keep apart is
whom a pending write answers. The callback emits `tileReady` for the
response keys its download collected, and a response key names a tile,
not a catalogue. A read's callback looks at the cache generation before
it answers; a write's callback does not, so a request that came after
the change is answered with the bytes the write was for
(`lateWrite_crosses`).

# The invariant

`WatchInv` ties a waiting question to the registry: its promise waits
under its own key only, so a signal answers it only if its key is the
question's, and a key names one provider.
-/
import AowisMap.Server.Watch
import AowisMap.Server.Proofs.Tiles

namespace AowisMap.Server.TileEndpoint

open Lib Maps

variable {cfg : TileConfig} {templates : Set String}
  {past : List Watched} {w u : Watched}

-- ========================================================= response keys

/-- The response keys of a provider's tiles. -/
def AsksFor (provider key : String) : Prop :=
  '%' ∉ provider.toList ∧ ∃ request : TileGet,
    request.provider = provider ∧ request.key = key

/-- The key of a request without place markers, written out. -/
theorem key_toList {request : TileGet}
    (h : '%' ∉ request.provider.toList) :
    request.key.toList = request.provider.toList
      ++ '_' :: (QString.number request.z
        ++ '_' :: (QString.number request.x
          ++ '_' :: QString.number request.y)) := by
  unfold TileGet.key
  rw [String.toList_ofList]
  exact QString.fourPlaces_plain QString.separator_underscore request.z
    request.x request.y h

/-- A response key names its provider. -/
theorem AsksFor.unique {p q key : String} (hp : AsksFor p key)
    (hq : AsksFor q key) : p = q := by
  obtain ⟨hplain, request, rfl, hkey⟩ := hp
  obtain ⟨hplain', request', rfl, hkey'⟩ := hq
  have hlist := congrArg String.toList (hkey.trans hkey'.symm)
  rw [key_toList hplain, key_toList hplain'] at hlist
  exact String.toList_inj.1
    (QString.fourPlaces_inj (c := '_') (by decide) rfl hlist)

-- ============================================================== hearing

theorem foldl_hear_server (signals : List Signal) (w : Watched) :
    (signals.foldl hear w).server = signals.foldl onSignal w.server := by
  induction signals generalizing w with
  | nil => rfl
  | cons signal signals ih => exact ih (hear w signal)

/-- The watcher changes nothing: the watched server is the endpoint. -/
theorem exchange_server {a : Exchange} (h : exchange cfg a w = some u) :
    a.serve cfg w.server = some u.server := by
  have hstore : ∀ {a : Maps.Action} {w u : Watched},
      hearStore cfg a w = some u →
      apply cfg (.store a) w.server = some u.server := by
    intro a w u h
    obtain ⟨maptiles, hstep, rfl⟩ := Option.map_eq_some_iff.1 h
    show (Maps.apply cfg.store a w.server.maptiles).map _ = _
    rw [hstep, foldl_hear_server]
    rfl
  cases a with
  | get choice request =>
      cases h
      show some (getTile cfg choice request w.server).2 = _
      congr 1
      unfold ask
      simp only
      split
      · rfl
      · split
        · rfl
        · split
          · rfl
          · rfl
        · rfl
  | put providers =>
      unfold exchange at h
      obtain ⟨v, hv, rfl⟩ := Option.map_eq_some_iff.1 h
      obtain ⟨v', hcancel, hconfigure⟩ := Option.bind_eq_some_iff.1 hv
      show putProviders cfg providers w.server = _
      unfold putProviders
      rw [hstore hcancel]
      exact hstore hconfigure
  | event a => exact hstore h

/-- A question whose promise waits under its own key, asked under its
provider's present template. -/
structure QuestionInv (s : State) (q : Question) : Prop where
  issued : q.promise < s.nextPromise
  plain : '%' ∉ q.request.provider.toList
  template : templateOf s.maptiles.configuredProviders q.request.provider
    = some q.template
  keyed : ∀ key, q.promise ∈ waitingAt s key → key = q.request.key

/-- The registry holds promises that were created, and the questions and
answers are what they should be. -/
structure RegistryInv (past : List Watched) (w : Watched) : Prop where
  promises : ∀ key, ∀ p ∈ waitingAt w.server key, p < w.server.nextPromise
  questions : ∀ q ∈ w.waiting, QuestionInv w.server q
  answers : AnswersSeparate past w

/-- The bytes of a signal are those every question waiting under its key
asks for. -/
def AnswersRightly (past : List Watched) (w : Watched) (signal : Signal) :
    Prop :=
  ∀ key data, signal = .tileReady key data → ∀ q ∈ w.waiting,
    q.request.key = key → q.promise ∈ waitingAt w.server key →
    Downloaded (stores past) q.request.provider q.template data

/-- Promises taken from the registry. -/
theorem mem_waitingAt_onSignal {s : State} {signal : Signal} {key : String}
    {p : Promise} (h : p ∈ waitingAt (onSignal s signal) key) :
    key ≠ signal.key ∧ p ∈ waitingAt s key := by
  have h : p ∈ ((s.connectionsPending.erase signal.key).lookup key).getD []
    := h
  by_cases hsame : key = signal.key
  · rw [hsame, AList.lookup_erase] at h
    cases h
  · rw [AList.lookup_erase_ne hsame] at h
    exact ⟨hsame, h⟩

/-- Hearing a signal that answers rightly. -/
theorem registryInv_hear (h : RegistryInv past w) {signal : Signal}
    (hright : AnswersRightly past w signal) :
    RegistryInv past (hear w signal) := by
  refine ⟨?_, ?_, ?_⟩
  · intro key p hp
    exact h.promises key p (mem_waitingAt_onSignal hp).2
  · intro q hq
    have hq := (List.mem_filter.1 hq).1
    have hquestion := h.questions q hq
    exact ⟨hquestion.issued, hquestion.plain, hquestion.template,
      fun key hkey => hquestion.keyed key (mem_waitingAt_onSignal hkey).2⟩
  · intro a ha
    cases signal with
    | tileFailed key reason => exact h.answers a ha
    | tileReady key data =>
        rcases List.mem_append.1 ha with ha | ha
        · exact h.answers a ha
        · obtain ⟨q, hq, rfl⟩ := List.mem_map.1 ha
          obtain ⟨hq, hcompleted⟩ := List.mem_filter.1 hq
          have hwaits : q.promise ∈ waitingAt w.server key :=
            List.contains_iff_mem.1 hcompleted
          exact hright key data rfl q hq
            ((h.questions q hq).keyed key hwaits).symm hwaits

/-- Fewer questions wait after a signal. -/
theorem AnswersRightly.hear {signal : Signal}
    (h : AnswersRightly past w signal) (other : Signal) :
    AnswersRightly past (hear w other) signal := by
  intro key data heq q hq hkey hwaits
  exact h key data heq q (List.mem_filter.1 hq).1 hkey
    (mem_waitingAt_onSignal hwaits).2

theorem registryInv_hearAll (signals : List Signal)
    (h : RegistryInv past w)
    (hright : ∀ signal ∈ signals, AnswersRightly past w signal) :
    RegistryInv past (signals.foldl hear w) := by
  induction signals generalizing w with
  | nil => exact h
  | cons signal signals ih =>
      refine ih (registryInv_hear h (hright signal List.mem_cons_self)) ?_
      intro other hother
      exact (hright other (List.mem_cons_of_mem _ hother)).hear signal

-- ============================================================= every step

/-- The store keeps templates apart, and so does the registry. -/
structure WatchInv (cfg : TileConfig) (templates : Set String)
    (past : List Watched) (w : Watched) : Prop where
  store : UpstreamInv cfg.store templates AsksFor (stores past)
    w.server.maptiles
  registry : RegistryInv past w

theorem WatchInv.mono (h : WatchInv cfg templates past w) (w₀ : Watched) :
    WatchInv cfg templates (past ++ [w₀]) w := by
  have hsub : ∀ s ∈ stores past, s ∈ stores (past ++ [w₀]) := by
    intro s hs
    unfold stores
    rw [List.map_append]
    exact List.mem_append_left _ hs
  exact ⟨h.store.mono hsub, h.registry.promises, h.registry.questions,
    fun a ha => (h.registry.answers a ha).mono hsub⟩

/-- A transition of the store that keeps the catalogue, its signals
heard. -/
theorem watchInv_heard (h : WatchInv cfg templates past w)
    {maptiles : Maps.State}
    (hstore : UpstreamInv cfg.store templates AsksFor (stores past) maptiles)
    (hcatalogue : maptiles.configuredProviders
      = w.server.maptiles.configuredProviders)
    (hright : ∀ signal ∈ maptiles.outbox, AnswersRightly past w signal) :
    WatchInv cfg templates past (maptiles.outbox.foldl hear
      { w with server := { w.server with maptiles := maptiles } }) := by
  refine ⟨?_, ?_⟩
  · rw [foldl_hear_server, foldl_onSignal_maptiles]
    exact hstore
  · refine registryInv_hearAll maptiles.outbox ?_ ?_
    · refine ⟨h.registry.promises, ?_, h.registry.answers⟩
      intro q hq
      obtain ⟨hissued, hplain, htemplate, hkeyed⟩ :=
        h.registry.questions q hq
      refine ⟨hissued, hplain, ?_, hkeyed⟩
      rw [← htemplate]
      exact congrArg (templateOf · q.request.provider) hcatalogue
    · exact hright

/-- A sound signal answers rightly. -/
theorem WatchInv.answersRightly (h : WatchInv cfg templates past w)
    {signal : Signal}
    (hsound : SoundSignal AsksFor (stores past)
      w.server.maptiles.configuredProviders signal) :
    AnswersRightly past w signal := by
  intro key data heq q hq hkey _
  obtain ⟨p, hp, t, ht, hdata⟩ := hsound key data heq
  have hquestion := h.registry.questions q hq
  have hsame : p = q.request.provider :=
    hp.unique ⟨hquestion.plain, q.request, rfl, hkey⟩
  rw [hsame, hquestion.template] at ht
  rw [hsame, ← Option.some.inj ht] at hdata
  exact hdata

/-- The bytes of a pending write were downloaded under every template its
URL is built from. -/
theorem writtenUnder_downloaded {stores : List Maps.State}
    {markers : QHash String String} {wr : CacheWrite}
    (h : WrittenUnder cfg.store templates AsksFor stores markers wr)
    {template : String} (hbuilt : BuiltFrom template wr.download.url) :
    Downloaded stores wr.download.tilePath.dir.provider template wr.data
    := by
  obtain ⟨origin, horigin, s, hs, c, hc, hdownload⟩ := h.sent
  refine ⟨origin, horigin, s, hs, c, hc, ?_, ?_⟩
  · rw [hdownload]
  · rw [hdownload]
    exact hbuilt

/-- Callbacks and workers keep the invariant. -/
theorem watchInv_event (hdistinct : DistinctPrefixes cfg.store templates)
    (h : WatchInv cfg templates past w) (hnow : w.server.maptiles ∈ stores past)
    {a : Maps.Action} (hcallback : Callback a)
    (happart : KeepsApart (.event a) w) (hstep : hearStore cfg a w = some u) :
    WatchInv cfg templates past u := by
  obtain ⟨maptiles, hperform, rfl⟩ := Option.map_eq_some_iff.1 hstep
  have hclear := h.store.of_outbox []
  have hsound : Sound cfg.store templates AsksFor (stores past)
      w.server.maptiles.configuredProviders maptiles →
      WatchInv cfg templates past (maptiles.outbox.foldl hear
        { w with server := { w.server with maptiles := maptiles } }) :=
    fun hsound => watchInv_heard h hsound.inv hsound.catalogue
      fun signal hsignal => h.answersRightly (hsound.signals signal hsignal)
  cases a with
  | requestFinished client bytes mayStore =>
      have hfinished :=
        requestFinished_sound hclear ⟨_, hnow, rfl⟩ rfl hperform
      exact hsound hfinished
  | requestError client reason =>
      have hfailed := requestError_sound hclear rfl hperform
      exact hsound hfailed
  | writeRuns write saved =>
      have hran := writeRuns_sound hclear rfl hperform
      exact hsound hran
  | writeFinished write =>
      obtain ⟨hinv, hcatalogue, wr, hwr, houtbox⟩ :=
        writeFinished_answers hclear rfl hperform
      have hwr : w.server.maptiles.writes.lookup write = some wr := hwr
      refine watchInv_heard h hinv hcatalogue ?_
      intro signal hsignal key data heq q hq hkey hwaits
      rw [houtbox] at hsignal
      obtain ⟨k, hk, rfl⟩ := List.mem_map.1 hsignal
      cases heq
      have hunder := h.store.writes write wr hwr
      have hbuilt := happart wr hwr q hq (by rw [hkey]; exact hk)
        (by rw [hkey]; exact hwaits)
      have hsame := (hunder.answers key hk).unique
        ⟨(h.registry.questions q hq).plain, q.request, rfl, hkey⟩
      rw [← hsame]
      exact writtenUnder_downloaded hunder hbuilt
  | readRuns read =>
      have hran := readRuns_sound hdistinct hclear rfl hperform
      exact hsound hran
  | readFinished read choices =>
      have hfinished :=
        readFinished_sound hdistinct hclear rfl hcallback hperform
      exact hsound hfinished
  | evict key =>
      cases hperform
      have hevicted := evict_sound hclear rfl key
      exact hsound hevicted
  | _ => cases hcallback

-- ============================================================= requests

/-- What a request leaves in the server: the store's state behind it, and
one more promise under the request's key if it waits. -/
structure Asked (request : TileGet) (maptiles : Maps.State) (s t : State) :
    Prop where
  maptiles : t.maptiles = maptiles
  next_le : s.nextPromise ≤ t.nextPromise
  waiting : ∀ key p, p ∈ waitingAt t key → p ∈ waitingAt s key ∨
    key = request.key ∧ p = s.nextPromise ∧ p < t.nextPromise

theorem awaitTile_asked (request : TileGet) (s : State) :
    Asked request s.maptiles s (awaitTile cfg request.key s) ∧
      (awaitTile cfg request.key s).nextPromise = s.nextPromise + 1 := by
  unfold awaitTile appendPendingPromise
  simp only
  split
  · rename_i t heq
    split at heq
    · cases heq
    · cases heq
      refine ⟨⟨rfl, Nat.le_succ _, ?_⟩, rfl⟩
      intro key p hp
      have hp : p ∈ ((s.connectionsPending.insert request.key
        ((s.connectionsPending.lookup request.key).getD []
          ++ [s.nextPromise])).lookup key).getD [] := hp
      by_cases hsame : key = request.key
      · rw [hsame, AList.lookup_insert, Option.getD_some] at hp
        rcases List.mem_append.1 hp with hp | hp
        · refine Or.inl ?_
          rw [hsame]
          exact hp
        · have hp := List.mem_singleton.1 hp
          refine Or.inr ⟨hsame, hp, ?_⟩
          rw [hp]
          exact Nat.lt_succ_self _
      · rw [AList.lookup_insert_ne hsame] at hp
        exact Or.inl hp
  · exact ⟨⟨rfl, Nat.le_succ _, fun _ _ hp => Or.inl hp⟩, rfl⟩

/-- The handler of a request, on a store that stays silent: its promise
waits exactly if the tile is pending and delivery is not cache-first. -/
theorem getTile_asked {choice : Choice} {request : TileGet} {s : State}
    (hquiet : (getTileForHttp cfg.store choice request.provider request.z
      request.x request.y request.key
      { s.maptiles with outbox := [] }).2.outbox = [])
    (hauthorized : request.authorized = true) :
    let r := getTileForHttp cfg.store choice request.provider request.z
      request.x request.y request.key { s.maptiles with outbox := [] }
    Asked request (answered request.key r) s
        (getTile cfg choice request s).2 ∧
      (r.1.status = .pending → request.cacheFirst = false →
        s.nextPromise < (getTile cfg choice request s).2.nextPromise) := by
  intro r
  have hdeliver : deliver { s with maptiles := answered request.key r }
      = { s with maptiles := answered request.key r } := by
    have houtbox : (answered request.key r).outbox = [] := by
      unfold answered
      split
      · exact hquiet
      · exact hquiet
    unfold deliver
    simp only [houtbox]
    rfl
  obtain ⟨hasked, hnext⟩ := @awaitTile_asked cfg request
    { s with maptiles := answered request.key r }
  unfold getTile
  rw [if_pos hauthorized]
  simp only
  rw [hdeliver]
  cases hready : readyReply request.cacheFirst r.1 with
  | some reply =>
      refine ⟨⟨rfl, Nat.le_refl _, fun _ _ hp => Or.inl hp⟩, ?_⟩
      intro hpending hfirst
      unfold readyReply at hready
      rw [hpending, hfirst] at hready
      cases hready
  | none =>
      refine ⟨⟨hasked.maptiles, hasked.next_le, hasked.waiting⟩, ?_⟩
      intro _ _
      simp only
      rw [hnext]
      exact Nat.lt_succ_self _

/-- The server behind a request, before the watcher looks at the answer.
-/
theorem watchInv_asked (h : WatchInv cfg templates past w)
    {request : TileGet} {maptiles : Maps.State} {server : State}
    (hasked : Asked request maptiles w.server server)
    (hstore : UpstreamInv cfg.store templates AsksFor (stores past) maptiles)
    (hcatalogue : maptiles.configuredProviders
      = w.server.maptiles.configuredProviders) :
    WatchInv cfg templates past { w with server := server } := by
  refine ⟨?_, ?_, ?_, h.registry.answers⟩
  · show UpstreamInv cfg.store templates AsksFor (stores past) server.maptiles
    rw [hasked.maptiles]
    exact hstore
  · intro key p hp
    rcases hasked.waiting key p hp with hp | ⟨-, -, hlt⟩
    · exact Nat.lt_of_lt_of_le (h.registry.promises key p hp) hasked.next_le
    · exact hlt
  · intro q hq
    obtain ⟨hissued, hplain, htemplate, hkeyed⟩ := h.registry.questions q hq
    refine ⟨Nat.lt_of_lt_of_le hissued hasked.next_le, hplain, ?_, ?_⟩
    · show templateOf server.maptiles.configuredProviders _ = _
      rw [hasked.maptiles, hcatalogue]
      exact htemplate
    · intro key hkey
      rcases hasked.waiting key _ hkey with hkey | ⟨-, hnew, -⟩
      · exact hkeyed key hkey
      · exact absurd hnew (Nat.ne_of_lt hissued)

/-- Requests keep the invariant. -/
theorem watchInv_ask (hdistinct : DistinctPrefixes cfg.store templates)
    (h : WatchInv cfg templates past w) {choice : Choice}
    (hchoice : choice.markerWritten = true) {request : TileGet}
    (hplain : '%' ∉ request.provider.toList) :
    WatchInv cfg templates past (ask cfg choice request w) := by
  have hasks : AsksFor request.provider request.key :=
    ⟨hplain, request, rfl, rfl⟩
  have hserved := getTileForHttp_served hdistinct (h.store.of_outbox [])
    hchoice hplain hasks request.z request.x request.y
  cases hauthorized : request.authorized with
  | false =>
      have hsame : ask cfg choice request w = w := by
        unfold ask getTile
        simp only [hauthorized, Bool.false_eq_true, if_false]
        split
        · rfl
        · rfl
      rw [hsame]
      exact h
  | true =>
      obtain ⟨hasked, hissued⟩ := @getTile_asked cfg choice request w.server
        hserved.outbox hauthorized
      have hanswered : ∀ r : TileRequestResult × Maps.State,
          UpstreamInv cfg.store templates AsksFor (stores past) r.2 →
          UpstreamInv cfg.store templates AsksFor (stores past)
              (answered request.key r) ∧
            (answered request.key r).configuredProviders
              = r.2.configuredProviders := by
        intro r hr
        unfold answered
        split
        · exact ⟨⟨hr.unset, hr.known, hr.marked, hr.dirs, hr.scheduled,
            hr.downloads, hr.writes, hr.files, hr.entries, hr.reads,
            hr.waiting⟩, rfl⟩
        · exact ⟨hr, rfl⟩
      obtain ⟨hstore, hcatalogue⟩ := hanswered _ hserved.inv
      rw [hserved.providers] at hcatalogue
      have hheard := watchInv_asked h hasked hstore hcatalogue
      unfold ask
      simp only
      split
      · exact hheard
      · rename_i template htemplate
        rw [hauthorized]
        split
        · rename_i hready
          refine ⟨hheard.store, hheard.registry.promises,
            hheard.registry.questions, ?_⟩
          intro a ha
          rcases List.mem_append.1 ha with ha | ha
          · exact h.registry.answers a ha
          · rw [List.mem_singleton.1 ha]
            obtain ⟨t, ht, hdata⟩ := hserved.data hready
            have ht : templateOf w.server.maptiles.configuredProviders
              request.provider = some t := ht
            rw [htemplate] at ht
            rw [← Option.some.inj ht] at hdata
            exact hdata
        · rename_i hpending
          split
          · exact hheard
          · rename_i hfirst
            refine ⟨hheard.store, hheard.registry.promises, ?_,
              hheard.registry.answers⟩
            intro q hq
            rcases List.mem_append.1 hq with hq | hq
            · exact hheard.registry.questions q hq
            · rw [List.mem_singleton.1 hq]
              refine ⟨hissued hpending (Bool.not_eq_true _ |>.mp hfirst),
                hplain, ?_, ?_⟩
              · show templateOf (getTile cfg choice request
                  w.server).2.maptiles.configuredProviders _ = _
                rw [hasked.maptiles, hcatalogue]
                exact htemplate
              · intro key hkey
                rcases hasked.waiting key _ hkey with hkey | ⟨hkey, -⟩
                · exact absurd (h.registry.promises key _ hkey)
                    (Nat.lt_irrefl _)
                · exact hkey
        · exact hheard

-- =========================================================== catalogues

/-- Cancelling fails the keys of the queue. -/
theorem cancel_signals (s : Maps.State) (hquiet : s.outbox = []) :
    ∀ signal ∈ (cancelUpstreamDownloads s).outbox, ∀ key data,
      signal ≠ .tileReady key data := by
  intro signal hsignal key data heq
  unfold cancelUpstreamDownloads at hsignal
  rw [emitFailed_eq] at hsignal
  have hsignal : signal ∈ s.outbox ++ _ := hsignal
  rw [hquiet, List.nil_append] at hsignal
  obtain ⟨k, -, rfl⟩ := List.mem_map.1 hsignal
  cases heq

/-- A PUT keeps the invariant: the downloads are cancelled, and questions
of a changed template are forgotten. -/
theorem watchInv_put (h : WatchInv cfg templates past w)
    {providers : List MapProvider}
    (hproviders : ∀ p ∈ providers, p.urlTemplate ∈ templates)
    (hstep : exchange cfg (.put providers) w = some u) :
    WatchInv cfg templates past u := by
  unfold exchange at hstep
  obtain ⟨v, hv, rfl⟩ := Option.map_eq_some_iff.1 hstep
  obtain ⟨v', hcancel, hconfigure⟩ := Option.bind_eq_some_iff.1 hv
  obtain ⟨maptiles, hmaptiles, rfl⟩ := Option.map_eq_some_iff.1 hcancel
  obtain ⟨configured, hconfigured, rfl⟩ :=
    Option.map_eq_some_iff.1 hconfigure
  have hmaptiles : cancelUpstreamDownloads
      { w.server.maptiles with outbox := [] } = maptiles :=
    Option.some.inj hmaptiles
  rw [foldl_hear_server, foldl_onSignal_maptiles] at hconfigured
  have hconfigured : configureProviders providers cfg.downloadCoverage
      cfg.mapCoverage { maptiles with outbox := [] } = configured :=
    Option.some.inj hconfigured
  subst hmaptiles
  -- the registry behind the failed keys
  have hregistry : RegistryInv past ((cancelUpstreamDownloads
      { w.server.maptiles with outbox := [] }).outbox.foldl hear
      { w with
        server := { w.server with
          maptiles := cancelUpstreamDownloads
            { w.server.maptiles with outbox := [] } } }) := by
    refine registryInv_hearAll _ ?_ ?_
    · refine ⟨h.registry.promises, ?_, h.registry.answers⟩
      intro q hq
      obtain ⟨hissued, hplain, htemplate, hkeyed⟩ :=
        h.registry.questions q hq
      refine ⟨hissued, hplain, ?_, hkeyed⟩
      rw [← htemplate]
      unfold cancelUpstreamDownloads
      rw [emitFailed_eq]
      rfl
    · intro signal hsignal key data heq
      exact absurd heq (cancel_signals _ rfl signal hsignal key data)
  have hquiet : configured.outbox = [] := by
    rw [← hconfigured]
    rfl
  rw [hquiet, List.foldl_nil]
  refine ⟨?_, hregistry.promises, ?_, hregistry.answers⟩
  · show UpstreamInv cfg.store templates AsksFor (stores past) configured
    have hstore := h.store.reconfigured providers cfg.downloadCoverage
      cfg.mapCoverage hproviders
    rw [← hconfigured]
    unfold cancelUpstreamDownloads
    rw [emitFailed_eq]
    exact ⟨hstore.unset, hstore.known, hstore.marked, hstore.dirs,
      hstore.scheduled, hstore.downloads, hstore.writes, hstore.files,
      hstore.entries, hstore.reads, hstore.waiting⟩
  · intro q hq
    obtain ⟨hq, htemplate⟩ := List.mem_filter.1 hq
    obtain ⟨hissued, hplain, -, hkeyed⟩ := hregistry.questions q hq
    exact ⟨hissued, hplain, of_decide_eq_true htemplate, hkeyed⟩

-- ======================================================== reachability

theorem watchInv_init (hcatalogue : ∀ p ∈ cfg.mapProviders,
      p.urlTemplate ∈ templates)
    (hpermanent : cfg.permanentDataDirectory = "") :
    WatchInv cfg templates [] (Watched.init cfg) := by
  refine ⟨?_, ?_, ?_, ?_⟩
  · refine ⟨hpermanent, ?_, ?_, ?_,
      Downloads.scheduled_reachable .refl, Downloads.carries_init, ?_, ?_, ?_,
      ?_, ?_⟩
    · intro p t ht
      obtain ⟨q, hq, rfl⟩ := templateOf_configured ht
      exact hcatalogue q hq
    all_goals
      intro _ _ hnone
      cases hnone
  · intro key p hp
    cases hp
  · intro q hq
    cases hq
  · intro a ha
    cases ha

/-- The server's part of a step lies in the past of the next one. -/
theorem watchInv_step (hdistinct : DistinctPrefixes cfg.store templates)
    {a : Exchange} (h : WatchInv cfg templates past w)
    (hassumed : Assumed templates a) (happart : KeepsApart a w)
    (hstep : exchange cfg a w = some u) :
    WatchInv cfg templates (past ++ [w]) u := by
  have hpast := h.mono w
  have hnow : w.server.maptiles ∈ stores (past ++ [w]) := by
    unfold stores
    rw [List.map_append]
    exact List.mem_append_right _ List.mem_cons_self
  cases a with
  | get choice request =>
      cases hstep
      exact watchInv_ask hdistinct hpast hassumed happart
  | put providers => exact watchInv_put hpast hassumed hstep
  | event a => exact watchInv_event hdistinct hpast hnow hassumed happart hstep

/-- The files of the selected directory, by the invariant. -/
theorem WatchInv.filesSeparate (hdistinct : DistinctPrefixes cfg.store templates)
    (h : WatchInv cfg templates past w) : FilesSeparate cfg past w := by
  intro provider template dir htemplate hdir path file hfile hpath
  obtain ⟨paths, markers, -, hinv, hcurrent⟩ :=
    @providerCachePath_current _ _ _ _ _ hdistinct h.store {} rfl provider
  obtain ⟨hprovider, t, ht, hbelongs⟩ := hcurrent dir hdir
  obtain ⟨t', ht', hbelongs', hdata⟩ := hinv.files path file hfile
  rw [htemplate] at ht
  rw [← Option.some.inj ht, ← hpath] at hbelongs
  have hsame := BelongsTo.unique hdistinct
    (h.store.known provider template htemplate) ht' hbelongs hbelongs'
  rw [← hsame, hpath, hprovider] at hdata
  exact hdata

/-- **No tile bytes cross an upstream URL change** in every run in which
requests name their providers without place markers and no write's
callback meets a question of another template: an answer with image bytes
was downloaded under the template of its question, and every file of a
selected directory under its provider's template. -/
theorem no_bytes_cross (hdistinct : DistinctPrefixes cfg.store templates)
    (hcatalogue : ∀ p ∈ cfg.mapProviders, p.urlTemplate ∈ templates)
    (hpermanent : cfg.permanentDataDirectory = "")
    (h : Run (recorded (exchange cfg))
      (fun a r => Assumed templates a ∧ KeepsApart a r.2)
      ([], Watched.init cfg) (past, w)) :
    AnswersSeparate past w ∧ FilesSeparate cfg past w := by
  have hinv : WatchInv cfg templates (past, w).1 (past, w).2 := by
    refine h.invariant (P := fun r => WatchInv cfg templates r.1 r.2)
      (watchInv_init hcatalogue hpermanent) ?_
    intro a r₁ r₂ hinv hok hstep
    obtain ⟨hstep, hpast⟩ := recorded_inv hstep
    rw [hpast]
    exact watchInv_step hdistinct hinv hok.1 hok.2 hstep
  exact ⟨hinv.registry.answers, hinv.filesSeparate hdistinct⟩

-- ================================================================== runs

/-- A URL starts with what stands before the template's first place. -/
theorem builtFrom_starts {template url : String} (h : BuiltFrom template url)
    {xs ys : List Char} (htemplate : template.toList = xs ++ ys)
    (hplain : '{' ∉ xs) : ∃ zs, url.toList = xs ++ zs := by
  obtain ⟨source, subdomain, zoom, x, y, hsource, rfl⟩ := h
  unfold providerUrl domainRandomizer
  rw [hsource, htemplate, String.toList_ofList]
  have hcopy : ∀ before after cs : List Char,
      QString.replaceAll ('{' :: before) after 0 (xs ++ cs)
        = xs ++ QString.replaceAll ('{' :: before) after 0 cs :=
    QString.replaceAll_append hplain
  have hs : "{s}".toList = ['{', 's', '}'] := by simp
  have hz : "{z}".toList = ['{', 'z', '}'] := by simp
  have hx : "{x}".toList = ['{', 'x', '}'] := by simp
  have hy : "{y}".toList = ['{', 'y', '}'] := by simp
  simp only [hs, hz, hx, hy, hcopy]
  exact ⟨_, rfl⟩

/-- The template OpenStreetMap has first. -/
def firstTemplate : String := "https://tile.openstreetmap.org/{z}/{x}/{y}.png"

/-- The template a PUT gives it. -/
def secondTemplate : String := "https://maps.example.org/{z}/{x}/{y}.png"

/-- A catalogue of OpenStreetMap under a template. -/
def catalogueOf (template : String) : List MapProvider :=
  [ { id := openStreetMap, urlTemplate := template } ]

/-- The SHA-256 fingerprints of the two templates. -/
def templateFingerprint (template : String) : String :=
  if template = firstTemplate then
    "f65928ca3a8e2a2e0128134b3041fe34c8473fb34e486401c5197e7d9e4a76bc"
  else "0d35c33574b5c832c762901fb98ed30d020028c304a83a87d62a1501671aadb5"

/-- A server on that catalogue. -/
def changingServer : TileConfig where
  cacheDirectory := "/var/cache/aowis"
  maximumActiveDownloads := 2
  maximumPendingRequests := 4
  mapProviders := catalogueOf firstTemplate
  parseUrl url :=
    { scheme := "https"
      host := if url.toList.take 13 = "https://tile.".toList
        then "tile.openstreetmap.org" else "maps.example.org"
      port := -1 }
  fingerprint := templateFingerprint

/-- A request of one of its tiles. -/
def tileRequest (x : Int) : TileGet :=
  { provider := openStreetMap, z := 3, x := x, y := 0 }

/-- The templates the runs below use. -/
def twoTemplates : Set String := {firstTemplate, secondTemplate}

/-- Their fingerprints tell them apart. -/
theorem changingServer_distinct :
    DistinctPrefixes changingServer.store twoTemplates := by
  have hne : secondTemplate ≠ firstTemplate := by decide
  have hfirst : templateFingerprint firstTemplate
      = "f65928ca3a8e2a2e0128134b3041fe34c8473fb34e486401c5197e7d9e4a76bc" := by
    exact if_pos rfl
  have hsecond : templateFingerprint secondTemplate
      = "0d35c33574b5c832c762901fb98ed30d020028c304a83a87d62a1501671aadb5" := by
    exact if_neg hne
  refine ⟨?_, ?_⟩
  · rintro t (rfl | rfl)
    · show templateFingerprint firstTemplate ≠ ""
      rw [hfirst]
      simp
    · show templateFingerprint secondTemplate ≠ ""
      rw [hsecond]
      simp
  · intro t ht t' ht' heq
    have heq : (templateFingerprint t).toList.take 16
      = (templateFingerprint t').toList.take 16 := heq
    rcases ht with rfl | rfl <;> rcases ht' with rfl | rfl
    · rfl
    · rw [hfirst, hsecond] at heq
      exact absurd heq (by decide)
    · rw [hfirst, hsecond] at heq
      exact absurd heq (by decide)
    · rfl

/-- Catalogues of these templates. -/
theorem catalogueOf_known {template : String} (h : template ∈ twoTemplates) :
    ∀ p ∈ catalogueOf template, p.urlTemplate ∈ twoTemplates := by
  intro p hp
  rw [List.mem_singleton.1 hp]
  exact h

/-- One tile is answered under the first template. A second one arrives,
and its file is written. The template changes, and the second tile is
asked for again and answered. -/
def changedTemplate : List Exchange :=
  [ .get {} (tileRequest 1), .event (.requestFinished 0 [7] false),
    .get {} (tileRequest 0), .event (.requestFinished 1 [1] true),
    .event (.writeRuns 0 true), .put (catalogueOf secondTemplate),
    .get {} (tileRequest 0), .event (.requestFinished 2 [2] false) ]

/-- Then the callback of the write runs, and nobody waits for it. -/
theorem no_bytes_cross_changedTemplate :
    ∃ past w, Run (recorded (exchange changingServer))
        (fun a r => Assumed twoTemplates a ∧ KeepsApart a r.2)
        ([], Watched.init changingServer) (past, w) ∧
      AnswersSeparate past w ∧ FilesSeparate changingServer past w ∧
      w.answers.map (fun a => (a.template, a.data.bytes))
        = [(firstTemplate, [7]), (secondTemplate, [2])] := by
  have hwaiting : (runActions (recorded (exchange changingServer))
      changedTemplate ([], Watched.init changingServer)).map
        (fun r => r.2.waiting.length) = some 0 := by
    decide +kernel
  obtain ⟨r₁, hr₁, hnone⟩ := Option.map_eq_some_iff.1 hwaiting
  have hanswers : (runActions (recorded (exchange changingServer))
      (changedTemplate ++ [.event (.writeFinished 0)])
      ([], Watched.init changingServer)).map
        (fun r => r.2.answers.map fun a => (a.template, a.data.bytes))
      = some [(firstTemplate, [7]), (secondTemplate, [2])] := by
    decide +kernel
  obtain ⟨⟨past, w⟩, hw, hval⟩ := Option.map_eq_some_iff.1 hanswers
  have hplain : ∀ x, '%' ∉ (tileRequest x).provider.toList := by
    intro x
    show '%' ∉ openStreetMap.toList
    decide
  have hsecond : secondTemplate ∈ twoTemplates := Or.inr rfl
  have hrun : Run (recorded (exchange changingServer))
      (fun a r => Assumed twoTemplates a ∧ KeepsApart a r.2)
      ([], Watched.init changingServer) (past, w) := by
    refine (run_of_admitted hr₁ ?_).step (.event (.writeFinished 0))
      ⟨trivial, ?_⟩ (runActions_one (runActions_rest hr₁ hw))
    · intro a ha r
      simp only [changedTemplate, List.mem_cons, List.not_mem_nil,
        or_false] at ha
      rcases ha with rfl | rfl | rfl | rfl | rfl | rfl | rfl | rfl
      · exact ⟨rfl, hplain 1⟩
      · exact ⟨trivial, trivial⟩
      · exact ⟨rfl, hplain 0⟩
      · exact ⟨trivial, trivial⟩
      · exact ⟨trivial, trivial⟩
      · exact ⟨catalogueOf_known hsecond, trivial⟩
      · exact ⟨rfl, hplain 0⟩
      · exact ⟨trivial, trivial⟩
    · intro wr _ q hq
      rw [List.length_eq_zero_iff.1 hnone] at hq
      cases hq
  obtain ⟨hanswers, hfiles⟩ := no_bytes_cross changingServer_distinct
    (catalogueOf_known (Or.inl rfl)) rfl hrun
  exact ⟨past, w, hrun, hanswers, hfiles, hval⟩

/-- A tile arrives under the first template, and its cache write is under
way when the template changes. The tile is asked for again, and then the
write's callback runs. -/
def lateWrite : List Exchange :=
  [ .get {} (tileRequest 0), .event (.requestFinished 0 [1] true),
    .put (catalogueOf secondTemplate), .get {} (tileRequest 0),
    .event (.writeRuns 0 true), .event (.writeFinished 0) ]

/-- The second request is answered with the first template's bytes. -/
theorem lateWrite_crosses :
    ¬ ∀ past w, Run (recorded (exchange changingServer))
      (fun a _ => Assumed twoTemplates a)
      ([], Watched.init changingServer) (past, w) →
      AnswersSeparate past w ∧ FilesSeparate changingServer past w := by
  intro hclaim
  have hrun : (runActions (recorded (exchange changingServer)) lateWrite
      ([], Watched.init changingServer)).map (fun r =>
        (r.2.answers.map (fun a => (a.template,
            a.data.origin.map (·.client))),
          (stores r.1).map fun s => (s.downloads.clients.lookup 0).map
            fun c => c.download.url))
      = some ([(secondTemplate, some 0)],
        [none, some "https://tile.openstreetmap.org/3/0/0.png", none, none,
          none, none]) := by
    decide +kernel
  obtain ⟨⟨past, w⟩, hw, hval⟩ := Option.map_eq_some_iff.1 hrun
  obtain ⟨hanswers, hurls⟩ := Prod.mk.inj hval
  have hassumed : Run (recorded (exchange changingServer))
      (fun a _ => Assumed twoTemplates a)
      ([], Watched.init changingServer) (past, w) := by
    refine run_of_admitted hw ?_
    intro a ha r
    simp only [lateWrite, List.mem_cons, List.not_mem_nil, or_false] at ha
    rcases ha with rfl | rfl | rfl | rfl | rfl | rfl
    · rfl
    · trivial
    · exact catalogueOf_known (Or.inr rfl)
    · rfl
    · trivial
    · trivial
  -- the answer, and the only URL its client ever had
  obtain ⟨a, ha⟩ : ∃ a, w.answers = [a] :=
    List.length_eq_one_iff.1 (by
      have hlength := congrArg List.length hanswers
      simpa using hlength)
  rw [ha] at hanswers
  simp only [List.map_cons, List.map_nil, List.cons.injEq, Prod.mk.injEq,
    and_true] at hanswers
  obtain ⟨htemplate, hclient⟩ := hanswers
  obtain ⟨origin, horigin, s, hs, c, hc, -, hbuilt⟩ :=
    (hclaim past w hassumed).1 a (by rw [ha]; exact List.mem_cons_self)
  rw [horigin] at hclient
  have hclient : origin.client = 0 := Option.some.inj hclient
  rw [hclient] at hc
  have hurl := List.mem_map_of_mem (f := fun s : Maps.State =>
    (s.downloads.clients.lookup 0).map fun c => c.download.url) hs
  rw [hurls, hc, Option.map_some] at hurl
  have hurl : c.download.url
      = "https://tile.openstreetmap.org/3/0/0.png" := by
    simpa using hurl
  rw [htemplate] at hbuilt
  have hsplit : secondTemplate.toList = "https://maps".toList
    ++ ".example.org/{z}/{x}/{y}.png".toList := by decide
  obtain ⟨zs, hzs⟩ := builtFrom_starts hbuilt hsplit (by decide)
  rw [hurl] at hzs
  have htake := congrArg (List.take 12) hzs
  rw [List.take_left' (by decide)] at htake
  exact absurd htake (by decide)

end AowisMap.Server.TileEndpoint
