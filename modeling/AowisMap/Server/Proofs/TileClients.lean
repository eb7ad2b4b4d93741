/-
The endpoint with its clients keeps what the endpoint's machine assumes
of them.

Taken alone, the endpoint's machine lets any client report anything, and
has no transition for a signal that the store does not expect: a second
one, or data from a client that was told to cancel. Here the clients are
the `TileHttpClient` objects themselves, and it is shown

- that every run with them is a run of the endpoint's machine, in which
  every body that is reported is an accepted image, so what holds of all
  its runs holds of the program (`networked_sound`, field `server`);
- that each running download has one client with one request in flight,
  so its end is still to come (`pending`);
- that every signal finds its slot (`heard`).
-/
import AowisMap.Maps.Proofs.Clients
import AowisMap.Maps.Proofs.Images
import AowisMap.Server.Proofs.Tiles
import AowisMap.Server.TileClients

namespace AowisMap.Server.TileEndpoint

open Lib Maps
open TileHttpClient (AcceptedImage ClientInv TilesOnly)

variable {cfg : TileConfig} {toLower : List Char → List Char}
  {platform : TileHttpClient.Platform}

-- ============================================================ the objects

/-- A client with one `get`, which was not answered yet. -/
structure OneRequest (platform : TileHttpClient.Platform)
    (client : TileHttpClient.State) : Prop where
  inv : ClientInv platform none client
  asked : client.nextRequest = 1
  unanswered : client.emitted = []
  tiles : TilesOnly client

/-- A client is started with the one request of its download. -/
theorem oneRequest_started (c : Client) :
    OneRequest platform (Clients.started platform c) ∧
      (Clients.started platform c).cancelRequested = false := by
  have hinv : ClientInv platform none (Clients.started platform c) :=
    TileHttpClient.clientInv_get TileHttpClient.clientInv_init
      c.download.path
  have htiles : TilesOnly (Clients.started platform c) := by
    cases platform with
    | windows =>
        exact TileHttpClient.tilesOnly_send (fun id reply hid => by cases hid)
          0 c.download.path 0
    | other =>
        exact TileHttpClient.tilesOnly_send (fun id reply hid => by cases hid)
          0 c.download.path 0
  cases platform with
  | windows => exact ⟨⟨hinv, rfl, rfl, htiles⟩, rfl⟩
  | other => exact ⟨⟨hinv, rfl, rfl, htiles⟩, rfl⟩

/-- Cancelling it adds none. -/
theorem oneRequest_cancel {client : TileHttpClient.State}
    (h : OneRequest platform client) :
    OneRequest platform (TileHttpClient.cancel client) :=
  ⟨TileHttpClient.clientInv_cancel h.inv, h.asked, h.unanswered, h.tiles⟩

/-- What comes from the network asks for nothing. -/
theorem quiet_of_network {event : TileHttpClient.Action}
    (h : fromNetwork event = true) : ¬ event.Asks ∧ event ≠ .cancel := by
  cases event with
  | get endpoint => cases h
  | post endpoint => cases h
  | cancel => cases h
  | progress reply received total => exact ⟨not_false, by simp⟩
  | overallDeadline reply => exact ⟨not_false, by simp⟩
  | finished reply answer => exact ⟨not_false, by simp⟩
  | retryDelay timer => exact ⟨not_false, by simp⟩

/-- An event leaves the request in flight, or the signal ends it. -/
theorem event_cases {event : TileHttpClient.Action}
    {client client' : TileHttpClient.State} (h : OneRequest platform client)
    (hnet : fromNetwork event = true)
    (hstep : TileHttpClient.next toLower platform event client
      = some client') :
    (lastSignal client client' = none ∧ OneRequest platform client' ∧
        client'.cancelRequested = client.cancelRequested) ∨
      ∃ outcome, lastSignal client client' = some outcome ∧
        (client.cancelRequested = true →
          outcome = TileHttpClient.cancelledOutcome) ∧
        ∀ data store, outcome = .requestFinished data store →
          AcceptedImage data := by
  obtain ⟨hquiet, hcancel⟩ := quiet_of_network hnet
  have hinv := TileHttpClient.clientInv_step h.inv hstep
  obtain ⟨hasked, hflag, htiles, hemitted | ⟨e, hemitted, hval, hsilent⟩⟩ :=
    TileHttpClient.heard_step h.tiles hquiet hcancel hstep
  · refine Or.inl ⟨?_, ⟨hinv, ?_, ?_, htiles⟩, hflag⟩
    · unfold lastSignal
      rw [hemitted, List.drop_length]
      rfl
    · rw [hasked, h.asked]
    · rw [hemitted, h.unanswered]
  · refine Or.inr ⟨e.outcome, ?_, hsilent, ?_⟩
    · unfold lastSignal
      rw [hemitted, List.drop_left]
      rfl
    · refine hinv.images e ?_ hval
      rw [hemitted]
      exact List.mem_append_right _ List.mem_cons_self

-- ============================================================= invariant

/-- Each running download has its client, which agrees with the store on
whether it was told to cancel. -/
structure Agreed (platform : TileHttpClient.Platform) (d : Downloads)
    (clients : Clients) : Prop where
  objects : ∀ id c, d.clients.lookup id = some c →
    ∃ client, clients.lookup id = some client ∧
      OneRequest platform client ∧
      client.cancelRequested = c.cancelRequested
  owned : ∀ id client, clients.lookup id = some client →
    ∃ c, d.clients.lookup id = some c

/-- Every running download has a client, a new one if it had none. -/
theorem lookup_connected (d : Downloads) (clients : Clients) (id : ClientId) :
    (Clients.connected platform d clients).lookup id
      = (d.clients.lookup id).map fun c =>
        (clients.lookup id).getD (Clients.started platform c) := by
  unfold Clients.connected
  rw [QHash.lookup_filterMapValues]
  cases d.clients.lookup id with
  | none => rfl
  | some c => rfl

/-- Connecting the downloads gives each its client. -/
theorem agreed_connected {d : Downloads} {clients : Clients}
    (h : ∀ id c, d.clients.lookup id = some c →
      (∃ client, clients.lookup id = some client ∧
        OneRequest platform client ∧
        client.cancelRequested = c.cancelRequested) ∨
      clients.lookup id = none ∧ c.cancelRequested = false) :
    Agreed platform d (Clients.connected platform d clients) where
  objects id c hc := by
    rw [lookup_connected, hc]
    rcases h id c hc with ⟨client, hclient, hone, hflag⟩ | ⟨hnone, hflag⟩
    · rw [hclient]
      exact ⟨client, rfl, hone, hflag⟩
    · rw [hnone]
      obtain ⟨hone, hstarted⟩ := @oneRequest_started platform c
      exact ⟨_, rfl, hone, hstarted.trans hflag.symm⟩
  owned id client hclient := by
    rw [lookup_connected] at hclient
    obtain ⟨c, hc, -⟩ := Option.map_eq_some_iff.1 hclient
    exact ⟨c, hc⟩

/-- A number that was never used has no client. -/
theorem Agreed.absent {d : Downloads} {clients : Clients}
    (h : Agreed platform d clients) (hfresh : Downloads.FreshClients d) {id : ClientId}
    (hid : d.nextClient ≤ id) : clients.lookup id = none := by
  cases hclient : clients.lookup id with
  | none => rfl
  | some client =>
      obtain ⟨c, hc⟩ := h.owned id client hclient
      rw [hfresh id hid] at hc
      cases hc

/-- Downloads that start get clients of their own. -/
theorem Agreed.grown {d u : Downloads} {clients : Clients}
    (h : Agreed platform d clients) (hfresh : Downloads.FreshClients d)
    (hgrown : Grown d u) :
    Agreed platform u (Clients.connected platform u clients) := by
  apply agreed_connected
  intro id c hc
  rcases hgrown.created id c hc with hold | ⟨hnew, hflag⟩
  · exact Or.inl (h.objects id c hold)
  · exact Or.inr ⟨h.absent hfresh hnew, hflag⟩

/-- One client ended; its object may have changed. -/
theorem Agreed.ended {d u : Downloads} {clients : Clients}
    (h : Agreed platform d clients) (hfresh : Downloads.FreshClients d)
    {client : ClientId} {object : TileHttpClient.State}
    (hended : EndsOne client d u) (hid : client < d.nextClient) :
    Agreed platform u
      (Clients.connected platform u (clients.insert client object)) := by
  apply agreed_connected
  intro id c hc
  rcases hended.created id c hc with ⟨hne, hold⟩ | ⟨hnew, hflag⟩
  · rw [AList.lookup_insert_ne hne]
    exact Or.inl (h.objects id c hold)
  · have hne : id ≠ client :=
      Nat.ne_of_gt (Nat.lt_of_lt_of_le hid hnew)
    rw [AList.lookup_insert_ne hne]
    exact Or.inr ⟨h.absent hfresh hnew, hflag⟩

/-- Those on a list are cancelled, the others go on. -/
theorem lookup_told (listed : List ClientId) (clients : Clients)
    (id : ClientId) :
    (Clients.told listed clients).lookup id
      = (clients.lookup id).map fun client =>
        if listed.contains id then TileHttpClient.cancel client
        else client := by
  unfold Clients.told
  rw [QHash.lookup_filterMapValues]
  cases clients.lookup id with
  | none => rfl
  | some client => rfl

/-- A cancellation tells the same clients on both sides. -/
theorem Agreed.cancelled {s : Maps.State} {clients : Clients}
    (h : Agreed platform s.downloads clients) :
    let u := (cancelUpstreamDownloads s).downloads
    Agreed platform u (Clients.connected platform u
      (Clients.told (registered s.downloads) clients)) := by
  intro u
  apply agreed_connected
  intro id c hc
  refine Or.inl ?_
  rw [lookup_cancelled] at hc
  obtain ⟨c₀, hc₀, rfl⟩ := Option.map_eq_some_iff.1 hc
  obtain ⟨client, hclient, hone, hflag⟩ := h.objects id c₀ hc₀
  rw [lookup_told, hclient]
  refine ⟨_, rfl, ?_, ?_⟩
  · split
    · exact oneRequest_cancel hone
    · exact hone
  · show _ = (c₀.cancelRequested || _)
    cases hlisted : (registered s.downloads).contains id with
    | true =>
        rw [Bool.or_true]
        rfl
    | false =>
        rw [Bool.or_false, ← hflag]
        rfl

structure NetworkedInv (cfg : TileConfig)
    (platform : TileHttpClient.Platform) (w : Networked) : Prop where
  dirs : OwnDirs w.server.maptiles.providerCachePaths
  scheduled : Downloads.Scheduled cfg.store w.server.maptiles.downloads
  agreed : Agreed platform w.server.maptiles.downloads w.clients

/-- No download runs at first, and no client. -/
theorem networkedInv_init (files : QHash TilePath OutsideFile)
    (markers : QHash String String) :
    NetworkedInv cfg platform (Networked.init cfg files markers) where
  dirs := ownDirs_empty
  scheduled := Downloads.scheduled_reachable .refl
  agreed :=
    { objects := by
        intro id c hc
        cases hc
      owned := by
        intro id client hclient
        cases hclient }

variable {w w' : Networked}

/-- The invariant behind a transition of the store. -/
theorem NetworkedInv.served (h : NetworkedInv cfg platform w)
    {a : Maps.Action}
    (hstep : Maps.apply cfg.store a w.server.maptiles
      = some w'.server.maptiles)
    (hagreed : Agreed platform w'.server.maptiles.downloads w'.clients) :
    NetworkedInv cfg platform w' := by
  have hsim := apply_simulated h.dirs hstep
  exact ⟨hsim.dirs, hsim.scheduled h.scheduled, hagreed⟩

/-- What the store's clients report is an accepted image. -/
def ImagesOnly : Action → State → Prop
  | .store a, _ => BringsImages a
  | .get _ _, _ => True

/-- A step of the server, and then a client for every download it started. -/
theorem serve_inv {a : Action} {clients : Clients} {s : State}
    (h : serve cfg platform a clients s = some w') :
    apply cfg a s = some w'.server ∧
      w'.clients
        = Clients.connected platform w'.server.maptiles.downloads clients := by
  obtain ⟨s', hs', heq⟩ := Option.map_eq_some_iff.1 h
  rw [← heq]
  exact ⟨hs', rfl⟩

/-- A step of the store within one of the server. -/
theorem apply_store_inv {a : Maps.Action} {s s' : State}
    (h : apply cfg (.store a) s = some s') :
    Maps.apply cfg.store a s.maptiles = some s'.maptiles := by
  obtain ⟨maptiles, hmaptiles, heq⟩ := Option.map_eq_some_iff.1 h
  rw [← heq, deliver_maptiles]
  exact hmaptiles

-- ================================================================== steps

/-- A request may start a download. -/
theorem networkedInv_get (h : NetworkedInv cfg platform w) (choice : Choice)
    (request : TileGet)
    (hserve : serve cfg platform (.get choice request) w.clients w.server
      = some w') : NetworkedInv cfg platform w' := by
  obtain ⟨happly, hclients⟩ := serve_inv hserve
  have hserver : (getTile cfg choice request w.server).2 = w'.server :=
    Option.some.inj happly
  rcases getTile_store choice request w.server with heq | heq
  · rw [hserver] at heq
    refine ⟨?_, ?_, ?_⟩
    · rw [heq]
      exact h.dirs
    · rw [heq]
      exact h.scheduled
    · rw [hclients, heq]
      exact h.agreed.grown h.scheduled.tables.fresh
        (.still h.scheduled.tables.fresh rfl rfl)
  · rw [hserver] at heq
    apply h.served heq
    rw [hclients]
    have hgrown := perform_grown
      (s := { w.server.maptiles with outbox := [] }) h.dirs
      h.scheduled.tables.fresh rfl (by simp) heq
    exact h.agreed.grown h.scheduled.tables.fresh hgrown

/-- A step of the store that is no callback of a client may start some, and
cancel others. -/
theorem networkedInv_store (h : NetworkedInv cfg platform w)
    {a : Maps.Action} (howner : a.isCallback = false)
    (hserve : serve cfg platform (.store a)
      (w.clients.ordered a w.server.maptiles.downloads) w.server
      = some w') : NetworkedInv cfg platform w' := by
  obtain ⟨happly, hclients⟩ := serve_inv hserve
  have hstep := apply_store_inv happly
  apply h.served hstep
  rw [hclients]
  by_cases hcancel : a = .cancelUpstreamDownloads
  · subst hcancel
    have hcancelled := Agreed.cancelled (s := { w.server.maptiles with
      outbox := [] }) h.agreed
    have heq : cancelUpstreamDownloads
        { w.server.maptiles with outbox := [] } = w'.server.maptiles :=
      Option.some.inj hstep
    simp only at hcancelled
    rw [heq] at hcancelled
    exact hcancelled
  · have hclients : w.clients.ordered a w.server.maptiles.downloads
        = w.clients := by
      cases a with
      | cancelUpstreamDownloads => exact absurd rfl hcancel
      | _ => rfl
    rw [hclients]
    have hgrown := perform_grown
      (s := { w.server.maptiles with outbox := [] }) h.dirs
      h.scheduled.tables.fresh howner hcancel hstep
    exact h.agreed.grown h.scheduled.tables.fresh hgrown

/-- The slot of a client's signal is there, and the client's download is
the one that ends. -/
theorem callback_endsOne (h : NetworkedInv cfg platform w) {id : ClientId}
    {client : TileHttpClient.State} (hclient : w.clients.lookup id = some client)
    {outcome : TileHttpClient.Outcome}
    (hsilent : client.cancelRequested = true →
      outcome = TileHttpClient.cancelledOutcome) :
    ∃ u, Maps.apply cfg.store (callback id outcome) w.server.maptiles
        = some u ∧
      EndsOne id w.server.maptiles.downloads u.downloads ∧
      id < w.server.maptiles.downloads.nextClient := by
  obtain ⟨c, hc⟩ := h.agreed.owned id client hclient
  obtain ⟨client', hclient', -, hflag⟩ := h.agreed.objects id c hc
  rw [hclient] at hclient'
  cases hclient'
  have hfresh := h.scheduled.tables.fresh
  have hid : id < w.server.maptiles.downloads.nextClient := by
    by_contra hno
    rw [hfresh id (Nat.le_of_not_lt hno)] at hc
    cases hc
  cases outcome with
  | requestFinished data mayStore =>
      have hlive : c.cancelRequested = false := by
        rw [← hflag]
        cases htold : client.cancelRequested with
        | false => rfl
        | true => cases hsilent htold
      obtain ⟨u, hu⟩ := @requestFinished_accepted cfg.store id c
        { w.server.maptiles with outbox := [] } hc hlive data mayStore
      have hends := requestFinished_endsOne
        (s := { w.server.maptiles with outbox := [] }) hfresh hu
      exact ⟨u, hu, hends, hid⟩
  | requestError reason error =>
      have hreason : c.cancelRequested = true →
          failureReason reason = .cancelled := by
        intro htold
        cases hsilent (hflag.trans htold)
        rfl
      obtain ⟨u, hu⟩ := @requestError_accepted cfg.store id c
        { w.server.maptiles with outbox := [] } hc (failureReason reason)
        hreason
      have hends := requestError_endsOne
        (s := { w.server.maptiles with outbox := [] }) hfresh hu
      exact ⟨u, hu, hends, hid⟩

/-- An event of a client is followed by its slot, if it emits a signal. -/
theorem clientEvent_spec (h : NetworkedInv cfg platform w) {id : ClientId}
    {client client' : TileHttpClient.State}
    (hclient : w.clients.lookup id = some client)
    {event : TileHttpClient.Action} (hnet : fromNetwork event = true)
    (hnext : TileHttpClient.next toLower platform event client
      = some client') :
    ∃ w', clientEvent cfg toLower platform id event client w = some w' ∧
      NetworkedInv cfg platform w' ∧
      Run (apply cfg) ImagesOnly w.server w'.server := by
  obtain ⟨c, hc⟩ := h.agreed.owned id client hclient
  obtain ⟨client₀, hclient₀, hone, hflag⟩ := h.agreed.objects id c hc
  rw [hclient] at hclient₀
  cases hclient₀
  unfold clientEvent
  rw [hnext]
  dsimp only
  rcases event_cases hone hnet hnext with
    ⟨hnone, hone', hsame⟩ | ⟨outcome, hsome, hsilent, himage⟩
  · rw [hnone]
    refine ⟨_, rfl, ⟨h.dirs, h.scheduled, ?_, ?_⟩, .refl⟩
    · intro id' c' hc'
      by_cases hne : id' = id
      · subst hne
        rw [hc] at hc'
        cases hc'
        exact ⟨client', AList.lookup_insert _, hone', hsame.trans hflag⟩
      · show ∃ o, (w.clients.insert id client').lookup id' = some o ∧ _
        rw [AList.lookup_insert_ne hne]
        exact h.agreed.objects id' c' hc'
    · intro id' o ho
      by_cases hne : id' = id
      · subst hne
        exact ⟨c, hc⟩
      · have ho : (w.clients.insert id client').lookup id' = some o := ho
        rw [AList.lookup_insert_ne hne] at ho
        exact h.agreed.owned id' o ho
  · rw [hsome]
    dsimp only
    obtain ⟨u, hu, hends, hid⟩ := callback_endsOne h hclient hsilent
    have happly : apply cfg (.store (callback id outcome)) w.server
        = some (deliver { w.server with maptiles := u }) := by
      show Option.map _ _ = _
      rw [hu]
      rfl
    unfold serve
    rw [happly]
    refine ⟨_, rfl, ?_, ?_⟩
    · have hmaptiles := deliver_maptiles { w.server with maptiles := u }
      refine h.served (a := callback id outcome) ?_ ?_
      · rw [hmaptiles]
        exact hu
      · show Agreed platform (deliver _).maptiles.downloads
          (Clients.connected platform (deliver _).maptiles.downloads _)
        rw [hmaptiles]
        exact h.agreed.ended h.scheduled.tables.fresh hends hid
    · refine .single ?_ happly
      cases outcome with
      | requestFinished data mayStore => exact himage data mayStore rfl
      | requestError reason error => exact trivial

/-- Every transition is a run of the endpoint's machine. -/
theorem networked_step {a : NetworkedAction} (h : NetworkedInv cfg platform w)
    (hstep : networked cfg toLower platform a w = some w') :
    NetworkedInv cfg platform w' ∧
      Run (apply cfg) ImagesOnly w.server w'.server := by
  cases a with
  | get choice request =>
      refine ⟨networkedInv_get h choice request hstep, ?_⟩
      exact .single (a := .get choice request) trivial (serve_inv hstep).1
  | store a =>
      unfold networked at hstep
      dsimp only at hstep
      split at hstep
      · cases hstep
      · rename_i howner
        have howner := Bool.eq_false_iff.2 howner
        refine ⟨networkedInv_store h howner hstep, ?_⟩
        refine .single (a := .store a) ?_ (serve_inv hstep).1
        cases a with
        | requestFinished client bytes mayStore => cases howner
        | _ => exact trivial
  | network id event =>
      unfold networked at hstep
      dsimp only at hstep
      split at hstep
      · rename_i hnet
        obtain ⟨client, hclient, hevent⟩ := Option.bind_eq_some_iff.1 hstep
        cases hnext : TileHttpClient.next toLower platform event client with
        | none =>
            unfold clientEvent at hevent
            rw [hnext] at hevent
            cases hevent
        | some client' =>
            obtain ⟨w'', heq, hinv, hrun⟩ :=
              clientEvent_spec h hclient hnet hnext
            rw [hevent] at heq
            cases heq
            exact ⟨hinv, hrun⟩
      · cases hstep

-- ================================================================= result

/-- In every state that the steps of server and clients lead to. -/
theorem networkedInv_reachable
    (h : NetworkedReachable cfg toLower platform w) :
    NetworkedInv cfg platform w := by
  obtain ⟨files, markers, hrun⟩ := h
  exact hrun.invariant (networkedInv_init files markers)
    fun _ _ _ hinv _ hstep => (networked_step hinv hstep).1

/-- The endpoint's part of a run is a run of the endpoint's machine in
which every reported body is an accepted image. -/
theorem networked_server (h : NetworkedReachable cfg toLower platform w) :
    ∃ files markers, Run (apply cfg) ImagesOnly (State.init cfg files markers)
      w.server := by
  obtain ⟨files, markers, hrun⟩ := h
  refine ⟨files, markers, ?_⟩
  exact hrun.simulates (P := NetworkedInv cfg platform) Networked.server
    (networkedInv_init files markers)
    (fun _ _ _ hinv _ hstep => (networked_step hinv hstep).1)
    (fun _ _ _ hinv _ hstep => (networked_step hinv hstep).2)

/-- What the endpoint with its clients is, seen from the endpoint. -/
structure NetworkedSound (cfg : TileConfig)
    (toLower : List Char → List Char) (platform : TileHttpClient.Platform)
    (w : Networked) : Prop where
  server : Reachable cfg w.server
  /-- Each running download has its client, and no other client lives. -/
  clients : ∀ id, (∃ client, w.clients.lookup id = some client) ↔
    ∃ c, w.server.maptiles.downloads.clients.lookup id = some c
  /-- A client waits for one reply or one timer, and reported nothing. -/
  pending : ∀ id client, w.clients.lookup id = some client →
    client.emitted = [] ∧
      TileHttpClient.repliesTo 0 client
        + TileHttpClient.retriesOf 0 client = 1
  /-- Whatever a client's event leads to, the store takes its signal. -/
  heard : ∀ id client event client', w.clients.lookup id = some client →
    fromNetwork event = true →
    TileHttpClient.next toLower platform event client = some client' →
    ∃ w', networked cfg toLower platform (.network id event) w = some w'

/-- **Server and clients together are sound**: without its clients the server
is one whose callbacks come in some order, every running download has the one
client that reports it, and no signal of a client is lost. -/
theorem networked_sound (h : NetworkedReachable cfg toLower platform w) :
    NetworkedSound cfg toLower platform w := by
  have hinv := networkedInv_reachable h
  obtain ⟨files, markers, hrun⟩ := networked_server h
  refine ⟨⟨files, markers, hrun.mono fun _ _ _ => trivial⟩, ?_, ?_, ?_⟩
  · intro id
    constructor
    · intro hclient
      obtain ⟨client, hclient⟩ := hclient
      exact hinv.agreed.owned id client hclient
    · intro hc
      obtain ⟨c, hc⟩ := hc
      obtain ⟨client, hclient, -⟩ := hinv.agreed.objects id c hc
      exact ⟨client, hclient⟩
  · intro id client hclient
    obtain ⟨c, hc⟩ := hinv.agreed.owned id client hclient
    obtain ⟨client', hclient', hone, -⟩ := hinv.agreed.objects id c hc
    rw [hclient] at hclient'
    cases hclient'
    refine ⟨hone.unanswered, ?_⟩
    have hplaces := hone.inv.places 0
    rw [hone.asked, if_pos ⟨Nat.one_pos, by simp⟩] at hplaces
    have hsignals : TileHttpClient.signalsOf 0 client = 0 := by
      unfold TileHttpClient.signalsOf
      rw [hone.unanswered]
      rfl
    rw [hsignals] at hplaces
    exact hplaces
  · intro id client event client' hclient hnet hnext
    obtain ⟨w', hw', -⟩ := clientEvent_spec hinv hclient hnet hnext
    refine ⟨w', ?_⟩
    show (if fromNetwork event = true then _ else none) = _
    rw [if_pos hnet, hclient]
    exact hw'

/-- A tile is asked for; the first attempt of its client times out, and
a second one is scheduled. -/
def timedOutTile : List NetworkedAction :=
  [ .get {} { provider := openStreetMap, z := 3, x := 0, y := 0 },
    .network 0 (.finished 0 { error := .timeoutError }) ]

/-- A download whose first attempt timed out. -/
theorem networked_sound_timedOutTile :
    ∃ w, runActions (networked smallServer id .windows) timedOutTile
        (Networked.init smallServer ∅ ∅) = some w ∧
      NetworkedSound smallServer id .windows w ∧
      ∃ client, w.clients.lookup 0 = some client ∧
        TileHttpClient.retriesOf 0 client = 1 := by
  have hrun : (runActions (networked smallServer id .windows) timedOutTile
      (Networked.init smallServer ∅ ∅)).map (fun w =>
        (w.clients.lookup 0).map (TileHttpClient.retriesOf 0))
      = some (some 1) := by
    decide +kernel
  obtain ⟨w, hw, hval⟩ := Option.map_eq_some_iff.1 hrun
  obtain ⟨client, hclient, hretries⟩ := Option.map_eq_some_iff.1 hval
  exact ⟨w, hw, networked_sound ⟨∅, ∅, run_of_runActions hw⟩, client,
    hclient, hretries⟩

end AowisMap.Server.TileEndpoint
