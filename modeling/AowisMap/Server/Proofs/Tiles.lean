/-
The promises of the map tile endpoint: each waits under a key the tile
store holds, or was completed once.

The store's runs behind the endpoint are runs of the store
(`maptiles_reachable`), so what holds of every reachable store holds
here. What the endpoint adds is its registry: `onSignal` takes the
promises of a signalled key and completes them, so a key that still has
promises was not signalled, and by the store's duty it is held
(`EndpointInv.held`). Promises are conserved the way the terrain
endpoints conserve theirs, under every weight (Proofs/Waiters.lean).
-/
import AowisMap.Server.Tiles
import AowisMap.Server.Proofs.Waiters
import AowisMap.Maps.Proofs.Held

namespace AowisMap.Server.TileEndpoint

open Lib Maps

variable {cfg : TileConfig}

-- ========================================================= response keys

/-- A response key asks for an answer. -/
theorem key_ne_empty (request : TileGet) : request.key ≠ "" := by
  have hmem : '_' ∈ request.key.toList := by
    unfold TileGet.key
    rw [String.toList_ofList]
    refine QString.mem_arg QString.separator_underscore ?_ _
    refine QString.mem_arg QString.separator_underscore ?_ _
    refine QString.mem_arg QString.separator_underscore ?_ _
    exact QString.mem_arg QString.separator_underscore (by decide) _
  intro hempty
  rw [hempty] at hmem
  exact absurd hmem (by decide)

-- ============================================================= delivery

theorem foldl_onSignal_maptiles (signals : List Signal) (s : State) :
    (signals.foldl onSignal s).maptiles = s.maptiles := by
  induction signals generalizing s with
  | nil => rfl
  | cons signal signals ih => exact ih (onSignal s signal)

theorem deliver_maptiles (s : State) :
    (deliver s).maptiles = s.maptiles :=
  foldl_onSignal_maptiles _ s

theorem awaitTile_maptiles (key : String) (s : State) :
    (awaitTile cfg key s).maptiles = s.maptiles := by
  unfold awaitTile appendPendingPromise
  simp only
  split
  · rename_i s' heq
    split at heq
    · cases heq
    · cases heq
      rfl
  · rfl

/-- A request is one transition of the store. -/
theorem getTile_store (choice : Choice) (request : TileGet) (s : State) :
    (getTile cfg choice request s).2.maptiles = s.maptiles ∨
      Maps.apply cfg.store (.getTileForHttp choice request.provider request.z
        request.x request.y request.key) s.maptiles
        = some (getTile cfg choice request s).2.maptiles := by
  unfold getTile
  split
  · refine Or.inr ?_
    simp only
    split
    · rw [deliver_maptiles]
      rfl
    · rw [awaitTile_maptiles, deliver_maptiles]
      rfl
  · exact Or.inl rfl

/-- The store behind a reachable server is a reachable store. -/
theorem maptiles_reachable {s : State} (h : Reachable cfg s) :
    Maps.Reachable cfg.store s.maptiles := by
  obtain ⟨files, markers, hrun⟩ := h
  have hstart : runActions (Maps.apply cfg.store)
      [.setRemoteFetchEnabled cfg.mapRemoteFetchEnabled,
        .setPermanentDataDirectory cfg.permanentDataDirectory,
        .configureProviders cfg.mapProviders cfg.downloadCoverage
          cfg.mapCoverage] (Maps.State.init files markers)
      = some (State.init cfg files markers).maptiles := rfl
  have hinit := run_of_runActions hstart
  refine ⟨files, markers, hinit.trans ?_⟩
  refine hrun.simulates (P := fun _ => True) State.maptiles trivial
    (fun _ _ _ _ _ _ => trivial) ?_
  intro a s₁ s₂ _ _ hstep
  cases a with
  | get choice request =>
      cases hstep
      rcases getTile_store choice request s₁ with heq | heq
      · rw [heq]
        exact .refl
      · exact .single trivial heq
  | store a =>
      obtain ⟨maptiles, hmaptiles, rfl⟩ := Option.map_eq_some_iff.1 hstep
      rw [deliver_maptiles]
      exact .single trivial hmaptiles

-- ============================================================ invariants

/-- The promises' ledger. -/
structure PromiseLedger (s : State) : Prop where
  count : s.pendingRequestCount
    = (QHash.total (fun _ ps => ps.length) s.connectionsPending : Int)
  conserved : ∀ f, registryWeight f s.connectionsPending
    + weigh f (s.completed.map (·.promise))
    = weigh f (List.range s.nextPromise)

/-- Keys with promises are response keys the store holds. -/
structure EndpointInv (cfg : TileConfig) (s : State) : Prop where
  store : HeldInv cfg.store s.maptiles
  ledger : PromiseLedger s
  held : ∀ k, k ∈ s.connectionsPending → k ≠ "" ∧ Held s.maptiles k

/-- Taking the promises of a key and completing them. -/
theorem promiseLedger_onSignal {s : State} (h : PromiseLedger s)
    (signal : Signal) : PromiseLedger (onSignal s signal) := by
  have hmeasure : ∀ f : List Promise → Nat, f [] = 0 →
      QHash.measureAt (fun _ ps => f ps) signal.key s.connectionsPending
        = f ((s.connectionsPending.lookup signal.key).getD []) := by
    intro f hnil
    unfold QHash.measureAt
    cases s.connectionsPending.lookup signal.key with
    | none => exact hnil.symm
    | some ps => rfl
  refine ⟨?_, ?_⟩
  · show s.pendingRequestCount
        - (((s.connectionsPending.lookup signal.key).getD []).length : Int)
      = (QHash.total _ (s.connectionsPending.erase signal.key) : Int)
    have herase := QHash.total_erase
      (fun (_ : String) (ps : List Promise) => ps.length) signal.key
      s.connectionsPending
    rw [hmeasure List.length rfl] at herase
    rw [h.count, herase]
    push_cast
    omega
  · intro f
    have hlaw := h.conserved f
    have herase := QHash.total_erase
      (fun (_ : String) (ps : List Promise) => weigh f ps) signal.key
      s.connectionsPending
    rw [hmeasure (weigh f) rfl] at herase
    show registryWeight f (s.connectionsPending.erase signal.key)
        + weigh f ((s.completed ++ ((s.connectionsPending.lookup
          signal.key).getD []).map fun p =>
            (⟨p, signalReply signal⟩ : TileCompletion)).map (·.promise))
      = weigh f (List.range s.nextPromise)
    rw [List.map_append, weigh_append, List.map_map]
    have hid : ((s.connectionsPending.lookup signal.key).getD []).map
        ((fun c : TileCompletion => c.promise) ∘ fun p =>
          ⟨p, signalReply signal⟩)
        = (s.connectionsPending.lookup signal.key).getD [] :=
      List.map_id _
    rw [hid]
    unfold registryWeight at hlaw ⊢
    omega

/-- Delivered signals leave no promise under their keys. -/
theorem mem_foldl_onSignal {signals : List Signal} {s : State} {k : String}
    (h : k ∈ (signals.foldl onSignal s).connectionsPending) :
    k ∈ s.connectionsPending ∧ k ∉ signals.map Signal.key := by
  induction signals generalizing s with
  | nil => exact ⟨h, List.not_mem_nil⟩
  | cons signal signals ih =>
      obtain ⟨hmem, hnot⟩ := ih h
      have hmem : k ∈ s.connectionsPending.erase signal.key := hmem
      obtain ⟨hne, hmem⟩ := AList.mem_erase.1 hmem
      refine ⟨hmem, ?_⟩
      rw [List.map_cons, List.mem_cons]
      intro hk
      rcases hk with hk | hk
      · exact hne hk
      · exact hnot hk

theorem promiseLedger_deliver {s : State} (h : PromiseLedger s) :
    PromiseLedger (deliver s) := by
  unfold deliver
  induction s.maptiles.outbox generalizing s with
  | nil => exact h
  | cons signal signals ih => exact ih (promiseLedger_onSignal h signal)

/-- A transition of the store, its signals delivered. -/
theorem endpointInv_deliver {s : State} {maptiles : Maps.State}
    (h : EndpointInv cfg s)
    (hstep : Dutiful cfg.store s.maptiles maptiles) :
    EndpointInv cfg (deliver { s with maptiles := maptiles }) := by
  refine ⟨?_, ?_, ?_⟩
  · rw [deliver_maptiles]
    exact hstep.1
  · apply promiseLedger_deliver
    exact ⟨h.ledger.count, h.ledger.conserved⟩
  · intro k hk
    obtain ⟨hmem, hnot⟩ := mem_foldl_onSignal hk
    obtain ⟨hne, hheld⟩ := h.held k hmem
    refine ⟨hne, ?_⟩
    rw [deliver_maptiles]
    rcases hstep.2 k hne hheld with hsignalled | hheld
    · exact absurd hsignalled hnot
    · exact hheld

/-- A new promise waits under a held key, or is completed at once. -/
theorem endpointInv_awaitTile {s : State} (h : EndpointInv cfg s)
    {key : String} (hne : key ≠ "") (hheld : Held s.maptiles key) :
    EndpointInv cfg (awaitTile cfg key s) := by
  have hrange : ∀ f, weigh f (List.range (s.nextPromise + 1))
      = weigh f (List.range s.nextPromise) + f s.nextPromise := by
    intro f
    rw [List.range_succ, weigh_append]
    simp [weigh]
  have hinsert : ∀ f : List Promise → Nat, f [] = 0 →
      QHash.total (fun _ ps => f ps) (s.connectionsPending.insert key
        ((s.connectionsPending.lookup key).getD [] ++ [s.nextPromise]))
        + f ((s.connectionsPending.lookup key).getD [])
      = QHash.total (fun _ ps => f ps) s.connectionsPending
        + f ((s.connectionsPending.lookup key).getD []
          ++ [s.nextPromise]) := by
    intro f hnil
    have hins := QHash.total_insert
      (fun (_ : String) (ps : List Promise) => f ps) key
      ((s.connectionsPending.lookup key).getD [] ++ [s.nextPromise])
      s.connectionsPending
    have hmeasure : QHash.measureAt (fun _ ps => f ps) key
        s.connectionsPending
        = f ((s.connectionsPending.lookup key).getD []) := by
      unfold QHash.measureAt
      cases s.connectionsPending.lookup key with
      | none => exact hnil.symm
      | some ps => rfl
    rw [hmeasure] at hins
    exact hins
  unfold awaitTile appendPendingPromise
  simp only
  split
  · rename_i s' heq
    split at heq
    · cases heq
    · cases heq
      refine ⟨h.store, ⟨?_, ?_⟩, ?_⟩
      · show s.pendingRequestCount + 1 = _
        have hlen := hinsert List.length rfl
        rw [List.length_append, List.length_singleton] at hlen
        rw [h.ledger.count]
        push_cast
        omega
      · intro f
        have hw := hinsert (weigh f) rfl
        rw [weigh_append] at hw
        have hone : weigh f [s.nextPromise] = f s.nextPromise := by
          simp [weigh]
        have hlaw := h.ledger.conserved f
        show registryWeight f (s.connectionsPending.insert key _)
          + weigh f (s.completed.map (·.promise))
          = weigh f (List.range (s.nextPromise + 1))
        rw [hrange]
        unfold registryWeight at hlaw ⊢
        omega
      · intro k hk
        rcases (AList.mem_insert _).1 hk with rfl | hk
        · exact ⟨hne, hheld⟩
        · exact h.held k hk
  · refine ⟨h.store, ⟨h.ledger.count, ?_⟩, h.held⟩
    intro f
    have hlaw := h.ledger.conserved f
    have hone : weigh f [s.nextPromise] = f s.nextPromise := by simp [weigh]
    show registryWeight f s.connectionsPending
      + weigh f ((s.completed ++ [(⟨s.nextPromise, _⟩ : TileCompletion)]).map
        (·.promise)) = weigh f (List.range (s.nextPromise + 1))
    rw [List.map_append, weigh_append, hrange, List.map_singleton, hone]
    omega

/-- A GET keeps the invariant. -/
theorem endpointInv_getTile {s : State} (h : EndpointInv cfg s)
    (choice : Choice) (request : TileGet) :
    EndpointInv cfg (getTile cfg choice request s).2 := by
  unfold getTile
  split
  · simp only
    have hdutiful := @apply_dutiful cfg.store
      (.getTileForHttp choice request.provider request.z request.x
        request.y request.key) _ _ h.store rfl
    have hdelivered := endpointInv_deliver h hdutiful
    split
    · exact hdelivered
    · rename_i hpending
      refine endpointInv_awaitTile hdelivered (key_ne_empty request) ?_
      rw [deliver_maptiles]
      refine hdutiful.1.held request.key ?_ (key_ne_empty request)
      -- no answer at once: the store answered pending
      show request.key ∈ (answered request.key _).awaiting
      unfold answered
      rw [if_pos]
      · exact Finset.mem_insert_self _ _
      · unfold readyReply at hpending
        split at hpending
        · cases hpending
        · cases hpending
        · cases hpending
        · assumption
  · exact h

/-- Every transition of the endpoint keeps its invariant. -/
theorem endpointInv_step {a : Action} {s u : State}
    (h : EndpointInv cfg s) (hstep : apply cfg a s = some u) :
    EndpointInv cfg u := by
  cases a with
  | get choice request =>
      cases hstep
      exact endpointInv_getTile h choice request
  | store a =>
      obtain ⟨maptiles, hmaptiles, rfl⟩ := Option.map_eq_some_iff.1 hstep
      exact endpointInv_deliver h (apply_dutiful h.store hmaptiles)

theorem endpointInv_init (files : QHash TilePath OutsideFile)
    (markers : QHash String String) :
    EndpointInv cfg (State.init cfg files markers) := by
  refine ⟨?_, ⟨rfl, fun f => rfl⟩, ?_⟩
  · exact heldInv_reachable (maptiles_reachable ⟨files, markers, .refl⟩)
  · intro k hk
    cases hk

theorem endpointInv_reachable {s : State} (h : Reachable cfg s) :
    EndpointInv cfg s := by
  obtain ⟨files, markers, hrun⟩ := h
  exact hrun.invariant (endpointInv_init files markers)
    fun _ _ _ hinv _ hstep => endpointInv_step hinv hstep

-- ============================================================== results

/-- How often a promise waits. -/
def timesWaiting (s : State) (p : Promise) : Nat :=
  QHash.total (fun _ ps => ps.count p) s.connectionsPending

/-- How often a promise was completed. -/
def timesCompleted (s : State) (p : Promise) : Nat :=
  (s.completed.map (·.promise)).count p

/-- No waiter of a map tile is lost. In every reachable state each key
that awaits an answer of the store has a live holder, and so has each key
with promises; whatever happens next signals a held key or leaves it
held, and completes the promises of every key it signals; and a promise
waits or was completed, once. -/
theorem no_waiter_lost {s : State} (h : Reachable cfg s) :
    (∀ k ∈ s.maptiles.awaiting, k ≠ "" → Held s.maptiles k) ∧
    (∀ a u, Maps.apply cfg.store a s.maptiles = some u → ∀ k, k ≠ "" →
      Held s.maptiles k → (∃ signal ∈ u.outbox, signal.key = k) ∨ Held u k)
    ∧
    (∀ k, k ∈ s.connectionsPending → Held s.maptiles k) ∧
    (∀ a u, Maps.apply cfg.store a s.maptiles = some u →
      ∀ signal ∈ u.outbox, signal.key ∉
        (deliver { s with maptiles := u }).connectionsPending) ∧
    (∀ p, timesWaiting s p + timesCompleted s p
      = if p < s.nextPromise then 1 else 0) ∧
    s.pendingRequestCount
      = (QHash.total (fun _ ps => ps.length) s.connectionsPending : Int) := by
  have hinv := endpointInv_reachable h
  refine ⟨hinv.store.held, ?_, fun k hk => (hinv.held k hk).2, ?_, ?_,
    hinv.ledger.count⟩
  · intro a u hstep k hne hheld
    refine ((apply_dutiful hinv.store hstep).2 k hne hheld).imp_left ?_
    intro hk
    exact List.mem_map.1 hk
  · intro a u _ signal hsignal hmem
    exact (mem_foldl_onSignal hmem).2 (List.mem_map_of_mem hsignal)
  · intro p
    have hlaw := hinv.ledger.conserved fun q => if q = p then 1 else 0
    simp only [registryWeight, weigh_indicator] at hlaw
    unfold timesWaiting timesCompleted
    rw [hlaw]
    by_cases hp : p < s.nextPromise
    · rw [if_pos hp]
      exact List.count_eq_one_of_mem List.nodup_range (List.mem_range.2 hp)
    · rw [if_neg hp]
      exact List.count_eq_zero_of_not_mem fun hmem =>
        hp (List.mem_range.1 hmem)

/-- A server with OpenStreetMap tiles and room for two downloads. -/
def smallServer : TileConfig where
  cacheDirectory := "/var/cache/aowis"
  maximumActiveDownloads := 2
  maximumPendingRequests := 4
  parseUrl := smallConfig.parseUrl
  fingerprint := smallConfig.fingerprint

/-- Two clients wait for a tile and a third for another; the first tile
arrives and its cache write is under way. -/
def threeClients : List Action :=
  let tile (x : Int) : TileGet :=
    { provider := openStreetMap, z := 3, x := x, y := 0 }
  [ .get {} (tile 0), .get {} (tile 0), .get {} (tile 1),
    .store (.requestFinished 1 [] false),
    .store (.requestFinished 0 [1] true) ]

/-- The third client is answered; the first two wait for the write. -/
theorem no_waiter_lost_threeClients :
    ∃ s, runActions (apply smallServer) threeClients
        (State.init smallServer ∅ ∅) = some s ∧
      (∀ k, k ∈ s.connectionsPending → Held s.maptiles k) ∧
      s.pendingRequestCount = 2 ∧
      timesWaiting s 0 = 1 ∧ timesWaiting s 1 = 1 ∧
      timesWaiting s 2 = 0 := by
  have hrun : (runActions (apply smallServer) threeClients
      (State.init smallServer ∅ ∅)).map (fun s =>
        (s.pendingRequestCount, s.nextPromise, timesCompleted s 0,
          timesCompleted s 1, timesCompleted s 2))
      = some (2, 3, 0, 0, 1) := by
    decide +kernel
  obtain ⟨s, hs, hval⟩ := Option.map_eq_some_iff.1 hrun
  simp only [Prod.mk.injEq] at hval
  obtain ⟨-, -, hheld, -, honce, -⟩ :=
    no_waiter_lost ⟨∅, ∅, run_of_runActions hs⟩
  have h0 := honce 0
  have h1 := honce 1
  have h2 := honce 2
  rw [hval.2.1, if_pos (by decide), hval.2.2.1] at h0
  rw [hval.2.1, if_pos (by decide), hval.2.2.2.1] at h1
  rw [hval.2.1, if_pos (by decide), hval.2.2.2.2] at h2
  refine ⟨s, hs, hheld, hval.1, ?_, ?_, ?_⟩
  · omega
  · omega
  · omega

end AowisMap.Server.TileEndpoint
