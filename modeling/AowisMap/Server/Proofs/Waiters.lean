/-
Waiter accounting of the single-flight terrain endpoints.

# One conservation law

Every counting fact about promises is an instance of one law, for an
arbitrary weight `f : Promise → Nat`:

  waiting f + completed f = issued f

The waiting weight sums over the three registries, the completed weight
over the completion history, the issued weight over all promises handed
out so far. The constant weight 1 gives the waiter counter; the
indicator of one promise says that it waits or was completed, exactly
once in total. Each operation has one equation for the waiting weight,
so the law is a line of arithmetic at every step.

# The token discipline

A registry key and its cancellation token come and go together, and a
registered token names a job that has not run its callback. A key that
was abandoned and resubmitted has a fresh token, so the callback of its
old job finds another token (or none) and changes nothing.
-/
import Mathlib.Algebra.GroupWithZero.Nat
import Mathlib.Tactic.Push
import AowisMap.Server.Terrain

namespace AowisMap.Server

open Lib Terrain

variable {cfg : Config}

-- ======================================================= weights

/-- The sum of a weight over the three registries. -/
def overRegistries (m : Registry → Nat) : Nat :=
  m .tiles + m .elevations + m .grids

/-- Changing one registry's share changes the sum by that much. -/
theorem overRegistries_update {m n : Registry → Nat} (r : Registry)
    (h : ∀ q, q ≠ r → n q = m q) :
    overRegistries n + m r = overRegistries m + n r := by
  unfold overRegistries
  cases r with
  | tiles =>
      rw [h .elevations (by simp), h .grids (by simp)]
      omega
  | elevations =>
      rw [h .tiles (by simp), h .grids (by simp)]
      omega
  | grids =>
      rw [h .tiles (by simp), h .elevations (by simp)]
      omega

/-- One registry's share is at most the sum. -/
theorem le_overRegistries (m : Registry → Nat) (r : Registry) :
    m r ≤ overRegistries m := by
  unfold overRegistries
  cases r <;> omega

/-- The weight of a list of promises. -/
def weigh (f : Promise → Nat) (ps : List Promise) : Nat :=
  (ps.map f).sum

@[simp] theorem weigh_nil (f : Promise → Nat) : weigh f [] = 0 := rfl

theorem weigh_append (f : Promise → Nat) (ps qs : List Promise) :
    weigh f (ps ++ qs) = weigh f ps + weigh f qs := by
  simp only [weigh, List.map_append, List.sum_append]

/-- Under the constant weight a list weighs its length. -/
theorem weigh_one (ps : List Promise) :
    weigh (fun _ => 1) ps = ps.length := by
  simp [weigh]

/-- Under the indicator of a promise a list weighs its occurrences. -/
theorem weigh_indicator (p : Promise) (ps : List Promise) :
    weigh (fun q => if q = p then 1 else 0) ps = ps.count p := by
  induction ps with
  | nil => rfl
  | cons q ps ih =>
      rw [List.count_cons, ← ih]
      by_cases h : q = p
      · simp [weigh, h, Nat.add_comm]
      · simp [weigh, h]

/-- The weight of one registry's waiters. -/
def registryWeight (f : Promise → Nat)
    (registry : QHash String (List Promise)) : Nat :=
  QHash.total (fun _ ps => weigh f ps) registry

/-- The weight of all waiters. -/
def waitingWeight (f : Promise → Nat) (s : State) : Nat :=
  overRegistries fun r => registryWeight f (s.pendingTerrain r)

/-- The weight of the completion history. -/
def completedWeight (f : Promise → Nat) (s : State) : Nat :=
  weigh f (s.completed.map (·.promise))

/-- The weight of every promise issued so far. -/
def issuedWeight (f : Promise → Nat) (s : State) : Nat :=
  weigh f (List.range s.nextPromise)

/-- The number of waiters in the three registries. -/
def waiterTotal (s : State) : Nat :=
  overRegistries fun r =>
    QHash.total (fun _ ps => ps.length) (s.pendingTerrain r)

/-- How often a promise waits. -/
def timesWaiting (s : State) (p : Promise) : Nat :=
  overRegistries fun r =>
    QHash.total (fun _ ps => ps.count p) (s.pendingTerrain r)

/-- How often a promise was completed. -/
def timesCompleted (s : State) (p : Promise) : Nat :=
  (s.completed.map (·.promise)).count p

theorem waitingWeight_one (s : State) :
    waitingWeight (fun _ => 1) s = waiterTotal s := by
  simp only [waitingWeight, registryWeight, waiterTotal, weigh_one]

theorem waitingWeight_indicator (s : State) (p : Promise) :
    waitingWeight (fun q => if q = p then 1 else 0) s
      = timesWaiting s p := by
  simp only [waitingWeight, registryWeight, timesWaiting, weigh_indicator]

theorem completedWeight_indicator (s : State) (p : Promise) :
    completedWeight (fun q => if q = p then 1 else 0) s
      = timesCompleted s p := by
  rw [completedWeight, weigh_indicator, timesCompleted]

theorem issuedWeight_indicator (s : State) (p : Promise) :
    issuedWeight (fun q => if q = p then 1 else 0) s
      = if p < s.nextPromise then 1 else 0 := by
  rw [issuedWeight, weigh_indicator]
  by_cases h : p < s.nextPromise
  · rw [if_pos h]
    exact List.count_eq_one_of_mem List.nodup_range (List.mem_range.2 h)
  · rw [if_neg h]
    exact List.count_eq_zero_of_not_mem (by simpa using h)

-- ====================================================== the invariant

/-- The registry and key a live job works for. -/
def jobFlight (s : State) (t : Token) : Option (Registry × String) :=
  (s.jobs.lookup t).map fun job => (job.registry, job.key)

/-- What a submission in progress has checked: there is room for one
more waiter. -/
def SubmissionChecked (cfg : Config) (s : State) : Prop :=
  match s.http with
  | .remoteNext _ | .overallNext _ =>
      s.pendingTerrainTileCount < cfg.maximumPendingRequests
  | .idle | .releaseRemote _ | .releaseBytes _ => True

/-- The promise side: the counter is the number of waiters, the
conservation law holds, no flight is without waiters, and every waiter
waits in its own flight. -/
structure PromiseInv (cfg : Config) (s : State) : Prop where
  count : s.pendingTerrainTileCount = waitingWeight (fun _ => 1) s
  bounded : s.pendingTerrainTileCount ≤ cfg.maximumPendingRequests
  conserved : ∀ f,
    waitingWeight f s + completedWeight f s = issuedWeight f s
  nonempty : ∀ r k ps, (s.pendingTerrain r).lookup k = some ps → ps ≠ []
  waiterFlights : ∀ r k ps p, (s.pendingTerrain r).lookup k = some ps →
    p ∈ ps → s.flightOf p = some (r, k)

/-- The token side: keys and tokens come and go together, and a
registered token names a live job of its own flight. -/
structure TokenInv (s : State) : Prop where
  registered : ∀ r k, k ∈ s.pendingTerrain r ↔ ∃ t,
    s.cancellations r k = some t
  owned : ∀ r k t, s.cancellations r k = some t →
    jobFlight s t = some (r, k)
  jobFlights : ∀ t fl, jobFlight s t = some fl → s.flightOfToken t = some fl
  freshTokens : ∀ t, s.nextToken ≤ t → s.flightOfToken t = none

/-- Waiters, tokens and completions agree. -/
structure WaiterInv (cfg : Config) (s : State) : Prop where
  promises : PromiseInv cfg s
  tokens : TokenInv s
  completedFlights : ∀ c ∈ s.completed, ∀ t, c.job = some t →
    ∃ fl, s.flightOfToken t = some fl ∧ s.flightOf c.promise = some fl
  checked : SubmissionChecked cfg s

theorem waiterInv_init : WaiterInv cfg State.init where
  promises :=
    { count := rfl
      bounded := Int.natCast_nonneg _
      conserved := fun _ => rfl
      nonempty := fun r k ps h => by cases h
      waiterFlights := fun r k ps p h => by cases h }
  tokens :=
    { registered := by
        intro r k
        constructor
        · intro h
          exact absurd h (AList.notMem_empty k)
        · rintro ⟨t, h⟩
          cases h
      owned := fun r k t h => by cases h
      jobFlights := fun t fl h => by cases h
      freshTokens := fun _ _ => rfl }
  completedFlights c h := by cases h
  checked := trivial

/-- A completed promise was issued. -/
theorem PromiseInv.completed_issued {s : State} (h : PromiseInv cfg s)
    {c : Completion} (hc : c ∈ s.completed) : c.promise < s.nextPromise := by
  have hlaw := h.conserved fun q => if q = c.promise then 1 else 0
  rw [completedWeight_indicator, issuedWeight_indicator] at hlaw
  have hpos : 0 < timesCompleted s c.promise :=
    List.count_pos_iff.2 (List.mem_map_of_mem hc)
  by_contra hge
  rw [if_neg hge] at hlaw
  omega

/-- A promise that waits was issued. -/
theorem PromiseInv.waiting_issued {s : State} (h : PromiseInv cfg s)
    {r : Registry} {k : String} {ps : List Promise} {p : Promise}
    (hk : (s.pendingTerrain r).lookup k = some ps) (hp : p ∈ ps) :
    p < s.nextPromise := by
  have hlaw := h.conserved fun q => if q = p then 1 else 0
  rw [waitingWeight_indicator, issuedWeight_indicator] at hlaw
  have hone : ps.count p
      ≤ QHash.total (fun _ qs => qs.count p) (s.pendingTerrain r) :=
    QHash.measure_le_total (f := fun _ qs => qs.count p) hk
  have hsum : QHash.total (fun _ qs => qs.count p) (s.pendingTerrain r)
      ≤ timesWaiting s p :=
    le_overRegistries
      (fun q => QHash.total (fun _ qs => qs.count p) (s.pendingTerrain q)) r
  have hpos : 0 < ps.count p := List.count_pos_iff.2 hp
  by_contra hge
  rw [if_neg hge] at hlaw
  omega

/-- A token with a flight was issued. -/
theorem TokenInv.token_issued {s : State} (h : TokenInv s) {t : Token}
    {fl : Registry × String} (hf : s.flightOfToken t = some fl) :
    t < s.nextToken := by
  by_contra hge
  rw [h.freshTokens t (Nat.le_of_not_lt hge)] at hf
  cases hf

/-- The promise side of a state reads these fields only. -/
theorem PromiseInv.of_frame {s s' : State} (h : PromiseInv cfg s)
    (hpending : s'.pendingTerrain = s.pendingTerrain)
    (hcount : s'.pendingTerrainTileCount = s.pendingTerrainTileCount)
    (hpromise : s'.nextPromise = s.nextPromise)
    (hflight : s'.flightOf = s.flightOf)
    (hcompleted : s'.completed = s.completed) : PromiseInv cfg s' where
  count := by
    simp only [waitingWeight, hpending, hcount]
    exact h.count
  bounded := hcount ▸ h.bounded
  conserved f := by
    simp only [waitingWeight, completedWeight, issuedWeight, hpending,
      hcompleted, hpromise]
    exact h.conserved f
  nonempty := hpending ▸ h.nonempty
  waiterFlights := by
    rw [hpending, hflight]
    exact h.waiterFlights

/-- The token side of a state reads these fields only; the stages of
jobs are free. -/
theorem TokenInv.of_frame {s s' : State} (h : TokenInv s)
    (hpending : s'.pendingTerrain = s.pendingTerrain)
    (hcancel : s'.cancellations = s.cancellations)
    (hjobs : ∀ t, jobFlight s' t = jobFlight s t)
    (htoken : s'.nextToken = s.nextToken)
    (hflightT : s'.flightOfToken = s.flightOfToken) : TokenInv s' where
  registered := by
    rw [hpending, hcancel]
    exact h.registered
  owned r k t hc := by
    rw [hjobs]
    exact h.owned r k t (hcancel ▸ hc)
  jobFlights t fl hj := by
    rw [hflightT]
    exact h.jobFlights t fl (hjobs t ▸ hj)
  freshTokens := by
    rw [htoken, hflightT]
    exact h.freshTokens

-- =================================================== issuing a promise

/-- Replacing one registry changes the waiting weight by its share. -/
theorem waitingWeight_update (f : Promise → Nat) {s u : State}
    {r : Registry} {registry : QHash String (List Promise)}
    (h : u.pendingTerrain = Function.update s.pendingTerrain r registry) :
    waitingWeight f u + registryWeight f (s.pendingTerrain r)
      = waitingWeight f s + registryWeight f registry := by
  have hsum := overRegistries_update
    (m := fun q => registryWeight f (s.pendingTerrain q))
    (n := fun q => registryWeight f (u.pendingTerrain q)) r
    (fun q hq => by rw [h, Function.update_of_ne hq])
  rw [h, Function.update_self, ← h] at hsum
  exact hsum

/-- `attachTerrainWaiter` writes the socket table only. -/
theorem attachTerrainWaiter_eq (p : Promise) (client : Option String)
    (s : State) : ∃ sockets,
      attachTerrainWaiter p client s
        = { s with terrainWaiterSockets := sockets } := by
  unfold attachTerrainWaiter
  split
  · exact ⟨_, rfl⟩
  · exact ⟨s.terrainWaiterSockets, rfl⟩

/-- The waiters of a flight, none where it does not exist. -/
def waitersOf (s : State) (r : Registry) (k : String) : List Promise :=
  ((s.pendingTerrain r).lookup k).getD []

/-- What `appendWaiter` writes. -/
theorem appendWaiter_eq (sub : Submission) (s : State) : ∃ sockets,
    appendWaiter sub s = { s with
      terrainWaiterSockets := sockets
      pendingTerrain := Function.update s.pendingTerrain sub.registry
        ((s.pendingTerrain sub.registry).insert sub.key
          (waitersOf s sub.registry sub.key ++ [s.nextPromise]))
      pendingTerrainTileCount := s.pendingTerrainTileCount + 1
      nextPromise := s.nextPromise + 1
      flightOf := Function.update s.flightOf s.nextPromise
        (some (sub.registry, sub.key)) } := by
  obtain ⟨sockets, hs⟩ := attachTerrainWaiter_eq s.nextPromise sub.client
    { s with
      pendingTerrain := Function.update s.pendingTerrain sub.registry
        ((s.pendingTerrain sub.registry).insert sub.key
          (waitersOf s sub.registry sub.key ++ [s.nextPromise]))
      pendingTerrainTileCount := s.pendingTerrainTileCount + 1
      nextPromise := s.nextPromise + 1
      flightOf := Function.update s.flightOf s.nextPromise
        (some (sub.registry, sub.key)) }
  exact ⟨sockets, hs⟩

/-- Where the waiters of a registry stand: an entry, or the weight of
the empty list. -/
theorem measureAt_waiters (f : Promise → Nat) (s : State) (r : Registry)
    (k : String) :
    QHash.measureAt (fun _ ps => weigh f ps) k (s.pendingTerrain r)
      = weigh f (waitersOf s r k) := by
  unfold waitersOf
  cases h : (s.pendingTerrain r).lookup k with
  | none => rw [QHash.measureAt_none h, Option.getD_none, weigh_nil]
  | some ps => rw [QHash.measureAt_some h, Option.getD_some]

/-- Issuing a promise adds its weight. -/
theorem appendWaiter_weight (f : Promise → Nat) (sub : Submission)
    (s : State) :
    waitingWeight f (appendWaiter sub s)
      = waitingWeight f s + f s.nextPromise := by
  obtain ⟨sockets, heq⟩ := appendWaiter_eq sub s
  have hupd := waitingWeight_update f (s := s) (u := appendWaiter sub s)
    (r := sub.registry) (by rw [heq])
  have hins := QHash.total_insert (fun _ ps => weigh f ps) sub.key
    (waitersOf s sub.registry sub.key ++ [s.nextPromise])
    (s.pendingTerrain sub.registry)
  rw [measureAt_waiters, weigh_append] at hins
  have hsingle : weigh f [s.nextPromise] = f s.nextPromise := by
    simp [weigh]
  unfold registryWeight at hupd
  omega

/-- The waiters of a flight after a promise was issued. -/
theorem lookup_appendWaiter (sub : Submission) (s : State) (r : Registry)
    (k : String) :
    ((appendWaiter sub s).pendingTerrain r).lookup k
      = if (r, k) = (sub.registry, sub.key) then
          some (waitersOf s sub.registry sub.key ++ [s.nextPromise])
        else (s.pendingTerrain r).lookup k := by
  obtain ⟨sockets, heq⟩ := appendWaiter_eq sub s
  rw [heq]
  show (Function.update s.pendingTerrain sub.registry _ r).lookup k = _
  by_cases hr : r = sub.registry
  · subst hr
    rw [Function.update_self]
    by_cases hk : k = sub.key
    · subst hk
      rw [AList.lookup_insert, if_pos rfl]
    · rw [AList.lookup_insert_ne hk, if_neg (by simp [hk])]
  · rw [Function.update_of_ne hr, if_neg (by simp [hr])]

/-- Issuing a promise with room for it keeps the promise side. -/
theorem promiseInv_appendWaiter {s : State} (h : PromiseInv cfg s)
    (sub : Submission)
    (hroom : s.pendingTerrainTileCount < cfg.maximumPendingRequests) :
    PromiseInv cfg (appendWaiter sub s) := by
  have hweight := fun f => appendWaiter_weight f sub s
  obtain ⟨sockets, heq⟩ := appendWaiter_eq sub s
  constructor
  · rw [hweight, heq]
    have := h.count
    push_cast
    omega
  · rw [heq]
    show s.pendingTerrainTileCount + 1 ≤ (cfg.maximumPendingRequests : Int)
    omega
  · intro f
    have hlaw := h.conserved f
    have hissued : issuedWeight f (appendWaiter sub s)
        = issuedWeight f s + f s.nextPromise := by
      rw [heq]
      simp only [issuedWeight, List.range_succ, weigh_append]
      simp [weigh]
    have hdone : completedWeight f (appendWaiter sub s)
        = completedWeight f s := by
      rw [heq]
      rfl
    rw [hweight, hissued, hdone]
    omega
  · intro r k ps hk
    rw [lookup_appendWaiter] at hk
    split at hk
    · cases hk
      simp
    · exact h.nonempty r k ps hk
  · intro r k ps p hk hp
    rw [lookup_appendWaiter] at hk
    have hflight : (appendWaiter sub s).flightOf
        = Function.update s.flightOf s.nextPromise
            (some (sub.registry, sub.key)) := by
      rw [heq]
    rw [hflight]
    -- an old waiter is not the promise being issued
    have hold : ∀ qs, (s.pendingTerrain r).lookup k = some qs → p ∈ qs →
        Function.update s.flightOf s.nextPromise
          (some (sub.registry, sub.key)) p = some (r, k) := by
      intro qs hq hpq
      have hlt := h.waiting_issued hq hpq
      rw [Function.update_of_ne (Nat.ne_of_lt hlt)]
      exact h.waiterFlights r k qs p hq hpq
    split at hk
    · rename_i hrk
      cases hk
      rcases List.mem_append.1 hp with hp | hp
      · cases hrk
        unfold waitersOf at hp
        cases hq : (s.pendingTerrain sub.registry).lookup sub.key with
        | none =>
            rw [hq] at hp
            cases hp
        | some qs =>
            rw [hq] at hp
            exact hold qs hq hp
      · rw [List.mem_singleton.1 hp, Function.update_self, hrk]
    · exact hold ps hk hp

/-- A key after a promise was issued for a flight. -/
theorem mem_appendWaiter (sub : Submission) (s : State) (r : Registry)
    (k : String) :
    k ∈ (appendWaiter sub s).pendingTerrain r
      ↔ (r, k) = (sub.registry, sub.key) ∨ k ∈ s.pendingTerrain r := by
  rw [← AList.lookup_isSome, ← AList.lookup_isSome, lookup_appendWaiter]
  by_cases hrk : (r, k) = (sub.registry, sub.key)
  · simp [hrk]
  · simp [hrk]

/-- Completions keep their flights when a promise is issued. -/
theorem completedFlights_appendWaiter {s : State} (h : WaiterInv cfg s)
    (sub : Submission) :
    ∀ c ∈ (appendWaiter sub s).completed, ∀ t, c.job = some t →
      ∃ fl, (appendWaiter sub s).flightOfToken t = some fl ∧
        (appendWaiter sub s).flightOf c.promise = some fl := by
  obtain ⟨sockets, heq⟩ := appendWaiter_eq sub s
  rw [heq]
  intro c hc t ht
  obtain ⟨fl, hflT, hflP⟩ := h.completedFlights c hc t ht
  have hlt := h.promises.completed_issued hc
  refine ⟨fl, hflT, ?_⟩
  show Function.update s.flightOf s.nextPromise _ c.promise = some fl
  rw [Function.update_of_ne (Nat.ne_of_lt hlt)]
  exact hflP

/-- Joining an existing flight. -/
theorem waiterInv_join {s : State} (h : WaiterInv cfg s) {sub : Submission}
    (hidle : s.http = .idle) (hkey : sub.key ∈ s.pendingTerrain sub.registry)
    (hroom : s.pendingTerrainTileCount < cfg.maximumPendingRequests) :
    WaiterInv cfg (appendWaiter sub s) := by
  refine ⟨promiseInv_appendWaiter h.promises sub hroom, ?_,
    completedFlights_appendWaiter h sub, ?_⟩
  · have hmem := mem_appendWaiter sub s
    obtain ⟨sockets, heq⟩ := appendWaiter_eq sub s
    refine ⟨?_, ?_, ?_, ?_⟩
    · intro r k
      rw [hmem, heq]
      show _ ↔ ∃ t, s.cancellations r k = some t
      rw [← h.tokens.registered r k]
      constructor
      · rintro (hrk | hk)
        · cases hrk
          exact hkey
        · exact hk
      · exact Or.inr
    · rw [heq]
      exact h.tokens.owned
    · rw [heq]
      exact h.tokens.jobFlights
    · rw [heq]
      exact h.tokens.freshTokens
  · obtain ⟨sockets, heq⟩ := appendWaiter_eq sub s
    rw [heq]
    unfold SubmissionChecked
    simp only [hidle]

/-- Starting a new flight: the promise, the token and the job together.
-/
theorem waiterInv_launch {s : State} (h : WaiterInv cfg s)
    {sub : Submission} (hidle : s.http = .idle)
    (hroom : s.pendingTerrainTileCount < cfg.maximumPendingRequests) :
    WaiterInv cfg (launchJob sub (appendWaiter sub s)) := by
  have hmem := mem_appendWaiter sub s
  have hpromises := promiseInv_appendWaiter h.promises sub hroom
  have hcompleted := completedFlights_appendWaiter h sub
  obtain ⟨sockets, heq⟩ := appendWaiter_eq sub s
  -- the flights of the old tokens do not move
  have hflight : ∀ t fl, s.flightOfToken t = some fl →
      Function.update s.flightOfToken s.nextToken
        (some (sub.registry, sub.key)) t = some fl := by
    intro t fl ht
    have hlt := h.tokens.token_issued ht
    rw [Function.update_of_ne (Nat.ne_of_lt hlt)]
    exact ht
  have hjob : ∀ t, jobFlight (launchJob sub (appendWaiter sub s)) t
      = if t = s.nextToken then some (sub.registry, sub.key)
        else jobFlight s t := by
    intro t
    rw [heq]
    unfold jobFlight launchJob
    by_cases ht : t = s.nextToken
    · subst ht
      rw [if_pos rfl]
      show Option.map _ ((s.jobs.insert s.nextToken _).lookup s.nextToken)
        = _
      rw [AList.lookup_insert]
      rfl
    · rw [if_neg ht]
      show Option.map _ ((s.jobs.insert s.nextToken _).lookup t) = _
      rw [AList.lookup_insert_ne ht]
  have hcancel : ∀ r k,
      (launchJob sub (appendWaiter sub s)).cancellations r k
        = if (r, k) = (sub.registry, sub.key) then some s.nextToken
          else s.cancellations r k := by
    intro r k
    rw [heq]
    show Function.update s.cancellations sub.registry
      (Function.update (s.cancellations sub.registry) sub.key
        (some s.nextToken)) r k = _
    by_cases hr : r = sub.registry
    · subst hr
      rw [Function.update_self]
      by_cases hk : k = sub.key
      · subst hk
        rw [Function.update_self, if_pos rfl]
      · rw [Function.update_of_ne hk, if_neg (by simp [hk])]
    · rw [Function.update_of_ne hr, if_neg (by simp [hr])]
  refine ⟨hpromises.of_frame rfl rfl rfl rfl rfl, ⟨?_, ?_, ?_, ?_⟩, ?_, ?_⟩
  · intro r k
    rw [hcancel]
    show k ∈ (appendWaiter sub s).pendingTerrain r ↔ _
    rw [hmem]
    by_cases hrk : (r, k) = (sub.registry, sub.key)
    · simp [hrk]
    · simp only [hrk, false_or, if_false]
      exact h.tokens.registered r k
  · intro r k t ht
    rw [hcancel] at ht
    rw [hjob]
    by_cases hrk : (r, k) = (sub.registry, sub.key)
    · rw [if_pos hrk] at ht
      cases ht
      rw [if_pos rfl, hrk]
    · rw [if_neg hrk] at ht
      have hown := h.tokens.owned r k t ht
      have hlt := h.tokens.token_issued (h.tokens.jobFlights t _ hown)
      rw [if_neg (Nat.ne_of_lt hlt)]
      exact hown
  · intro t fl ht
    rw [hjob] at ht
    have hgoal : (launchJob sub (appendWaiter sub s)).flightOfToken t
        = Function.update s.flightOfToken s.nextToken
            (some (sub.registry, sub.key)) t := by
      rw [heq]
      rfl
    rw [hgoal]
    by_cases htn : t = s.nextToken
    · rw [if_pos htn] at ht
      rw [htn, Function.update_self]
      exact ht
    · rw [if_neg htn] at ht
      exact hflight t fl (h.tokens.jobFlights t fl ht)
  · intro t ht
    rw [heq] at ht ⊢
    show Function.update s.flightOfToken s.nextToken
      (some (sub.registry, sub.key)) t = none
    have hle : s.nextToken + 1 ≤ t := ht
    rw [Function.update_of_ne (Nat.ne_of_gt hle)]
    exact h.tokens.freshTokens t (Nat.le_of_succ_le hle)
  · intro c hc t ht
    obtain ⟨fl, hflT, hflP⟩ := hcompleted c hc t ht
    refine ⟨fl, ?_, hflP⟩
    rw [heq] at hflT ⊢
    exact hflight t fl hflT
  · rw [heq]
    unfold SubmissionChecked launchJob
    simp only [hidle]

-- ================================================= completing promises

/-- Completing a flight takes its waiters' weight off what waits. -/
theorem drainFlight_weight (f : Promise → Nat) (token : Token) (job : Job)
    (result : JobResult) (s : State) :
    waitingWeight f (drainFlight token job result s)
        + weigh f (waitersOf s job.registry job.key)
      = waitingWeight f s := by
  have hupd := waitingWeight_update f (s := s)
    (u := drainFlight token job result s) (r := job.registry) rfl
  have herase := QHash.total_erase (fun _ ps => weigh f ps) job.key
    (s.pendingTerrain job.registry)
  rw [measureAt_waiters] at herase
  unfold registryWeight at hupd
  omega

/-- The waiters of a flight after another flight was completed. -/
theorem lookup_drainFlight (token : Token) (job : Job)
    (result : JobResult) (s : State) (r : Registry) (k : String) :
    ((drainFlight token job result s).pendingTerrain r).lookup k
      = if (r, k) = (job.registry, job.key) then none
        else (s.pendingTerrain r).lookup k := by
  show (Function.update s.pendingTerrain job.registry
    ((s.pendingTerrain job.registry).erase job.key) r).lookup k = _
  by_cases hr : r = job.registry
  · subst hr
    rw [Function.update_self]
    by_cases hk : k = job.key
    · subst hk
      rw [AList.lookup_erase, if_pos rfl]
    · rw [AList.lookup_erase_ne hk, if_neg (by simp [hk])]
  · rw [Function.update_of_ne hr, if_neg (by simp [hr])]

/-- The tokens after a flight was completed. -/
theorem cancellations_drainFlight (token : Token) (job : Job)
    (result : JobResult) (s : State) (r : Registry) (k : String) :
    (drainFlight token job result s).cancellations r k
      = if (r, k) = (job.registry, job.key) then none
        else s.cancellations r k := by
  show Function.update s.cancellations job.registry
    (Function.update (s.cancellations job.registry) job.key none) r k = _
  by_cases hr : r = job.registry
  · subst hr
    rw [Function.update_self]
    by_cases hk : k = job.key
    · subst hk
      rw [Function.update_self, if_pos rfl]
    · rw [Function.update_of_ne hk, if_neg (by simp [hk])]
  · rw [Function.update_of_ne hr, if_neg (by simp [hr])]

/-- What a completion callback does: a superseded one ends its job and
does nothing else, a current one completes its flight as well. -/
theorem completionCallback_inv {token : Token} {s s' : State}
    (h : completionCallback token s = some s') :
    ∃ job result, s.jobs.lookup token = some job ∧
      job.stage = .callback result ∧
      ((s.cancellations job.registry job.key ≠ some token ∧
        s' = callbackEnds token job s) ∨
      (s.cancellations job.registry job.key = some token ∧
        s' = callbackEnds token job (drainFlight token job result s))) := by
  unfold completionCallback at h
  cases hjob : s.jobs.lookup token with
  | none =>
      rw [hjob] at h
      cases h
  | some job =>
      rw [hjob] at h
      cases hstage : job.stage with
      | callback result =>
          refine ⟨job, result, rfl, hstage, ?_⟩
          simp only [hstage] at h
          by_cases hcur : s.cancellations job.registry job.key = some token
          · rw [if_neg (by simpa using hcur)] at h
            exact Or.inr ⟨hcur, (Option.some.inj h).symm⟩
          · rw [if_pos hcur] at h
            exact Or.inl ⟨hcur, (Option.some.inj h).symm⟩
      | remote => simp only [hstage] at h; cases h
      | handoff a => simp only [hstage] at h; cases h
      | cpu => simp only [hstage] at h; cases h
      | processing b => simp only [hstage] at h; cases h

/-- The flight a live job works for. -/
theorem jobFlight_of_lookup {s : State} {t : Token} {job : Job}
    (h : s.jobs.lookup t = some job) :
    jobFlight s t = some (job.registry, job.key) := by
  unfold jobFlight
  rw [h]
  rfl

/-- The flights of the jobs left when one job ended. -/
theorem jobFlight_callbackEnds (token : Token) (job : Job) (s : State)
    (t : Token) :
    jobFlight (callbackEnds token job s) t
      = if t = token then none else jobFlight s t := by
  show Option.map _ ((s.jobs.erase token).lookup t) = _
  by_cases ht : t = token
  · subst ht
    rw [AList.lookup_erase, if_pos rfl]
    rfl
  · rw [AList.lookup_erase_ne ht, if_neg ht]
    rfl

/-- Ending a job that is not registered keeps the invariant. -/
theorem waiterInv_callbackEnds {s : State} {token : Token} {job : Job}
    (h : WaiterInv cfg s)
    (hstale : ∀ r k, s.cancellations r k ≠ some token) :
    WaiterInv cfg (callbackEnds token job s) := by
  refine ⟨h.promises.of_frame rfl rfl rfl rfl rfl,
    ⟨h.tokens.registered, ?_, ?_, h.tokens.freshTokens⟩,
    h.completedFlights, h.checked⟩
  · intro r k t ht
    rw [jobFlight_callbackEnds, if_neg]
    · exact h.tokens.owned r k t ht
    · rintro rfl
      exact hstale r k ht
  · intro t fl ht
    rw [jobFlight_callbackEnds] at ht
    split at ht
    · cases ht
    · exact h.tokens.jobFlights t fl ht

/-- Completing a flight keeps the promise side. -/
theorem promiseInv_drainFlight {s : State} (h : PromiseInv cfg s)
    (token : Token) (job : Job) (result : JobResult) :
    PromiseInv cfg (drainFlight token job result s) := by
  have hweight := fun f => drainFlight_weight f token job result s
  have hlookup := lookup_drainFlight token job result s
  have hcount : (drainFlight token job result s).pendingTerrainTileCount
      = s.pendingTerrainTileCount
        - ((waitersOf s job.registry job.key).length : Int) := rfl
  refine ⟨?_, ?_, ?_, ?_, ?_⟩
  · have hone := hweight fun _ => 1
    rw [weigh_one] at hone
    have := h.count
    rw [hcount]
    omega
  · have := h.bounded
    rw [hcount]
    omega
  · intro f
    have hlaw := h.conserved f
    have hdone : completedWeight f (drainFlight token job result s)
        = completedWeight f s
          + weigh f (waitersOf s job.registry job.key) := by
      unfold completedWeight
      show weigh f ((s.completed ++ _).map _) = _
      rw [List.map_append, weigh_append, List.map_map]
      congr 2
      exact List.map_id' _
    have := hweight f
    show _ = issuedWeight f s
    omega
  · intro r k ps hk
    rw [hlookup] at hk
    split at hk
    · cases hk
    · exact h.nonempty r k ps hk
  · intro r k ps p hk hp
    rw [hlookup] at hk
    split at hk
    · cases hk
    · exact h.waiterFlights r k ps p hk hp

/-- Completing a flight drops its key and its token together. -/
theorem tokenInv_drainFlight {s : State} (h : TokenInv s)
    (token : Token) (job : Job) (result : JobResult) :
    TokenInv (drainFlight token job result s) := by
  have hlookup := lookup_drainFlight token job result s
  have hcancel := cancellations_drainFlight token job result s
  refine ⟨?_, ?_, h.jobFlights, h.freshTokens⟩
  · intro r k
    rw [← AList.lookup_isSome, hlookup, hcancel]
    by_cases hrk : (r, k) = (job.registry, job.key)
    · simp [hrk]
    · simp only [hrk, if_false]
      rw [AList.lookup_isSome]
      exact h.registered r k
  · intro r k t ht
    rw [hcancel] at ht
    split at ht
    · cases ht
    · exact h.owned r k t ht

/-- A waiter of a flight waits in that flight. -/
theorem PromiseInv.waitersOf_flight {s : State} (h : PromiseInv cfg s)
    {r : Registry} {k : String} {p : Promise} (hp : p ∈ waitersOf s r k) :
    s.flightOf p = some (r, k) := by
  unfold waitersOf at hp
  cases hq : (s.pendingTerrain r).lookup k with
  | none =>
      rw [hq] at hp
      cases hp
  | some ps =>
      rw [hq] at hp
      exact h.waiterFlights r k ps p hq hp

/-- A job completes promises of its own flight only. -/
theorem completedFlights_drainFlight {s : State} (h : WaiterInv cfg s)
    {token : Token} {job : Job} (hjob : s.jobs.lookup token = some job)
    (result : JobResult) :
    ∀ c ∈ (drainFlight token job result s).completed, ∀ t,
      c.job = some t →
      ∃ fl, s.flightOfToken t = some fl ∧ s.flightOf c.promise = some fl := by
  intro c hc t ht
  rcases List.mem_append.1 hc with hc | hc
  · exact h.completedFlights c hc t ht
  · obtain ⟨p, hp, rfl⟩ := List.mem_map.1 hc
    cases ht
    exact ⟨_, h.tokens.jobFlights token _ (jobFlight_of_lookup hjob),
      h.promises.waitersOf_flight hp⟩

/-- A callback keeps the invariant, superseded or not. -/
theorem waiterInv_callback {s s' : State} {token : Token}
    (h : WaiterInv cfg s) (hidle : s.http = .idle)
    (hstep : completionCallback token s = some s') : WaiterInv cfg s' := by
  obtain ⟨job, result, hjob, -, hcase⟩ := completionCallback_inv hstep
  -- a registered token is registered for its own flight
  have hown : ∀ r k, s.cancellations r k = some token →
      (r, k) = (job.registry, job.key) := by
    intro r k ht
    have hflight := h.tokens.owned r k token ht
    rw [jobFlight_of_lookup hjob] at hflight
    exact (Option.some.inj hflight).symm
  rcases hcase with ⟨hstale, rfl⟩ | ⟨-, rfl⟩
  · refine waiterInv_callbackEnds h fun r k ht => hstale ?_
    cases hown r k ht
    exact ht
  · have hdrained : WaiterInv cfg (drainFlight token job result s) :=
      ⟨promiseInv_drainFlight h.promises token job result,
        tokenInv_drainFlight h.tokens token job result,
        completedFlights_drainFlight h hjob result,
        by unfold SubmissionChecked; simp only [drainFlight, hidle]⟩
    refine waiterInv_callbackEnds hdrained fun r k ht => ?_
    rw [cancellations_drainFlight] at ht
    split at ht
    · cases ht
    · rename_i hne
      exact hne (hown r k ht)

-- ================================================= abandoning promises

/-- A socket's waiters and the others make up the list. -/
theorem weigh_leaving_staying (f : Promise → Nat) (s : State)
    (socket : Socket) (ps : List Promise) :
    weigh f (leaving s socket ps) + weigh f (staying s socket ps)
      = weigh f ps := by
  have hperm : (leaving s socket ps ++ staying s socket ps).Perm ps :=
    (((List.reverse_perm ps).filter _).append_right _).trans
      (List.filter_append_perm
        (fun p => s.terrainWaiterSockets p == some socket) ps)
  rw [← weigh_append]
  exact (hperm.map f).sum_eq

/-- The promises a socket leaves behind in one registry. -/
def goneFrom (s : State) (socket : Socket) (r : Registry) : List Promise :=
  (s.pendingTerrain r).entries.flatMap fun e => leaving s socket e.2

/-- They weigh the total of what each flight loses. -/
theorem weigh_goneFrom (f : Promise → Nat) (s : State) (socket : Socket)
    (r : Registry) :
    weigh f (goneFrom s socket r)
      = QHash.total (fun _ ps => weigh f (leaving s socket ps))
          (s.pendingTerrain r) := by
  unfold goneFrom QHash.total
  induction (s.pendingTerrain r).entries with
  | nil => rfl
  | cons e l ih =>
      rw [List.flatMap_cons, weigh_append, ih, List.map_cons, List.sum_cons]

/-- The waiters of a flight after a socket left one registry. -/
theorem lookup_abandonRegistry (socket : Socket) (s : State)
    (r q : Registry) (k : String) :
    ((abandonRegistry socket s r).pendingTerrain q).lookup k
      = if q = r then
          ((s.pendingTerrain q).lookup k).bind fun ps =>
            if staying s socket ps = [] then none
            else some (staying s socket ps)
        else (s.pendingTerrain q).lookup k := by
  show (Function.update s.pendingTerrain r _ q).lookup k = _
  by_cases hq : q = r
  · subst hq
    rw [Function.update_self, if_pos rfl, QHash.lookup_filterMapValues]
  · rw [Function.update_of_ne hq, if_neg hq]

/-- The flights a socket leaves without waiters. -/
theorem mem_orphans (s : State) (socket : Socket) (r : Registry)
    (k : String) :
    k ∈ ((s.pendingTerrain r).entries.filter fun e =>
        staying s socket e.2 == []).map (·.1)
      ↔ ∃ ps, (s.pendingTerrain r).lookup k = some ps ∧
          staying s socket ps = [] := by
  rw [List.mem_map]
  constructor
  · rintro ⟨⟨k', ps⟩, hmem, rfl⟩
    obtain ⟨hmem, hempty⟩ := List.mem_filter.1 hmem
    exact ⟨ps, AList.mem_lookup_iff.2 hmem, by simpa using hempty⟩
  · rintro ⟨ps, hk, hempty⟩
    exact ⟨⟨k, ps⟩, List.mem_filter.2 ⟨AList.mem_lookup_iff.1 hk,
      by simpa using hempty⟩, rfl⟩

/-- Abandoning moves the weight of what leaves. -/
theorem abandonRegistry_weight (f : Promise → Nat) (socket : Socket)
    (s : State) (r : Registry) :
    waitingWeight f (abandonRegistry socket s r)
        + weigh f (goneFrom s socket r)
      = waitingWeight f s := by
  have hupd := waitingWeight_update f (s := s)
    (u := abandonRegistry socket s r) (r := r) rfl
  have hstay : registryWeight f (QHash.filterMapValues (fun _ ps =>
        if staying s socket ps = [] then none
        else some (staying s socket ps)) (s.pendingTerrain r))
      = QHash.total (fun _ ps => weigh f (staying s socket ps))
          (s.pendingTerrain r) := by
    unfold registryWeight
    rw [QHash.total_filterMapValues]
    refine QHash.total_congr fun k ps _ => ?_
    by_cases hempty : staying s socket ps = []
    · simp only [hempty, if_true, weigh_nil]
    · simp only [hempty, if_false]
  have hsplit : QHash.total (fun _ ps => weigh f ps) (s.pendingTerrain r)
      = QHash.total (fun _ ps => weigh f (leaving s socket ps))
          (s.pendingTerrain r)
        + QHash.total (fun _ ps => weigh f (staying s socket ps))
          (s.pendingTerrain r) := by
    rw [← QHash.total_add]
    exact QHash.total_congr fun _ ps _ =>
      (weigh_leaving_staying f s socket ps).symm
  rw [hstay] at hupd
  unfold registryWeight at hupd
  rw [weigh_goneFrom]
  omega

/-- Whoever stays waited before. -/
theorem lookup_of_lookup_abandonRegistry {socket : Socket} {s : State}
    {r q : Registry} {k : String} {ps : List Promise}
    (h : ((abandonRegistry socket s r).pendingTerrain q).lookup k
      = some ps) :
    ps ≠ [] ∧ ps ⊆ waitersOf s q k ∨
      (s.pendingTerrain q).lookup k = some ps := by
  rw [lookup_abandonRegistry] at h
  split at h
  · obtain ⟨old, hold, hps⟩ := Option.bind_eq_some_iff.1 h
    split at hps
    · cases hps
    · rename_i hne
      cases hps
      refine Or.inl ⟨hne, ?_⟩
      unfold waitersOf
      rw [hold]
      exact List.filter_sublist.subset
  · exact Or.inr h

/-- Abandoning one registry keeps the invariant. -/
theorem waiterInv_abandonRegistry {s : State} (h : WaiterInv cfg s)
    (hidle : s.http = .idle) (socket : Socket) (r : Registry) :
    WaiterInv cfg (abandonRegistry socket s r) := by
  have hweight := fun f => abandonRegistry_weight f socket s r
  have hcount : (abandonRegistry socket s r).pendingTerrainTileCount
      = s.pendingTerrainTileCount
        - ((goneFrom s socket r).length : Int) := rfl
  have hcancel : ∀ q k, (abandonRegistry socket s r).cancellations q k
      = if q = r ∧ ∃ ps, (s.pendingTerrain q).lookup k = some ps ∧
            staying s socket ps = [] then none
        else s.cancellations q k := by
    intro q k
    show Function.update s.cancellations r (fun k => _) q k = _
    by_cases hq : q = r
    · subst hq
      rw [Function.update_self]
      simp only [mem_orphans, true_and]
    · rw [Function.update_of_ne hq, if_neg (fun hand => hq hand.1)]
  refine ⟨⟨?_, ?_, ?_, ?_, ?_⟩,
    ⟨?_, ?_, h.tokens.jobFlights, h.tokens.freshTokens⟩, ?_, ?_⟩
  · have hone := hweight fun _ => 1
    rw [weigh_one] at hone
    have := h.promises.count
    rw [hcount]
    omega
  · have := h.promises.bounded
    rw [hcount]
    omega
  · intro f
    have hlaw := h.promises.conserved f
    have hdone : completedWeight f (abandonRegistry socket s r)
        = completedWeight f s + weigh f (goneFrom s socket r) := by
      unfold completedWeight
      show weigh f ((s.completed ++ _).map _) = _
      rw [List.map_append, weigh_append, List.map_map]
      congr 2
      exact List.map_id' _
    have := hweight f
    show _ = issuedWeight f s
    omega
  · intro q k ps hk
    rcases lookup_of_lookup_abandonRegistry hk with ⟨hne, -⟩ | hold
    · exact hne
    · exact h.promises.nonempty q k ps hold
  · intro q k ps p hk hp
    rcases lookup_of_lookup_abandonRegistry hk with ⟨-, hsub⟩ | hold
    · exact h.promises.waitersOf_flight (hsub hp)
    · exact h.promises.waiterFlights q k ps p hold hp
  · intro q k
    have hreg := h.tokens.registered q k
    rw [← AList.lookup_isSome] at hreg ⊢
    rw [lookup_abandonRegistry, hcancel]
    by_cases hq : q = r
    · simp only [hq, if_true, true_and] at hreg ⊢
      cases hold : (s.pendingTerrain r).lookup k with
      | none =>
          rw [hold] at hreg
          simp only [Option.bind_none, Option.isSome_none,
            Bool.false_eq_true, false_iff] at hreg ⊢
          simpa using hreg
      | some ps =>
          rw [hold] at hreg
          by_cases hempty : staying s socket ps = []
          · simp [hempty]
          · simp only [Option.bind_some, hempty, if_false,
              Option.isSome_some, true_iff] at hreg ⊢
            simpa [hempty] using hreg
    · simp only [hq, if_false, false_and]
      exact hreg
  · intro q k t ht
    rw [hcancel] at ht
    split at ht
    · cases ht
    · exact h.tokens.owned q k t ht
  · intro c hc t ht
    rcases List.mem_append.1 hc with hc | hc
    · exact h.completedFlights c hc t ht
    · obtain ⟨p, -, rfl⟩ := List.mem_map.1 hc
      cases ht
  · unfold SubmissionChecked
    simp only [abandonRegistry, hidle]

/-- A socket's notification keeps the invariant. -/
theorem waiterInv_socketGone {s : State} (h : WaiterInv cfg s)
    (hidle : s.http = .idle) (client : String) (socket : Socket) :
    WaiterInv cfg (socketGone client socket s) := by
  -- the socket tables are not read by the invariant
  have hforget : ∀ sockets : String → Option Socket,
      WaiterInv cfg { s with terrainClientSockets := sockets } := by
    intro sockets
    refine ⟨h.promises.of_frame rfl rfl rfl rfl rfl,
      h.tokens.of_frame rfl rfl (fun _ => rfl) rfl rfl,
      h.completedFlights, h.checked⟩
  have hfold : ∀ (rs : List Registry) (s₁ : State), WaiterInv cfg s₁ →
      s₁.http = .idle →
      WaiterInv cfg (rs.foldl (abandonRegistry socket) s₁) := by
    intro rs
    induction rs with
    | nil =>
        intro s₁ h₁ _
        exact h₁
    | cons r rs ih =>
        intro s₁ h₁ hidle₁
        exact ih _ (waiterInv_abandonRegistry h₁ hidle₁ socket r) hidle₁
  exact hfold _ _ (hforget _) hidle

-- ========================================================= every step

/-- Worker steps move stages and counters. -/
theorem worker_frame {s s' : State} {token : Token}
    {acquired : Option TerrainProviderFetchResult} {processed : Processed}
    (h : worker token acquired processed s = some s') :
    ∃ job stage admission remote, s.jobs.lookup token = some job ∧
      s' = { s with
        jobs := s.jobs.insert token { job with stage := stage }
        terrainAdmission := admission
        terrainRemoteAdmission := remote } := by
  unfold worker at h
  cases hjob : s.jobs.lookup token with
  | none =>
      rw [hjob] at h
      cases h
  | some job =>
      rw [hjob] at h
      cases hstage : job.stage with
      | remote =>
          simp only [hstage] at h
          cases h
          exact ⟨job, _, s.terrainAdmission, _, rfl, rfl⟩
      | handoff a =>
          simp only [hstage] at h
          split at h
          · cases h
            exact ⟨job, _, s.terrainAdmission, s.terrainRemoteAdmission,
              rfl, rfl⟩
          · cases h
            exact ⟨job, _, _, s.terrainRemoteAdmission, rfl, rfl⟩
      | cpu =>
          simp only [hstage] at h
          cases h
          exact ⟨job, _, s.terrainAdmission, s.terrainRemoteAdmission,
            rfl, rfl⟩
      | processing skipped =>
          simp only [hstage] at h
          obtain ⟨result, -, rfl⟩ := Option.map_eq_some_iff.1 h
          exact ⟨job, _, _, s.terrainRemoteAdmission, rfl, rfl⟩
      | callback result =>
          simp only [hstage] at h
          cases h

/-- Worker steps keep the invariant. -/
theorem waiterInv_worker {s s' : State} {token : Token}
    {acquired : Option TerrainProviderFetchResult} {processed : Processed}
    (h : WaiterInv cfg s)
    (hstep : worker token acquired processed s = some s') :
    WaiterInv cfg s' := by
  obtain ⟨job, stage, admission, remote, hjob, rfl⟩ := worker_frame hstep
  refine ⟨h.promises.of_frame rfl rfl rfl rfl rfl,
    h.tokens.of_frame rfl rfl (fun t => ?_) rfl rfl,
    h.completedFlights, h.checked⟩
  show Option.map _ ((s.jobs.insert token _).lookup t) = jobFlight s t
  by_cases ht : t = token
  · subst ht
    rw [AList.lookup_insert, jobFlight_of_lookup hjob]
    rfl
  · rw [AList.lookup_insert_ne ht]
    rfl

/-- Counters are not read by the invariant; what the HTTP thread is
about to do is, where it claims room for a waiter. -/
theorem WaiterInv.of_counters {s : State} (h : WaiterInv cfg s)
    (admission remote bytes : Int) (plain : Nat) {http : HttpThread}
    (hchecked : (∀ sub, http = .remoteNext sub ∨ http = .overallNext sub →
      s.pendingTerrainTileCount < cfg.maximumPendingRequests)) :
    WaiterInv cfg { s with
      terrainAdmission := admission
      terrainRemoteAdmission := remote
      terrainGridBytes := bytes
      plainJobs := plain
      http := http } := by
  refine ⟨h.promises.of_frame rfl rfl rfl rfl rfl,
    h.tokens.of_frame rfl rfl (fun _ => rfl) rfl rfl,
    h.completedFlights, ?_⟩
  unfold SubmissionChecked
  cases http with
  | remoteNext sub => exact hchecked sub (Or.inl rfl)
  | overallNext sub => exact hchecked sub (Or.inr rfl)
  | idle => trivial
  | releaseRemote sub => trivial
  | releaseBytes sub => trivial

/-- Whoever reads the atomic counters next, a refused submission claims
nothing. -/
theorem afterRemoteReleased_unchecked (sub sub' : Submission) :
    ¬(afterRemoteReleased sub = .remoteNext sub'
      ∨ afterRemoteReleased sub = .overallNext sub') := by
  unfold afterRemoteReleased
  cases sub.registry <;> simp

/-- The head of a submission keeps the invariant. -/
theorem waiterInv_submit {s : State} (h : WaiterInv cfg s)
    (hidle : s.http = .idle) (sub : Submission) :
    WaiterInv cfg (submit cfg sub s) := by
  unfold submit
  split
  · exact h
  · rename_i hroom
    have hroom : s.pendingTerrainTileCount < cfg.maximumPendingRequests :=
      Int.not_le.1 hroom
    split
    · rename_i hkey
      exact waiterInv_join h hidle hkey hroom
    · split
      · split
        · exact h.of_counters _ _ _ _ fun _ _ => hroom
        · exact h
      · exact h.of_counters _ _ _ _ fun _ _ => hroom
      · exact h.of_counters _ _ _ _ fun _ _ => hroom

/-- Every atomic operation of a submission keeps the invariant. -/
theorem waiterInv_admitNext {s s' : State} (h : WaiterInv cfg s)
    (hstep : admitNext cfg s = some s') : WaiterInv cfg s' := by
  have hchecked := h.checked
  unfold SubmissionChecked at hchecked
  unfold admitNext at hstep
  cases hhttp : s.http with
  | idle =>
      simp only [hhttp] at hstep
      cases hstep
  | remoteNext sub =>
      simp only [hhttp] at hstep hchecked
      split at hstep
      · split at hstep
        · cases hstep
          exact h.of_counters _ _ _ _ fun _ _ => hchecked
        · cases hstep
          exact h.of_counters _ _ _ _ fun sub' hsub =>
            absurd hsub (afterRemoteReleased_unchecked sub sub')
      · cases hstep
        exact h.of_counters _ _ _ _ fun _ _ => hchecked
  | overallNext sub =>
      simp only [hhttp] at hstep hchecked
      split at hstep
      · rename_i outstanding _
        cases hstep
        refine waiterInv_launch ?_ rfl hchecked
        exact h.of_counters outstanding _ _ _ fun _ hsub => by simp at hsub
      · cases hstep
        refine h.of_counters _ _ _ _ fun sub' hsub => absurd hsub ?_
        by_cases hremote : sub.remoteJob
        · simp [hremote]
        · simp only [hremote]
          exact afterRemoteReleased_unchecked sub sub'
  | releaseRemote sub =>
      simp only [hhttp] at hstep
      cases hstep
      exact h.of_counters _ _ _ _ fun sub' hsub =>
        absurd hsub (afterRemoteReleased_unchecked sub sub')
  | releaseBytes sub =>
      simp only [hhttp] at hstep
      cases hstep
      exact h.of_counters _ _ _ _ fun _ hsub => by simp at hsub

/-- Events of the HTTP thread happen between submissions. -/
theorem onIdle_inv {s s' : State} {next : Option State}
    (h : onIdle s next = some s') : s.http = .idle ∧ next = some s' := by
  unfold onIdle at h
  split at h
  · exact ⟨by assumption, h⟩
  · cases h

/-- Every step keeps the invariant. -/
theorem waiterInv_step {a : Action} {s s' : State} (h : WaiterInv cfg s)
    (hstep : apply cfg a s = some s') : WaiterInv cfg s' := by
  cases a with
  | accept client socket =>
      obtain ⟨-, heq⟩ := onIdle_inv hstep
      cases heq
      exact ⟨h.promises.of_frame rfl rfl rfl rfl rfl,
        h.tokens.of_frame rfl rfl (fun _ => rfl) rfl rfl,
        h.completedFlights, h.checked⟩
  | submit sub =>
      obtain ⟨hidle, heq⟩ := onIdle_inv hstep
      cases heq
      exact waiterInv_submit h hidle sub
  | submitTerrainJob =>
      obtain ⟨hidle, heq⟩ := onIdle_inv hstep
      cases heq
      unfold submitTerrainJob
      split
      · exact h.of_counters _ _ _ _ fun _ hsub => by simp [hidle] at hsub
      · exact h
  | admitNext => exact waiterInv_admitNext h hstep
  | callback token =>
      obtain ⟨hidle, heq⟩ := onIdle_inv hstep
      exact waiterInv_callback h hidle heq
  | socketGone client socket =>
      obtain ⟨hidle, heq⟩ := onIdle_inv hstep
      cases heq
      exact waiterInv_socketGone h hidle client socket
  | worker token acquired processed => exact waiterInv_worker h hstep
  | plainJobEnds =>
      replace hstep : plainJobEnds s = some s' := hstep
      unfold plainJobEnds at hstep
      split at hstep
      · cases hstep
      · cases hstep
        have hchecked := h.checked
        refine h.of_counters _ _ _ _ fun sub hsub => ?_
        unfold SubmissionChecked at hchecked
        rcases hsub with hsub | hsub <;> simpa only [hsub] using hchecked

/-- Every reachable state satisfies the invariant. -/
theorem waiterInv_reachable {s : State} (h : Reachable cfg s) :
    WaiterInv cfg s :=
  h.invariant waiterInv_init fun _ _ _ hinv _ hstep =>
    waiterInv_step hinv hstep

end AowisMap.Server
