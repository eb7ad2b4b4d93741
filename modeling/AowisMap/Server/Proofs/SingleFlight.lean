/-
Single-flight accounting: what every interleaving of submissions,
worker stages, completion callbacks and socket notifications keeps, and
what one step may do to a promise.

The state results are read off `WaiterInv`. The step results come from
one inversion of the transition function (`completions_step`): a step
only appends completions, it appends none while it issues a promise,
and each completion is either an abandonment by a socket notification
or carries the result of the job whose callback ran. With the
conservation law on both ends of the step, a promise is completed
exactly when it leaves its registry.
-/
import AowisMap.Server.Proofs.Waiters

namespace AowisMap.Server

open Lib Terrain

variable {cfg : Config}

-- ============================================= what a step completes

/-- Why a promise was completed in a step: its client went away, or the
callback of a job for the promise's own flight ran and delivered what
that job captured. -/
inductive CompletedBy (a : Action) (s : State) (c : Completion) : Prop
  | abandoned (client : String) (socket : Socket) :
      a = .socketGone client socket → c.job = none →
      c.response = httpClientDisconnected → CompletedBy a s c
  | delivered (token : Token) (job : Job) (result : JobResult) :
      a = .callback token → c.job = some token →
      s.jobs.lookup token = some job → job.stage = .callback result →
      s.cancellations job.registry job.key = some token →
      c.response = result.response →
      s.flightOf c.promise = some (job.registry, job.key) →
      CompletedBy a s c

/-- `abandonTerrainWaiters` appends abandonments and issues nothing. -/
theorem abandonTerrainWaiters_completed (socket : Socket) (s : State) :
    ∃ gone, (abandonTerrainWaiters socket s).completed
        = s.completed ++ gone ∧
      (abandonTerrainWaiters socket s).nextPromise = s.nextPromise ∧
      ∀ c ∈ gone, c.job = none ∧ c.response = httpClientDisconnected := by
  have hfold : ∀ (rs : List Registry) (s₁ : State), ∃ gone,
      (rs.foldl (abandonRegistry socket) s₁).completed
          = s₁.completed ++ gone ∧
        (rs.foldl (abandonRegistry socket) s₁).nextPromise
          = s₁.nextPromise ∧
        ∀ c ∈ gone, c.job = none ∧ c.response = httpClientDisconnected := by
    intro rs
    induction rs with
    | nil =>
        intro s₁
        exact ⟨[], (List.append_nil _).symm, rfl, by simp⟩
    | cons r rs ih =>
        intro s₁
        obtain ⟨gone, hgone, hnext, hwhy⟩ := ih (abandonRegistry socket s₁ r)
        refine ⟨(goneFrom s₁ socket r).map
            (fun p => ⟨p, httpClientDisconnected, none⟩) ++ gone, ?_, hnext,
          ?_⟩
        · rw [List.foldl_cons, hgone, ← List.append_assoc]
          rfl
        · intro c hc
          rcases List.mem_append.1 hc with hc | hc
          · obtain ⟨p, -, rfl⟩ := List.mem_map.1 hc
            exact ⟨rfl, rfl⟩
          · exact hwhy c hc
  exact hfold _ s

/-- Admission issues at most one promise and completes none. -/
theorem admitNext_completed {s s' : State}
    (h : admitNext cfg s = some s') :
    s'.completed = s.completed ∧ s.nextPromise ≤ s'.nextPromise := by
  unfold admitNext at h
  split at h
  · cases h
  · split at h
    · split at h
      · cases h
        exact ⟨rfl, Nat.le_refl _⟩
      · cases h
        exact ⟨rfl, Nat.le_refl _⟩
    · cases h
      exact ⟨rfl, Nat.le_refl _⟩
  · split at h
    · rename_i sub _ _ outstanding _
      cases h
      obtain ⟨sockets, heq⟩ := appendWaiter_eq sub
        { s with terrainAdmission := outstanding, http := .idle }
      rw [heq]
      exact ⟨rfl, Nat.le_succ _⟩
    · cases h
      exact ⟨rfl, Nat.le_refl _⟩
  · cases h
    exact ⟨rfl, Nat.le_refl _⟩
  · cases h
    exact ⟨rfl, Nat.le_refl _⟩

/-- The head of a submission issues at most one promise and completes
none. -/
theorem submit_completed (sub : Submission) (s : State) :
    (submit cfg sub s).completed = s.completed ∧
      s.nextPromise ≤ (submit cfg sub s).nextPromise := by
  unfold submit
  split
  · exact ⟨rfl, Nat.le_refl _⟩
  · split
    · obtain ⟨sockets, heq⟩ := appendWaiter_eq sub s
      rw [heq]
      exact ⟨rfl, Nat.le_succ _⟩
    · split
      · split
        · exact ⟨rfl, Nat.le_refl _⟩
        · exact ⟨rfl, Nat.le_refl _⟩
      · exact ⟨rfl, Nat.le_refl _⟩
      · exact ⟨rfl, Nat.le_refl _⟩

/-- The completions of one step: they are appended, none while a promise
is issued, and each has its reason. -/
theorem completions_step {a : Action} {s s' : State} (hinv : WaiterInv cfg s)
    (hstep : apply cfg a s = some s') : ∃ done,
      s'.completed = s.completed ++ done ∧
      s.nextPromise ≤ s'.nextPromise ∧
      (done = [] ∨ s'.nextPromise = s.nextPromise) ∧
      ∀ c ∈ done, CompletedBy a s c := by
  -- the steps that leave the completions alone
  have hquiet : s'.completed = s.completed ∧
      s.nextPromise ≤ s'.nextPromise → ∃ done,
      s'.completed = s.completed ++ done ∧
      s.nextPromise ≤ s'.nextPromise ∧
      (done = [] ∨ s'.nextPromise = s.nextPromise) ∧
      ∀ c ∈ done, CompletedBy a s c := by
    rintro ⟨hsame, hle⟩
    exact ⟨[], by rw [hsame, List.append_nil], hle, Or.inl rfl, by simp⟩
  cases a with
  | accept client socket =>
      obtain ⟨-, heq⟩ := onIdle_inv hstep
      cases heq
      exact hquiet ⟨rfl, Nat.le_refl _⟩
  | submit sub =>
      obtain ⟨-, heq⟩ := onIdle_inv hstep
      cases heq
      exact hquiet (submit_completed sub s)
  | submitTerrainJob =>
      obtain ⟨-, heq⟩ := onIdle_inv hstep
      cases heq
      refine hquiet ?_
      unfold submitTerrainJob
      split
      · exact ⟨rfl, Nat.le_refl _⟩
      · exact ⟨rfl, Nat.le_refl _⟩
  | admitNext => exact hquiet (admitNext_completed hstep)
  | callback token =>
      obtain ⟨-, heq⟩ := onIdle_inv hstep
      obtain ⟨job, result, hjob, hstage, ⟨-, rfl⟩ | ⟨hcur, rfl⟩⟩ :=
        completionCallback_inv heq
      · exact hquiet ⟨rfl, Nat.le_refl _⟩
      · refine ⟨_, rfl, Nat.le_refl _, Or.inr rfl, ?_⟩
        intro c hc
        obtain ⟨p, hp, rfl⟩ := List.mem_map.1 hc
        exact .delivered token job result rfl rfl hjob hstage hcur rfl
          (hinv.promises.waitersOf_flight hp)
  | socketGone client socket =>
      obtain ⟨-, heq⟩ := onIdle_inv hstep
      cases heq
      obtain ⟨gone, hgone, hnext, hwhy⟩ :=
        abandonTerrainWaiters_completed socket { s with
          terrainClientSockets :=
            if s.terrainClientSockets client = some socket then
              Function.update s.terrainClientSockets client none
            else s.terrainClientSockets }
      refine ⟨gone, hgone, hnext.ge, Or.inr hnext, ?_⟩
      intro c hc
      exact .abandoned client socket rfl (hwhy c hc).1 (hwhy c hc).2
  | worker token acquired processed =>
      obtain ⟨job, stage, admission, remote, -, rfl⟩ := worker_frame hstep
      exact hquiet ⟨rfl, Nat.le_refl _⟩
  | plainJobEnds =>
      replace hstep : plainJobEnds s = some s' := hstep
      unfold plainJobEnds at hstep
      split at hstep
      · cases hstep
      · cases hstep
        exact hquiet ⟨rfl, Nat.le_refl _⟩

-- ================================================== the law, per promise

/-- Every issued promise waits or was completed, once in total. -/
theorem WaiterInv.once {s : State} (h : WaiterInv cfg s) (p : Promise) :
    timesWaiting s p + timesCompleted s p
      = if p < s.nextPromise then 1 else 0 := by
  have hlaw := h.promises.conserved fun q => if q = p then 1 else 0
  rw [waitingWeight_indicator, completedWeight_indicator,
    issuedWeight_indicator] at hlaw
  exact hlaw

/-- What was completed at the end of a step. -/
theorem timesCompleted_append {s s' : State} {done : List Completion}
    (h : s'.completed = s.completed ++ done) (p : Promise) :
    timesCompleted s' p
      = timesCompleted s p + (done.map (·.promise)).count p := by
  unfold timesCompleted
  rw [h, List.map_append, List.count_append]

/-- A promise leaves its registry in a step exactly when the step
completes it. -/
theorem leaves_iff_completed {s s' : State}
    (hs : WaiterInv cfg s) (hs' : WaiterInv cfg s')
    {done : List Completion} (hdone : s'.completed = s.completed ++ done)
    (hle : s.nextPromise ≤ s'.nextPromise)
    (hissue : done = [] ∨ s'.nextPromise = s.nextPromise) (p : Promise) :
    timesWaiting s p = 1 ∧ timesWaiting s' p = 0
      ↔ ∃ c ∈ done, c.promise = p := by
  have hbefore := hs.once p
  have hafter := hs'.once p
  have hcount := timesCompleted_append hdone p
  have hmem : (∃ c ∈ done, c.promise = p)
      ↔ 0 < (done.map (·.promise)).count p := by
    rw [List.count_pos_iff, List.mem_map]
  rw [hmem]
  by_cases hold : p < s.nextPromise
  · rw [if_pos hold] at hbefore
    rw [if_pos (Nat.lt_of_lt_of_le hold hle)] at hafter
    constructor
    · rintro ⟨hw, hw'⟩
      omega
    · intro hpos
      omega
  · rw [if_neg hold] at hbefore
    constructor
    · rintro ⟨hw, -⟩
      omega
    · intro hpos
      rcases hissue with rfl | hsame
      · simp at hpos
      · rw [hsame, if_neg hold] at hafter
        omega

-- ========================================================= main result

/-- Single-flight waiter accounting, in every reachable state and across
every step from it. -/
theorem waiters_accounted {s : State} (hs : Reachable cfg s) :
    -- the counter is the number of waiters, within the limit
    (s.pendingTerrainTileCount = waiterTotal s ∧
      s.pendingTerrainTileCount ≤ cfg.maximumPendingRequests) ∧
    -- every key has waiters and one token, of a job for that key that
    -- has not run its callback and is registered nowhere else
    (∀ r k, k ∈ s.pendingTerrain r →
      (∃ ps, (s.pendingTerrain r).lookup k = some ps ∧ ps ≠ []) ∧
      ∃ t, s.cancellations r k = some t ∧
        (∃ job, s.jobs.lookup t = some job ∧ job.registry = r ∧
          job.key = k) ∧
        ∀ r' k', s.cancellations r' k' = some t → r' = r ∧ k' = k) ∧
    -- no token is registered without its key
    (∀ r k, k ∉ s.pendingTerrain r → s.cancellations r k = none) ∧
    -- every issued promise waits or was completed, once in total
    (∀ p, timesWaiting s p + timesCompleted s p
      = if p < s.nextPromise then 1 else 0) ∧
    -- a step completes exactly the promises that leave their registry,
    -- each as abandoned or by a job for its own flight
    (∀ a s', apply cfg a s = some s' → ∃ done,
      s'.completed = s.completed ++ done ∧
      (∀ p, timesWaiting s p = 1 ∧ timesWaiting s' p = 0
        ↔ ∃ c ∈ done, c.promise = p) ∧
      ∀ c ∈ done, CompletedBy a s c) ∧
    -- a superseded callback changes no waiter and no waiter count
    (∀ token job, s.jobs.lookup token = some job →
      s.cancellations job.registry job.key ≠ some token →
      ∀ s', apply cfg (.callback token) s = some s' →
        s'.pendingTerrain = s.pendingTerrain ∧
        s'.pendingTerrainTileCount = s.pendingTerrainTileCount ∧
        s'.cancellations = s.cancellations ∧
        s'.terrainWaiterSockets = s.terrainWaiterSockets ∧
        s'.completed = s.completed) := by
  have hinv := waiterInv_reachable hs
  refine ⟨⟨?_, hinv.promises.bounded⟩, ?_, ?_, hinv.once, ?_, ?_⟩
  · rw [← waitingWeight_one]
    exact hinv.promises.count
  · intro r k hk
    obtain ⟨ps, hps⟩ := Option.isSome_iff_exists.1
      (AList.lookup_isSome.2 hk)
    obtain ⟨t, ht⟩ := (hinv.tokens.registered r k).1 hk
    have hown := hinv.tokens.owned r k t ht
    refine ⟨⟨ps, hps, hinv.promises.nonempty r k ps hps⟩, t, ht, ?_, ?_⟩
    · obtain ⟨job, hjob, hflight⟩ := Option.map_eq_some_iff.1 hown
      cases hflight
      exact ⟨job, hjob, rfl, rfl⟩
    · intro r' k' ht'
      have hown' := hinv.tokens.owned r' k' t ht'
      rw [hown] at hown'
      cases hown'
      exact ⟨rfl, rfl⟩
  · intro r k hk
    cases hc : s.cancellations r k with
    | none => rfl
    | some t => exact absurd ((hinv.tokens.registered r k).2 ⟨t, hc⟩) hk
  · intro a s' hstep
    obtain ⟨done, hdone, hle, hissue, hwhy⟩ := completions_step hinv hstep
    exact ⟨done, hdone,
      leaves_iff_completed hinv (waiterInv_step hinv hstep) hdone hle hissue,
      hwhy⟩
  · intro token job hjob hstale s' hstep
    obtain ⟨-, heq⟩ := onIdle_inv hstep
    obtain ⟨job', result, hjob', -, hcase⟩ := completionCallback_inv heq
    rw [hjob] at hjob'
    cases hjob'
    rcases hcase with ⟨-, rfl⟩ | ⟨hcur, -⟩
    · exact ⟨rfl, rfl, rfl, rfl, rfl⟩
    · exact absurd hcur hstale

/-- A client asks for a tile and disconnects while its job runs; another
client asks again, and the callback of the first job finds a new token.
-/
def resubmission : List Action :=
  let tile := submitTerrainTile "copernicus" 14 8000 5000 false
  [ .accept "first" 1, .accept "second" 2,
    .submit (tile (some "first")), .admitNext, .admitNext,
    .socketGone "first" 1,
    .submit (tile (some "second")), .admitNext, .admitNext,
    .worker 0 none .threw, .worker 0 none .threw, .callback 0 ]

/-- The first promise waits no more, and the second one does. -/
theorem waiters_accounted_resubmission :
    ∃ s, runActions (apply {}) resubmission State.init = some s ∧
      waiterTotal s = 1 ∧ timesWaiting s 0 = 0 ∧ timesWaiting s 1 = 1 := by
  have hrun : (runActions (apply {}) resubmission State.init).map
      (fun s => (s.pendingTerrainTileCount, s.nextPromise,
        timesCompleted s 0, timesCompleted s 1)) = some (1, 2, 1, 0) := by
    decide +kernel
  obtain ⟨s, hs, hval⟩ := Option.map_eq_some_iff.1 hrun
  simp only [Prod.mk.injEq] at hval
  obtain ⟨hcount, -, -, honce, -⟩ :=
    waiters_accounted (run_of_runActions hs)
  have h0 := honce 0
  have h1 := honce 1
  have htotal := hcount.1
  rw [hval.2.1] at h0 h1
  refine ⟨s, hs, ?_, ?_, ?_⟩
  · omega
  · rw [hval.2.2.1, if_pos (by decide)] at h0
    omega
  · rw [hval.2.2.2, if_pos (by decide)] at h1
    omega

end AowisMap.Server
