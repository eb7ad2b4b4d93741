/-
Conservation of terrain admission.

# Three ledgers

Each counter equals a total over the live jobs plus what the rest of the
server holds: the overall counter adds the plain jobs, and the other two
add what the submission in progress has reserved for a job it has not
started yet. The measures say which stages hold what:

- the overall slot, until the completion callback is posted;
- the remote slot, until the acquisition ended;
- the grid bytes, until the completion callback ran, whatever registry
  entry the callback finds.

Every transition moves a reservation between these columns, takes one
where the limit allows it, or gives one back with the job that held it,
so a counter never differs from its column and never becomes negative.
-/
import AowisMap.Server.Proofs.Waiters

namespace AowisMap.Server

open Lib Terrain

variable {cfg : Config}

-- ============================================== who holds a reservation

/-- A job holds its overall slot until it posts its callback. -/
def holdsAdmission (job : Job) : Nat :=
  match job.stage with
  | .remote | .handoff _ | .cpu | .processing _ => 1
  | .callback _ => 0

/-- A remote job holds its remote slot until its acquisition ended. -/
def holdsRemote (job : Job) : Nat :=
  match job.stage with
  | .remote => 1
  | .handoff _ | .cpu | .processing _ | .callback _ => 0

/-- The remote slot a submission in progress holds. -/
def remoteInHand : HttpThread → Nat
  | .overallNext sub | .releaseRemote sub => if sub.remoteJob then 1 else 0
  | .idle | .remoteNext _ | .releaseBytes _ => 0

/-- The grid bytes a submission in progress holds. -/
def bytesInHand : HttpThread → Nat
  | .remoteNext sub | .overallNext sub | .releaseRemote sub
  | .releaseBytes sub => sub.estimatedBytes
  | .idle => 0

/-- The jobs that have not ended, plain ones included. -/
def jobsNotEnded (s : State) : Nat :=
  QHash.total (fun _ job => holdsAdmission job) s.jobs + s.plainJobs

/-- The remote jobs before the end of their acquisition. -/
def jobsAcquiring (s : State) : Nat :=
  QHash.total (fun _ job => holdsRemote job) s.jobs

/-- The bytes of the grid jobs whose callback has not run. -/
def gridJobBytes (s : State) : Nat :=
  QHash.total (fun _ job => job.bytes) s.jobs

/-- The three ledgers balance, within their limits. -/
structure AdmissionInv (cfg : Config) (s : State) : Prop where
  overall : s.terrainAdmission = jobsNotEnded s
  overallBound : s.terrainAdmission ≤ cfg.terrainLimit
  remote : s.terrainRemoteAdmission = jobsAcquiring s + remoteInHand s.http
  remoteBound : s.terrainRemoteAdmission ≤ cfg.remoteLimit
  bytes : s.terrainGridBytes = gridJobBytes s + bytesInHand s.http
  bytesBound : s.terrainGridBytes ≤ gridByteLimit
  /-- Only a remote submission gives a remote slot back. -/
  rollback : ∀ sub, s.http = .releaseRemote sub → sub.remoteJob = true

theorem admissionInv_init : AdmissionInv cfg State.init where
  overall := rfl
  overallBound := Int.natCast_nonneg _
  remote := rfl
  remoteBound := Int.natCast_nonneg _
  bytes := rfl
  bytesBound := Int.natCast_nonneg _
  rollback sub h := by cases h

-- ======================================================== the counters

/-- An acquired slot was free. -/
theorem tryAcquire_inv {limit : Nat} {outstanding outstanding' : Int}
    (h : TerrainAdmission.tryAcquire limit outstanding = some outstanding') :
    outstanding' = outstanding + 1 ∧ outstanding' ≤ limit := by
  unfold TerrainAdmission.tryAcquire at h
  split at h
  · cases h
    exact ⟨rfl, by omega⟩
  · cases h

/-- A release does not raise a counter. -/
theorem release_le (outstanding : Int) :
    TerrainAdmission.release outstanding ≤ outstanding := by
  unfold TerrainAdmission.release
  omega

/-- Reserved bytes were free. -/
theorem tryAcquireBytes_inv {limit bytes : Nat} {reserved reserved' : Int}
    (h : TerrainByteAdmission.tryAcquire limit bytes reserved
      = some reserved') :
    reserved' = reserved + bytes ∧ reserved' ≤ limit := by
  unfold TerrainByteAdmission.tryAcquire at h
  split at h
  · cases h
  · split at h
    · cases h
      exact ⟨rfl, by omega⟩
    · cases h

-- ===================================================== steps of a job

/-- Moving a job to another stage exchanges what it holds. -/
theorem total_setStage (f : Job → Nat) {s : State} {token : Token}
    {job : Job} (hjob : s.jobs.lookup token = some job) (stage : Stage) :
    QHash.total (fun _ j => f j)
        (s.jobs.insert token { job with stage := stage }) + f job
      = QHash.total (fun _ j => f j) s.jobs + f { job with stage := stage } := by
  have hins := QHash.total_insert (fun _ j => f j) token
    { job with stage := stage } s.jobs
  rw [QHash.measureAt_some hjob] at hins
  exact hins

/-- A job that ended takes what it held with it. -/
theorem total_callbackEnds (f : Job → Nat) {s : State} {token : Token}
    {job : Job} (hjob : s.jobs.lookup token = some job) :
    QHash.total (fun _ j => f j) (s.jobs.erase token) + f job
      = QHash.total (fun _ j => f j) s.jobs := by
  have herase := QHash.total_erase (fun _ j => f j) token s.jobs
  rw [QHash.measureAt_some hjob] at herase
  exact herase.symm

/-- What a worker step does to a job and to the two slot counters. -/
theorem worker_ledger {s s' : State} {token : Token}
    {acquired : Option TerrainProviderFetchResult} {processed : Processed}
    (h : worker token acquired processed s = some s') :
    ∃ job stage admission remote, s.jobs.lookup token = some job ∧
      s' = { s with
        jobs := s.jobs.insert token { job with stage := stage }
        terrainAdmission := admission
        terrainRemoteAdmission := remote } ∧
      s.terrainAdmission + holdsAdmission { job with stage := stage }
        = admission + holdsAdmission job ∧
      s.terrainRemoteAdmission + holdsRemote { job with stage := stage }
        = remote + holdsRemote job ∧
      admission ≤ s.terrainAdmission ∧
      remote ≤ s.terrainRemoteAdmission := by
  unfold worker at h
  cases hjob : s.jobs.lookup token with
  | none =>
      rw [hjob] at h
      cases h
  | some job =>
      rw [hjob] at h
      cases hstage : job.stage with
      | remote =>
          simp only [hstage] at h
          cases h
          refine ⟨job, _, s.terrainAdmission, _, rfl, rfl, ?_, ?_,
            Int.le_refl _, ?_⟩
          · simp only [holdsAdmission, hstage]
          · simp only [holdsRemote, hstage, TerrainAdmission.release]
            omega
          · exact release_le _
      | handoff a =>
          simp only [hstage] at h
          split at h
          · cases h
            refine ⟨job, _, s.terrainAdmission, s.terrainRemoteAdmission,
              rfl, rfl, ?_, ?_, Int.le_refl _, Int.le_refl _⟩
            · simp only [holdsAdmission, hstage]
            · simp only [holdsRemote, hstage]
          · cases h
            refine ⟨job, _, _, s.terrainRemoteAdmission, rfl, rfl, ?_, ?_,
              ?_, Int.le_refl _⟩
            · simp only [holdsAdmission, hstage, TerrainAdmission.release]
              omega
            · simp only [holdsRemote, hstage]
            · exact release_le _
      | cpu =>
          simp only [hstage] at h
          cases h
          refine ⟨job, _, s.terrainAdmission, s.terrainRemoteAdmission,
            rfl, rfl, ?_, ?_, Int.le_refl _, Int.le_refl _⟩
          · simp only [holdsAdmission, hstage]
          · simp only [holdsRemote, hstage]
      | processing skipped =>
          simp only [hstage] at h
          obtain ⟨result, -, rfl⟩ := Option.map_eq_some_iff.1 h
          refine ⟨job, _, _, s.terrainRemoteAdmission, rfl, rfl, ?_, ?_, ?_,
            Int.le_refl _⟩
          · simp only [holdsAdmission, hstage, TerrainAdmission.release]
            omega
          · simp only [holdsRemote, hstage]
          · exact release_le _
      | callback result =>
          simp only [hstage] at h
          cases h

/-- Worker steps balance the ledgers. -/
theorem admissionInv_worker {s s' : State} {token : Token}
    {acquired : Option TerrainProviderFetchResult} {processed : Processed}
    (h : AdmissionInv cfg s)
    (hstep : worker token acquired processed s = some s') :
    AdmissionInv cfg s' := by
  obtain ⟨job, stage, admission, remote, hjob, rfl, hadm, hrem, hadmLe,
    hremLe⟩ := worker_ledger hstep
  have hA := total_setStage holdsAdmission hjob stage
  have hR := total_setStage holdsRemote hjob stage
  have hB := total_setStage Job.bytes hjob stage
  have hover := h.overall
  have hremote := h.remote
  have hbytes := h.bytes
  have hob := h.overallBound
  have hrb := h.remoteBound
  unfold jobsNotEnded at hover
  unfold jobsAcquiring at hremote
  unfold gridJobBytes at hbytes
  have hsame : Job.bytes { job with stage := stage } = Job.bytes job := rfl
  refine ⟨?_, Int.le_trans hadmLe hob, ?_, Int.le_trans hremLe hrb, ?_,
    h.bytesBound, h.rollback⟩
  · show admission = ((QHash.total (fun _ j => holdsAdmission j)
      (s.jobs.insert token _) + s.plainJobs : Nat) : Int)
    omega
  · show remote = ((QHash.total (fun _ j => holdsRemote j)
      (s.jobs.insert token _) : Nat) : Int) + remoteInHand s.http
    omega
  · show s.terrainGridBytes = ((QHash.total (fun _ j => Job.bytes j)
      (s.jobs.insert token _) : Nat) : Int) + bytesInHand s.http
    omega

-- ========================================= steps of the HTTP thread

/-- The ledgers read the counters, the jobs and the submission in
progress only. -/
theorem AdmissionInv.of_frame {s s' : State} (h : AdmissionInv cfg s)
    (hadmission : s'.terrainAdmission = s.terrainAdmission)
    (hremote : s'.terrainRemoteAdmission = s.terrainRemoteAdmission)
    (hbytes : s'.terrainGridBytes = s.terrainGridBytes)
    (hjobs : s'.jobs = s.jobs) (hplain : s'.plainJobs = s.plainJobs)
    (hhttp : s'.http = s.http) : AdmissionInv cfg s' where
  overall := by
    unfold jobsNotEnded
    rw [hadmission, hjobs, hplain]
    exact h.overall
  overallBound := hadmission ▸ h.overallBound
  remote := by
    unfold jobsAcquiring
    rw [hremote, hjobs, hhttp]
    exact h.remote
  remoteBound := hremote ▸ h.remoteBound
  bytes := by
    unfold gridJobBytes
    rw [hbytes, hjobs, hhttp]
    exact h.bytes
  bytesBound := hbytes ▸ h.bytesBound
  rollback := hhttp ▸ h.rollback

/-- Issuing a promise is off the ledgers. -/
theorem admissionInv_appendWaiter {s : State} (h : AdmissionInv cfg s)
    (sub : Submission) : AdmissionInv cfg (appendWaiter sub s) := by
  obtain ⟨sockets, heq⟩ := appendWaiter_eq sub s
  rw [heq]
  exact h.of_frame rfl rfl rfl rfl rfl rfl

/-- A submission that holds no remote slot, refused: what it still holds
is its grid bytes. -/
theorem inHand_afterRemoteReleased (sub : Submission) :
    remoteInHand (afterRemoteReleased sub) = 0 ∧
      bytesInHand (afterRemoteReleased sub) = sub.estimatedBytes ∧
      ∀ sub', afterRemoteReleased sub ≠ .releaseRemote sub' := by
  unfold afterRemoteReleased Submission.estimatedBytes
  cases hr : sub.registry with
  | tiles => exact ⟨rfl, rfl, by simp⟩
  | elevations => exact ⟨rfl, rfl, by simp⟩
  | grids =>
      refine ⟨rfl, ?_, by simp⟩
      simp only [bytesInHand, Submission.estimatedBytes, hr]

/-- Only the grid endpoint reserves bytes. -/
theorem estimatedBytes_of_ne_grids {sub : Submission}
    (h : sub.registry ≠ .grids) : sub.estimatedBytes = 0 := by
  unfold Submission.estimatedBytes
  cases hr : sub.registry with
  | tiles => rfl
  | elevations => rfl
  | grids => exact absurd hr h

/-- Moving between the steps of a submission: the ledgers balance when
the two amounts in hand move with their counters. -/
theorem AdmissionInv.of_http {s : State} (h : AdmissionInv cfg s)
    {remote bytes : Int} {http : HttpThread}
    (hremote : remote + remoteInHand s.http
      = s.terrainRemoteAdmission + remoteInHand http)
    (hremoteBound : remote ≤ cfg.remoteLimit)
    (hbytes : bytes + bytesInHand s.http
      = s.terrainGridBytes + bytesInHand http)
    (hbytesBound : bytes ≤ gridByteLimit)
    (hrollback : ∀ sub, http = .releaseRemote sub → sub.remoteJob = true) :
    AdmissionInv cfg { s with
      terrainRemoteAdmission := remote
      terrainGridBytes := bytes
      http := http } := by
  have hR := h.remote
  have hB := h.bytes
  refine ⟨h.overall, h.overallBound, ?_, hremoteBound, ?_, hbytesBound,
    hrollback⟩
  · show remote = (jobsAcquiring s : Int) + remoteInHand http
    omega
  · show bytes = (gridJobBytes s : Int) + bytesInHand http
    omega

/-- The head of a submission. -/
theorem admissionInv_submit {s : State} (h : AdmissionInv cfg s)
    (hidle : s.http = .idle) (sub : Submission) :
    AdmissionInv cfg (submit cfg sub s) := by
  unfold submit
  split
  · exact h
  · split
    · exact admissionInv_appendWaiter h sub
    · -- only a grid has bytes to reserve
      have hstart : sub.registry ≠ .grids →
          AdmissionInv cfg { s with http := .remoteNext sub } := by
        intro hne
        have hzero := estimatedBytes_of_ne_grids hne
        refine h.of_http ?_ h.remoteBound ?_ h.bytesBound (by simp)
        · simp only [hidle, remoteInHand]
        · simp only [hidle, bytesInHand, hzero]
      split
      · split
        · rename_i reserved hacq
          obtain ⟨hval, hle⟩ := tryAcquireBytes_inv hacq
          refine h.of_http ?_ h.remoteBound ?_ hle (by simp)
          · simp only [hidle, remoteInHand]
          · simp only [hidle, bytesInHand, hval]
            omega
        · exact h
      · rename_i hr
        exact hstart (by rw [hr]; simp)
      · rename_i hr
        exact hstart (by rw [hr]; simp)

/-- Starting a job hands it the reservations of its submission. -/
theorem admissionInv_launch {s : State} {sub : Submission}
    (h : AdmissionInv cfg s) (hfresh : s.jobs.lookup s.nextToken = none)
    (hhttp : s.http = .overallNext sub) {outstanding : Int}
    (hacq : outstanding = s.terrainAdmission + 1)
    (hle : outstanding ≤ cfg.terrainLimit) :
    AdmissionInv cfg (launchJob sub (appendWaiter sub
      { s with terrainAdmission := outstanding, http := .idle })) := by
  have hins := fun f : Job → Nat => QHash.total_insert (fun _ j => f j)
    s.nextToken
    { submission := sub
      stage := if sub.remoteJob then .remote else .cpu } s.jobs
  simp only [QHash.measureAt_none hfresh, Nat.add_zero] at hins
  have hover := h.overall
  have hremote := h.remote
  have hbytes := h.bytes
  unfold jobsNotEnded at hover
  unfold jobsAcquiring at hremote
  unfold gridJobBytes at hbytes
  rw [hhttp] at hremote hbytes
  obtain ⟨sockets, heq⟩ := appendWaiter_eq sub
    { s with terrainAdmission := outstanding, http := .idle }
  rw [heq]
  refine ⟨?_, hle, ?_, h.remoteBound, ?_, h.bytesBound, by
    intro sub' hsub
    cases hsub⟩
  · have hone : holdsAdmission { submission := sub
                                 stage := if sub.remoteJob then .remote
                                          else .cpu } = 1 := by
      unfold holdsAdmission
      cases sub.remoteJob <;> rfl
    have := hins holdsAdmission
    show outstanding = ((QHash.total (fun _ j => holdsAdmission j)
      (s.jobs.insert s.nextToken _) + s.plainJobs : Nat) : Int)
    omega
  · have hslot : holdsRemote { submission := sub
                               stage := if sub.remoteJob then .remote
                                        else .cpu }
        = remoteInHand (.overallNext sub) := by
      cases hr : sub.remoteJob <;> simp [holdsRemote, remoteInHand, hr]
    have := hins holdsRemote
    show s.terrainRemoteAdmission
      = ((QHash.total (fun _ j => holdsRemote j)
        (s.jobs.insert s.nextToken _) : Nat) : Int)
        + ((remoteInHand .idle : Nat) : Int)
    have hidle : remoteInHand .idle = 0 := rfl
    omega
  · have hmine : bytesInHand (.overallNext sub) = sub.estimatedBytes := rfl
    have hidle : bytesInHand .idle = 0 := rfl
    have hjobBytes : ∀ stage, Job.bytes ⟨sub, stage⟩ = sub.estimatedBytes :=
      fun _ => rfl
    have hshare := hins Job.bytes
    rw [hjobBytes] at hshare
    show s.terrainGridBytes = ((QHash.total (fun _ j => Job.bytes j)
      (s.jobs.insert s.nextToken _) : Nat) : Int)
      + ((bytesInHand .idle : Nat) : Int)
    omega

/-- Every atomic operation of a submission: acquiring, handing over and
rolling back. -/
theorem admissionInv_admitNext {s s' : State} (h : AdmissionInv cfg s)
    (hfresh : s.jobs.lookup s.nextToken = none)
    (hstep : admitNext cfg s = some s') : AdmissionInv cfg s' := by
  unfold admitNext at hstep
  cases hhttp : s.http with
  | idle =>
      simp only [hhttp] at hstep
      cases hstep
  | remoteNext sub =>
      obtain ⟨hnoRemote, hbytes, hnotRelease⟩ :=
        inHand_afterRemoteReleased sub
      simp only [hhttp] at hstep
      split at hstep
      · rename_i hremoteJob
        split at hstep
        · rename_i outstanding hacq
          cases hstep
          obtain ⟨hval, hle⟩ := tryAcquire_inv hacq
          refine h.of_http ?_ hle ?_ h.bytesBound (by simp)
          · simp only [hhttp, remoteInHand, hremoteJob, if_true, hval]
            omega
          · simp only [hhttp, bytesInHand]
        · cases hstep
          refine h.of_http ?_ h.remoteBound ?_ h.bytesBound
            fun sub' hsub => absurd hsub (hnotRelease sub')
          · rw [hhttp, hnoRemote]
            rfl
          · rw [hhttp, hbytes]
            rfl
      · rename_i hremoteJob
        cases hstep
        refine h.of_http ?_ h.remoteBound ?_ h.bytesBound (by simp)
        · simp only [hhttp, remoteInHand, hremoteJob]
          rfl
        · simp only [hhttp, bytesInHand]
  | overallNext sub =>
      obtain ⟨hnoRemote, hbytes, hnotRelease⟩ :=
        inHand_afterRemoteReleased sub
      simp only [hhttp] at hstep
      split at hstep
      · rename_i outstanding hacq
        cases hstep
        obtain ⟨hval, hle⟩ := tryAcquire_inv hacq
        exact admissionInv_launch h hfresh hhttp hval hle
      · cases hstep
        by_cases hremoteJob : sub.remoteJob
        · rw [if_pos hremoteJob]
          refine h.of_http ?_ h.remoteBound ?_ h.bytesBound ?_
          · simp only [hhttp, remoteInHand]
          · simp only [hhttp, bytesInHand]
          · intro sub' hsub
            cases hsub
            exact hremoteJob
        · rw [if_neg hremoteJob]
          refine h.of_http ?_ h.remoteBound ?_ h.bytesBound
            fun sub' hsub => absurd hsub (hnotRelease sub')
          · rw [hhttp, hnoRemote]
            simp only [remoteInHand, hremoteJob]
            rfl
          · rw [hhttp, hbytes]
            rfl
  | releaseRemote sub =>
      obtain ⟨hnoRemote, hbytes, hnotRelease⟩ :=
        inHand_afterRemoteReleased sub
      have hremoteJob := h.rollback sub hhttp
      simp only [hhttp] at hstep
      cases hstep
      refine h.of_http ?_ (Int.le_trans (release_le _) h.remoteBound) ?_
        h.bytesBound fun sub' hsub => absurd hsub (hnotRelease sub')
      · rw [hhttp, hnoRemote]
        simp only [remoteInHand, hremoteJob, if_true,
          TerrainAdmission.release]
        omega
      · rw [hhttp, hbytes]
        rfl
  | releaseBytes sub =>
      simp only [hhttp] at hstep
      cases hstep
      refine h.of_http ?_ h.remoteBound ?_ ?_ (by simp)
      · simp only [hhttp, remoteInHand]
      · simp only [hhttp, bytesInHand, TerrainByteAdmission.release]
        omega
      · have := h.bytesBound
        unfold TerrainByteAdmission.release
        omega

/-- A callback gives its job's bytes back, superseded or not. -/
theorem admissionInv_callback {s s' : State} {token : Token}
    (h : AdmissionInv cfg s)
    (hstep : completionCallback token s = some s') :
    AdmissionInv cfg s' := by
  obtain ⟨job, result, hjob, hstage, hcase⟩ := completionCallback_inv hstep
  -- the ledgers of the two cases are the same
  have hends : AdmissionInv cfg (callbackEnds token job s) := by
    have hA := total_callbackEnds holdsAdmission hjob
    have hR := total_callbackEnds holdsRemote hjob
    have hB := total_callbackEnds Job.bytes hjob
    have hnoSlot : holdsAdmission job = 0 := by
      simp only [holdsAdmission, hstage]
    have hnoRemote : holdsRemote job = 0 := by
      simp only [holdsRemote, hstage]
    have hover := h.overall
    have hremote := h.remote
    have hbytes := h.bytes
    have hbb := h.bytesBound
    unfold jobsNotEnded at hover
    unfold jobsAcquiring at hremote
    unfold gridJobBytes at hbytes
    refine ⟨?_, h.overallBound, ?_, h.remoteBound, ?_, ?_, h.rollback⟩
    · show s.terrainAdmission = ((QHash.total (fun _ j => holdsAdmission j)
        (s.jobs.erase token) + s.plainJobs : Nat) : Int)
      omega
    · show s.terrainRemoteAdmission
        = ((QHash.total (fun _ j => holdsRemote j) (s.jobs.erase token)
          : Nat) : Int) + remoteInHand s.http
      omega
    · show s.terrainGridBytes - (job.bytes : Int)
        = ((QHash.total (fun _ j => Job.bytes j) (s.jobs.erase token)
          : Nat) : Int) + bytesInHand s.http
      omega
    · show s.terrainGridBytes - (job.bytes : Int) ≤ gridByteLimit
      omega
  rcases hcase with ⟨-, rfl⟩ | ⟨-, rfl⟩
  · exact hends
  · exact hends.of_frame rfl rfl rfl rfl rfl rfl

/-- Every step balances the ledgers. -/
theorem admissionInv_step {a : Action} {s s' : State}
    (hw : WaiterInv cfg s) (h : AdmissionInv cfg s)
    (hstep : apply cfg a s = some s') : AdmissionInv cfg s' := by
  cases a with
  | accept client socket =>
      obtain ⟨-, heq⟩ := onIdle_inv hstep
      cases heq
      exact h.of_frame rfl rfl rfl rfl rfl rfl
  | submit sub =>
      obtain ⟨hidle, heq⟩ := onIdle_inv hstep
      cases heq
      exact admissionInv_submit h hidle sub
  | submitTerrainJob =>
      obtain ⟨-, heq⟩ := onIdle_inv hstep
      cases heq
      unfold submitTerrainJob
      split
      · rename_i outstanding hacq
        obtain ⟨hval, hle⟩ := tryAcquire_inv hacq
        have hover := h.overall
        unfold jobsNotEnded at hover
        refine ⟨?_, hle, h.remote, h.remoteBound, h.bytes, h.bytesBound,
          h.rollback⟩
        show outstanding = ((QHash.total (fun _ j => holdsAdmission j) s.jobs
          + (s.plainJobs + 1) : Nat) : Int)
        omega
      · exact h
  | admitNext =>
      refine admissionInv_admitNext h ?_ hstep
      -- a live job has an issued token
      cases hjob : s.jobs.lookup s.nextToken with
      | none => rfl
      | some job =>
          have hflight := hw.tokens.jobFlights _ _ (jobFlight_of_lookup hjob)
          exact absurd (hw.tokens.token_issued hflight) (Nat.lt_irrefl _)
  | callback token =>
      obtain ⟨-, heq⟩ := onIdle_inv hstep
      exact admissionInv_callback h heq
  | socketGone client socket =>
      obtain ⟨-, heq⟩ := onIdle_inv hstep
      cases heq
      exact h.of_frame rfl rfl rfl rfl rfl rfl
  | worker token acquired processed => exact admissionInv_worker h hstep
  | plainJobEnds =>
      replace hstep : plainJobEnds s = some s' := hstep
      unfold plainJobEnds at hstep
      split at hstep
      · cases hstep
      · rename_i n hplain
        cases hstep
        have hover := h.overall
        unfold jobsNotEnded at hover
        refine ⟨?_, Int.le_trans (release_le _) h.overallBound, h.remote,
          h.remoteBound, h.bytes, h.bytesBound, h.rollback⟩
        show s.terrainAdmission - 1
          = ((QHash.total (fun _ j => holdsAdmission j) s.jobs + n : Nat)
            : Int)
        omega

/-- The ledgers balance in every reachable state. -/
theorem admissionInv_reachable {s : State} (h : Reachable cfg s) :
    AdmissionInv cfg s := by
  have hboth : WaiterInv cfg s ∧ AdmissionInv cfg s :=
    h.invariant (P := fun x => WaiterInv cfg x ∧ AdmissionInv cfg x)
      ⟨waiterInv_init, admissionInv_init⟩ fun _ _ _ hinv _ hstep =>
        ⟨waiterInv_step hinv.1 hstep,
          admissionInv_step hinv.1 hinv.2 hstep⟩
  exact hboth.2

-- ========================================================= main result

/-- Conservation of terrain admission, in every reachable state: what
the three counters count, and their limits. -/
theorem admission_conserved {s : State} (hs : Reachable cfg s) :
    -- the overall slots are the jobs that have not ended
    (s.terrainAdmission = jobsNotEnded s ∧
      s.terrainAdmission ≤ max 1 cfg.maximumTerrainJobs) ∧
    -- the remote slots are the acquisitions in progress, and the slot a
    -- submission has acquired and not yet handed on
    (s.terrainRemoteAdmission = jobsAcquiring s + remoteInHand s.http ∧
      s.terrainRemoteAdmission ≤ max 1 (cfg.maximumTerrainJobs / 2)) ∧
    -- the bytes are those of the grid jobs whose callback has not run,
    -- and those of a submission in progress
    (s.terrainGridBytes
        = QHash.total (fun _ job =>
            if job.registry = .grids then
              8 * job.submission.columns * job.submission.rows
            else 0) s.jobs + bytesInHand s.http ∧
      s.terrainGridBytes ≤ 64 * 1024 * 1024) ∧
    -- between submissions nothing else is held
    (s.http = .idle → remoteInHand s.http = 0 ∧ bytesInHand s.http = 0) ∧
    -- no counter underflows
    (0 ≤ s.terrainAdmission ∧ 0 ≤ s.terrainRemoteAdmission ∧
      0 ≤ s.terrainGridBytes) := by
  have h := admissionInv_reachable hs
  have hover := h.overall
  have hremote := h.remote
  have hbytes := h.bytes
  have hgrid : gridJobBytes s = QHash.total (fun _ job =>
      if job.registry = .grids then
        8 * job.submission.columns * job.submission.rows
      else 0) s.jobs := by
    refine QHash.total_congr fun t job _ => ?_
    by_cases hr : job.registry = .grids
    · rw [if_pos hr]
      show job.submission.estimatedBytes = _
      unfold Submission.estimatedBytes
      simp only [Job.registry] at hr
      simp only [hr]
      rw [Nat.mul_comm _ (4 + 4), Nat.mul_assoc]
    · rw [if_neg hr]
      exact estimatedBytes_of_ne_grids hr
  refine ⟨⟨hover, ?_⟩, ⟨hremote, ?_⟩, ⟨?_, h.bytesBound⟩, ?_, ?_, ?_, ?_⟩
  · exact_mod_cast h.overallBound
  · exact_mod_cast h.remoteBound
  · rw [← hgrid]
    exact hbytes
  · intro hidle
    rw [hidle]
    exact ⟨rfl, rfl⟩
  · omega
  · omega
  · omega

/-- A remote grid job and a plain job fill a server of two slots; a
third submission is refused and rolled back. -/
def refusedGrid : List Action :=
  let grid (client : String) : Submission :=
    { registry := .grids, key := client, remoteJob := true
      columns := 512, rows := 512 }
  [ .submit (grid "a"), .admitNext, .admitNext, .submitTerrainJob,
    .worker 0 none .threw,
    .submit (grid "b"), .admitNext, .admitNext, .admitNext, .admitNext ]

/-- What the refused grid had acquired is given back. -/
theorem admission_conserved_refusedGrid :
    ∃ s, runActions (apply { maximumTerrainJobs := 2 }) refusedGrid
        State.init = some s ∧
      jobsNotEnded s = 2 ∧ jobsAcquiring s = 0 ∧
      QHash.total (fun _ job =>
        if job.registry = .grids then
          8 * job.submission.columns * job.submission.rows
        else 0) s.jobs = 2097152 := by
  have hrun : (runActions (apply { maximumTerrainJobs := 2 }) refusedGrid
      State.init).map (fun s => (s.terrainAdmission,
        s.terrainRemoteAdmission, s.terrainGridBytes, s.http))
      = some (2, 0, 2097152, .idle) := by
    decide +kernel
  obtain ⟨s, hs, hval⟩ := Option.map_eq_some_iff.1 hrun
  simp only [Prod.mk.injEq] at hval
  obtain ⟨hadmission, hremote, hbytes, hidle⟩ := hval
  obtain ⟨hA, hR, hB, hnone, -⟩ :=
    admission_conserved (run_of_runActions hs)
  have hheld := hnone hidle
  exact ⟨s, hs, by omega, by omega, by omega⟩

end AowisMap.Server
