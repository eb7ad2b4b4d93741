/-
When an attempt drops the stored prefix: after an answer that cannot
continue it, neither the partial file nor its metadata may be left, or
every later attempt asks for the same range again.

# The order of the branches

`settle` looks at a missing source first, then at a transfer that was
interrupted, and only then at the status. An error of the network reply
counts as an interruption, and a reply with status 416 has one. So its
answer is settled as an interruption, which keeps the prefix, and the
branch that would drop it is reached by no such reply:
`prefixDropped_iff` says when the files are gone.
-/
import AowisMap.Terrain.Proofs.SourceDownload

namespace AowisMap.Terrain

open Lib Prog Lib.QByteArray

-- ============================================================ the domain

/-- The `Range` header of a request, which resumes the state that was
loaded. -/
def rangeHeader (prior : Option CopernicusPartialState) : Option Bytes :=
  prior.map fun state =>
    ascii "bytes=" ++ number state.downloadedBytes ++ ascii "-"

/-- The answer continues the saved entity to its end: its tag, its range,
its total and the bytes received all fit. -/
structure SourceAnswer.Extends (answer : SourceAnswer)
    (state : CopernicusPartialState) : Prop where
  tag : answer.etag = state.strongEtag
  range : ∃ range, parseCopernicusContentRange answer.contentRange
      = some range ∧ range.first = state.downloadedBytes ∧
    range.total = state.totalBytes ∧ range.last + 1 = range.total
  received : state.downloadedBytes + answer.body.length = state.totalBytes
  declared : ∀ n, answer.contentLength = some n →
    n = (answer.body.length : Int)

/-- The answer says that the saved prefix is of no use. -/
def SourceAnswer.Unusable (answer : SourceAnswer)
    (prior : Option CopernicusPartialState) : Prop :=
  answer.httpStatus = 404 ∨ answer.httpStatus = 416 ∨
    answer.httpStatus = 206 ∧
      ∀ state, prior = some state → ¬ answer.Extends state

/-- The answer was received to its end, and the reply has an error
exactly if the status is one. -/
structure SourceAnswer.Completed (answer : SourceAnswer) : Prop where
  connection : answer.connectionExpired = false
  deadline : answer.deadlineExpired = false
  within : answer.body.length ≤ maximumSourceDownloadBytes
  succeeded : answer.httpStatus < 400 → answer.networkError = .noError
  refused : 400 ≤ answer.httpStatus → answer.networkError ≠ .noError

/-- Whether a cancellation is seen anywhere in the attempt. -/
def Attempt.cancelled (attempt : Attempt) : Bool :=
  attempt.cancelledAtStart || attempt.lockWait == .cancelled ||
    attempt.cancelledLocked || attempt.generationCancelledStaged ||
    attempt.tokenCancelledStaged || attempt.cancelledReceiving ||
    attempt.cancelledComplete

/-- The prefix is gone, and the next request asks for the whole source.
-/
structure PrefixDropped (disk : SourceDisk) : Prop where
  partialFile : disk.partialFile = none
  metadataFile : disk.metadataFile = none
  request : rangeHeader disk.partialState = none

variable {target : SourceTarget} {attempt : Attempt} {disk : SourceDisk}
  {answer : SourceAnswer} {prior : Option CopernicusPartialState}

/-- Without the two files there is no state to resume. -/
theorem PrefixDropped.of_files (hstored : disk.partialFile = none)
    (hmetadata : disk.metadataFile = none) : PrefixDropped disk := by
  refine ⟨hstored, hmetadata, ?_⟩
  rw [SourceDisk.partialState, hstored]
  rfl

-- ================================================== what may be appended

/-- The range behind an appended response. -/
theorem classify_completes {httpStatus : Int}
    {existing received maximum : Nat} {contentRange stored etag : Bytes}
    (h : classifyCopernicusResumeResponse httpStatus existing received
      contentRange stored etag maximum = .appendVerifiedRange) :
    ∃ range, parseCopernicusContentRange contentRange = some range ∧
      completesPrefix existing received maximum range = true := by
  unfold classifyCopernicusResumeResponse at h
  split at h
  · cases h
  · split at h
    · cases h
    · split at h
      · rename_i range hrange
        split at h
        · rename_i hcompletes
          exact ⟨range, hrange, hcompletes⟩
        · cases h
      · cases h

/-- A partial response is published only if it completes the prefix. -/
theorem extends_of_publishable (hstatus : answer.httpStatus = 206)
    (hok : answer.publishable (answer.appendsPrior prior answer.body.length)
      answer.body.length = true) :
    ∃ state, prior = some state ∧ answer.Extends state := by
  cases happend : answer.appendsPrior prior answer.body.length with
  | false =>
      rw [happend] at hok
      simp [SourceAnswer.publishable, completeCopernicusResponse,
        hstatus] at hok
  | true =>
      rw [happend] at hok
      unfold SourceAnswer.appendsPrior at happend
      split at happend
      · rename_i state
        simp only [Bool.and_eq_true, beq_iff_eq] at happend
        obtain ⟨⟨-, hclassify⟩, htotal⟩ := happend
        obtain ⟨-, htag, -⟩ := classify_append hclassify
        obtain ⟨range, hrange, hcompletes⟩ := classify_completes hclassify
        simp only [completesPrefix, Bool.and_eq_true, beq_iff_eq,
          decide_eq_true_eq] at hcompletes
        obtain ⟨⟨⟨hfirst, -⟩, hlength⟩, hlast⟩ := hcompletes
        have hwf := parseCopernicusContentRange_wf hrange
        refine ⟨state, rfl, htag, ⟨range, hrange, hfirst, ?_, hlast⟩,
          htotal, ?_⟩
        · omega
        · intro n hn
          simp only [SourceAnswer.publishable, if_true, hn,
            Option.all_some, beq_iff_eq] at hok
          exact hok
      · cases happend

-- ===================================================== without failures

/-- An answer that was received is one more. -/
theorem answered_ne (disk : SourceDisk) (answer : SourceAnswer) :
    disk.answered ≠ disk.answered ++ [answer] := by
  intro hsame
  have hlength := congrArg List.length hsame
  rw [List.length_append, List.length_singleton] at hlength
  omega

/-- An attempt that receives an answer settles it. -/
theorem succeed_downloadSourceTile
    (hgeneration : attempt.generationCancelledStaged = false)
    (htoken : attempt.tokenCancelledStaged = false)
    (hwithin : attempt.answer.body.length ≤ maximumSourceDownloadBytes)
    (hanswered : ((downloadSourceTile target attempt).succeed
      disk).2.answered = disk.answered ++ [attempt.answer]) :
    (downloadSourceTile target attempt).succeed disk
      = (settle target attempt disk.partialState
          (attempt.answer.body.length, false)).succeed
        (disk.staged attempt.answer) := by
  unfold downloadSourceTile downloadSourceTileClosing at hanswered ⊢
  rw [succeed_bind] at hanswered ⊢
  rcases succeed_receiveSource target disk hgeneration htoken hwithin with
    ⟨result, hreturned⟩ | hreceived
  · rw [hreturned] at hanswered
    exact absurd hanswered (answered_ne disk attempt.answer)
  · rw [hreceived]
    rfl

-- ==================================================== settling an answer

/-- A missing source drops the prefix. -/
theorem settle_missing (hcancelled : attempt.cancelledReceiving = false)
    (hmissing : attempt.answer.httpStatus = 404 ∨
      attempt.answer.networkError = .contentNotFound) (n : Nat) :
    ((settle target attempt prior (n, false)).succeed disk).2
      = { disk with
          partialFile := none
          metadataFile := none
          incomingFile := none } := by
  rw [settle, if_neg (by rw [hcancelled]; decide), if_neg (by simp),
    if_pos hmissing]
  rfl

/-- A reply with an error of its own keeps the prefix. -/
theorem settle_refused (hcancelled : attempt.cancelledReceiving = false)
    (hstatus : attempt.answer.httpStatus = 416)
    (herror : attempt.answer.networkError ≠ .noError)
    (hother : attempt.answer.networkError ≠ .contentNotFound) (n : Nat) :
    ((settle target attempt prior (n, false)).succeed disk).2
      = { disk with incomingFile := none } := by
  have hinterrupted : attempt.answer.interrupted = true := by
    simp only [SourceAnswer.interrupted, Bool.or_eq_true, bne_iff_ne]
    exact Or.inl (Or.inl herror)
  have hfull : attempt.answer.keepsFull n = none := by
    unfold SourceAnswer.keepsFull
    split
    · rw [if_neg (by rw [hstatus]; simp)]
    · rfl
  have hkeep : keepInterrupted attempt.answer prior n = discardIncoming := by
    unfold keepInterrupted
    rw [hfull]
    cases prior with
    | none => rfl
    | some state => simp only [hstatus]; rfl
  rw [settle, if_neg (by rw [hcancelled]; decide), if_neg (by simp),
    if_neg (by rw [hstatus, not_or]; exact ⟨by decide, hother⟩),
    if_pos hinterrupted, hkeep]
  rfl

/-- A partial response that does not continue the prefix drops it. -/
theorem settle_inconsistent (hcancelled : attempt.cancelledReceiving = false)
    (hstatus : attempt.answer.httpStatus = 206)
    (hcompleted : attempt.answer.Completed)
    (hnot : ∀ state, prior = some state → ¬ attempt.answer.Extends state) :
    ((settle target attempt prior
        (attempt.answer.body.length, false)).succeed disk).2
      = { disk with
          partialFile := none
          metadataFile := none
          incomingFile := none } := by
  have herror : attempt.answer.networkError = .noError :=
    hcompleted.succeeded (by rw [hstatus]; decide)
  have hfinished : attempt.answer.interrupted = false := by
    simp only [SourceAnswer.interrupted, herror, hcompleted.connection,
      hcompleted.deadline, bne_self_eq_false, Bool.or_self]
  have hrefused : attempt.answer.publishable
      (attempt.answer.appendsPrior prior attempt.answer.body.length)
      attempt.answer.body.length = false := by
    rw [Bool.eq_false_iff]
    intro hok
    obtain ⟨state, hprior, hextends⟩ := extends_of_publishable hstatus hok
    exact hnot state hprior hextends
  rw [settle, if_neg (by rw [hcancelled]; decide), if_neg (by simp),
    if_neg (by rw [hstatus, herror]; decide),
    if_neg (by rw [hfinished]; decide), if_neg (by rw [hstatus]; decide),
    settleFinished, if_pos hrefused, hstatus]
  rfl

-- ============================================================ the result

/-- The prefix after an unusable answer was settled. -/
theorem settle_prefixDropped_iff
    (hcancelled : attempt.cancelledReceiving = false)
    (hcompleted : attempt.answer.Completed)
    (hunusable : attempt.answer.Unusable disk.partialState) :
    PrefixDropped ((settle target attempt disk.partialState
        (attempt.answer.body.length, false)).succeed
          (disk.staged attempt.answer)).2 ↔
      attempt.answer.httpStatus ≠ 416 ∨
        attempt.answer.networkError = .contentNotFound ∨
        disk.partialState = none := by
  by_cases hmissing : attempt.answer.httpStatus = 404 ∨
      attempt.answer.networkError = .contentNotFound
  · rw [settle_missing hcancelled hmissing]
    refine iff_of_true (.of_files rfl rfl) ?_
    rcases hmissing with hstatus | hnotFound
    · exact Or.inl (by rw [hstatus]; decide)
    · exact Or.inr (Or.inl hnotFound)
  rw [not_or] at hmissing
  by_cases hstatus : attempt.answer.httpStatus = 416
  · have herror := hcompleted.refused (by rw [hstatus]; decide)
    rw [settle_refused hcancelled hstatus herror hmissing.2]
    constructor
    · intro hdropped
      refine Or.inr (Or.inr ?_)
      -- The files are those that were staged, gone only with no state.
      have hstored : (if disk.partialState.isNone then none
          else disk.partialFile) = none := hdropped.partialFile
      cases hprior : disk.partialState with
      | none => rfl
      | some state =>
          obtain ⟨bytes, -, hbytes, -⟩ := loadPartialState_some hprior
          rw [hprior] at hstored
          have hstored : disk.partialFile = none := hstored
          rw [hstored] at hbytes
          cases hbytes
    · rintro (hne | hnotFound | hprior)
      · exact absurd hstatus hne
      · exact absurd hnotFound hmissing.2
      · refine .of_files ?_ ?_
        · show (if disk.partialState.isNone then none
            else disk.partialFile) = none
          rw [hprior]
          rfl
        · show (if disk.partialState.isNone then none
            else disk.metadataFile) = none
          rw [hprior]
          rfl
  · have hpart := (hunusable.resolve_left hmissing.1).resolve_left hstatus
    rw [settle_inconsistent hcancelled hpart.1 hcompleted hpart.2]
    exact iff_of_true (.of_files rfl rfl) (Or.inl hstatus)

/-- **When an unusable prefix is dropped.** An attempt that is not
cancelled, meets no local failure and receives the whole of an unusable
answer leaves neither file of the prefix exactly if the answer is not a
416, is one that the reply reports as missing content, or there was no
state to resume. -/
theorem prefixDropped_iff {fates : List Bool} {result : SourceLoadResult}
    (hunusable : attempt.answer.Unusable disk.partialState)
    (hcompleted : attempt.answer.Completed)
    (hcancelled : attempt.cancelled = false)
    (hfates : ∀ ok ∈ fates, ok = true)
    (hended : ((downloadSourceTile target attempt).exec fates disk).1
      = some result)
    (hanswered : ((downloadSourceTile target attempt).exec fates
      disk).2.answered = disk.answered ++ [attempt.answer]) :
    PrefixDropped ((downloadSourceTile target attempt).exec fates disk).2 ↔
      attempt.answer.httpStatus ≠ 416 ∨
        attempt.answer.networkError = .contentNotFound ∨
        disk.partialState = none := by
  have hlast := (exec_succeed hfates hended).2
  simp only [Attempt.cancelled, Bool.or_eq_false_iff] at hcancelled
  obtain ⟨⟨⟨⟨-, hgeneration⟩, htoken⟩, hreceiving⟩, -⟩ := hcancelled
  rw [hlast] at hanswered ⊢
  rw [succeed_downloadSourceTile hgeneration htoken hcompleted.within
    hanswered]
  exact settle_prefixDropped_iff hreceiving hcompleted hunusable

/-- The prefix of an entity of six bytes with its metadata. -/
def prefixOfSix : SourceDisk where
  partialFile := some [1, 2]
  metadataFile := some (partialStateText ⟨2, 6, ascii "\"v1\""⟩)

/-- An attempt that is answered with an error status. -/
def refusedAttempt (httpStatus : Int) (networkError : NetworkError) :
    Attempt where
  answer :=
    { httpStatus := httpStatus
      networkError := networkError }

theorem refusedAttempt_completed {httpStatus : Int}
    {networkError : NetworkError} (hstatus : 400 ≤ httpStatus)
    (herror : networkError ≠ .noError) :
    (refusedAttempt httpStatus networkError).answer.Completed := by
  refine ⟨rfl, rfl, Nat.zero_le _, ?_, fun _ => herror⟩
  intro hlt
  have hlt : httpStatus < 400 := hlt
  omega

/-- A source that is missing upstream: the result applies and the prefix
is gone. -/
theorem prefixDropped_missing :
    PrefixDropped ((downloadSourceTile ⟨"cache", "cache/n.tif", "http://n"⟩
      (refusedAttempt 404 .contentNotFound)).exec (List.replicate 20 true)
      prefixOfSix).2 := by
  have hended : ((downloadSourceTile ⟨"cache", "cache/n.tif", "http://n"⟩
      (refusedAttempt 404 .contentNotFound)).exec (List.replicate 20 true)
      prefixOfSix).1 = some
        { status := .unavailable
          path := "cache/n.tif"
          sourceConfirmedUnavailable := true
          errorMessage :=
            "Copernicus GLO-30 source tile is unavailable: http://n" } := by
    decide +kernel
  refine (prefixDropped_iff (Or.inl rfl)
    (refusedAttempt_completed (by decide) (by decide)) rfl
    (fun _ hmem => List.eq_of_mem_replicate hmem) hended ?_).2
    (Or.inl (by decide))
  decide +kernel

/-- A range that cannot be satisfied: the reply has an error, the attempt
is none that is excused, and the prefix is kept for the same request. -/
theorem prefixKept_rangeNotSatisfiable :
    ¬ ∀ (target : SourceTarget) (attempt : Attempt) (disk : SourceDisk)
        (fates : List Bool) (result : SourceLoadResult),
      attempt.answer.Unusable disk.partialState →
      attempt.answer.Completed → attempt.cancelled = false →
      (∀ ok ∈ fates, ok = true) →
      ((downloadSourceTile target attempt).exec fates disk).1
        = some result →
      ((downloadSourceTile target attempt).exec fates disk).2.answered
        = disk.answered ++ [attempt.answer] →
      PrefixDropped
        ((downloadSourceTile target attempt).exec fates disk).2 := by
  intro hclaim
  have hdropped := hclaim ⟨"cache", "cache/n.tif", "http://n"⟩
    (refusedAttempt 416 .other) prefixOfSix (List.replicate 20 true)
    { status := .networkError
      path := "cache/n.tif"
      errorMessage := "Copernicus transfer interrupted: http://n ()" }
    (Or.inr (Or.inl rfl)) (refusedAttempt_completed (by decide) (by decide))
    rfl (fun _ hmem => List.eq_of_mem_replicate hmem)
    (by decide +kernel) (by decide +kernel)
  have hkept : ((downloadSourceTile ⟨"cache", "cache/n.tif", "http://n"⟩
      (refusedAttempt 416 .other)).exec (List.replicate 20 true)
      prefixOfSix).2.partialFile = some [1, 2] := by decide +kernel
  rw [hdropped.partialFile] at hkept
  cases hkept

end AowisMap.Terrain
