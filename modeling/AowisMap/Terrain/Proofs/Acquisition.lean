/-
What a CPU stage without the network may rely on after an acquisition.

# One attempt

An attempt only touches the files around a source (`SameSource`) until it
publishes it. So it never loses a source that is there, ends ready only
with one, and calls a source unavailable only if the upstream said so
(`LoadOutcome`). That holds of the early results by `receiveSource_spec`,
and of the settling of an answer by its branches (`settle_comes`).
-/
import AowisMap.Terrain.Acquisition
import AowisMap.Terrain.Proofs.GridPlan
import AowisMap.Terrain.Proofs.SourceDownload

namespace AowisMap.Terrain

open Lib Prog

-- ======================================================== one attempt

/-- The upstream's answer that it does not have a source. -/
def SourceAnswer.NotFound (answer : SourceAnswer) : Prop :=
  answer.httpStatus = 404 ∨ answer.networkError = .contentNotFound

/-- A source that is there stays there, and so do the answers for it. -/
structure SourceKept (before after : SourceDisk) : Prop where
  isLocal : before.isLocal = true → after.isLocal = true
  answered : before.answered ⊆ after.answered

/-- What an attempt comes to. -/
structure LoadOutcome (allowRemoteFetch : Bool) (before : SourceDisk)
    (result : SourceLoadResult) (after : SourceDisk) : Prop
    extends SourceKept before after where
  ready : result.status = .ready → after.isLocal = true
  unavailable : allowRemoteFetch = true → result.status = .unavailable →
    result.sourceConfirmedUnavailable = true
  notFound : result.sourceConfirmedUnavailable = true →
    ∃ answer ∈ after.answered, answer.NotFound

/-- A result that is neither a source nor its absence. -/
structure SourceLoadResult.Fails (result : SourceLoadResult) : Prop where
  not_ready : result.status ≠ .ready
  not_unavailable : result.status ≠ .unavailable
  not_confirmed : result.sourceConfirmedUnavailable = false

variable {allowRemoteFetch : Bool} {before disk : SourceDisk}
  {result : SourceLoadResult} {target : SourceTarget} {attempt : Attempt}

theorem SourceKept.refl (disk : SourceDisk) : SourceKept disk disk :=
  ⟨id, List.Subset.refl _⟩

theorem SourceKept.same {after : SourceDisk} (h : SourceKept before disk)
    (hsame : SameSource disk after) : SourceKept before after where
  isLocal hlocal := by
    unfold SourceDisk.isLocal
    rw [hsame.finalFile]
    exact h.isLocal hlocal
  answered := by
    rw [hsame.answered]
    exact h.answered

theorem SourceKept.fails (h : SourceKept before disk)
    (hfails : result.Fails) :
    LoadOutcome allowRemoteFetch before result disk where
  toSourceKept := h
  ready hready := absurd hready hfails.not_ready
  unavailable _ hunavailable := absurd hunavailable hfails.not_unavailable
  notFound hconfirmed := by
    rw [hfails.not_confirmed] at hconfirmed
    cases hconfirmed

theorem cancelledResult_fails : (cancelledResult target).Fails :=
  ⟨nofun, nofun, rfl⟩

theorem failedResult_fails {status : SourceLoadStatus} {message : String}
    (hready : status ≠ .ready) (hunavailable : status ≠ .unavailable) :
    (failedResult target status message).Fails :=
  ⟨hready, hunavailable, rfl⟩

theorem networkError_fails {message : String} :
    (failedResult target .networkError message).Fails :=
  failedResult_fails (by decide) (by decide)

theorem readError_fails {message : String} :
    (failedResult target .readError message).Fails :=
  failedResult_fails (by decide) (by decide)

/-- A program whose runs all come to an outcome, and keep the source where
the process dies. -/
def Comes (allowRemoteFetch : Bool) (before : SourceDisk)
    (p : Prog SourceDisk SourceLoadResult) (disk : SourceDisk) : Prop :=
  p.wp (LoadOutcome allowRemoteFetch before) (SourceKept before) disk

/-- What does not touch the source may come first. -/
theorem SourceKept.comes {A : Type} {p : Prog SourceDisk A}
    {f : A → Prog SourceDisk SourceLoadResult} (h : SourceKept before disk)
    (hp : Leaves SameSource p)
    (hf : ∀ a after, SameSource disk after →
      Comes allowRemoteFetch before (f a) after) :
    Comes allowRemoteFetch before (p >>= f) disk := by
  unfold Comes
  rw [wp_bind]
  exact wp_mono (hp disk) hf fun _ hsame => h.same hsame

/-- A failure after what does not touch the source. -/
theorem SourceKept.then_fails {A : Type} {p : Prog SourceDisk A}
    (h : SourceKept before disk) (hp : Leaves SameSource p)
    (hfails : result.Fails) :
    Comes allowRemoteFetch before (p >>= fun _ => Pure.pure result) disk :=
  h.comes hp fun _ _ hsame => (h.same hsame).fails hfails

/-- Bytes that were assembled and are some are published as a source. -/
theorem publishFinished_comes {appendPrior : Bool}
    (h : SourceKept before disk)
    (hsome : ∀ bytes, disk.assembled appendPrior = some bytes →
      bytes.isEmpty = false) :
    Comes allowRemoteFetch before (publishFinished target appendPrior)
      disk := by
  unfold Comes publishFinished publishCopernicusSource
  rw [wp_bind, wp_bind, wp_read]
  have hfailed : (discardIncoming >>= fun _ => Pure.pure
      (failedResult target .readError
        ("Failed to publish complete Copernicus source: " ++ target.path))).wp
      (LoadOutcome allowRemoteFetch before) (SourceKept before) disk :=
    h.then_fails discardIncoming_same readError_fails
  cases hbytes : disk.assembled appendPrior with
  | none => exact hfailed
  | some bytes =>
      have hlocal : ∀ {after : SourceDisk}, after.finalFile = some bytes →
          after.isLocal = true := by
        intro after hfinal
        unfold SourceDisk.isLocal
        rw [hfinal, Option.any_some, hsome bytes hbytes]
        rfl
      have hkept : SourceKept before
          { disk with
            finalFile := some bytes
            published := disk.published ++ [bytes] } :=
        ⟨fun _ => hlocal rfl, h.answered⟩
      rw [wp_perform]
      refine ⟨h, ?_, hfailed⟩
      refine hkept.comes discardIncoming_same fun _ after hafter => ?_
      refine (hkept.same hafter).comes discardPartial_same
        fun _ last hlast => ?_
      have hlast := Trans.trans hafter hlast
      exact
        { toSourceKept := hkept.same hlast
          ready := fun _ => hlocal hlast.finalFile
          unavailable := fun _ hunavailable => by cases hunavailable
          notFound := fun hconfirmed => by cases hconfirmed }

/-- What may be published is not empty. -/
theorem assembled_of_publishable {answer : SourceAnswer}
    {prior : Option CopernicusPartialState} {incoming bytes : Bytes}
    (hincoming : disk.incomingFile = some incoming)
    (hok : answer.publishable (answer.appendsPrior prior incoming.length)
      incoming.length = true)
    (hbytes : disk.assembled (answer.appendsPrior prior incoming.length)
      = some bytes) : bytes.isEmpty = false := by
  have hfull : incoming ≠ [] := by
    intro hempty
    subst hempty
    cases happend : answer.appendsPrior prior [].length with
    | true =>
        unfold SourceAnswer.appendsPrior at happend
        split at happend
        · simp only [Bool.and_eq_true, beq_iff_eq] at happend
          obtain ⟨⟨hstatus, hclassify⟩, -⟩ := happend
          unfold classifyCopernicusResumeResponse at hclassify
          rw [if_neg (by omega), if_pos (by simp)] at hclassify
          cases hclassify
        · cases happend
    | false =>
        rw [happend] at hok
        simp [SourceAnswer.publishable, completeCopernicusResponse] at hok
  rw [List.isEmpty_eq_false_iff]
  intro hempty
  subst hempty
  unfold SourceDisk.assembled at hbytes
  rw [hincoming] at hbytes
  cases hprior : disk.partialFile with
  | none =>
      rw [hprior] at hbytes
      dsimp only at hbytes
      split at hbytes
      · cases hbytes
      · exact hfull (Option.some.inj hbytes)
  | some stored =>
      rw [hprior] at hbytes
      dsimp only at hbytes
      split at hbytes
      · exact hfull (List.append_eq_nil_iff.1 (Option.some.inj hbytes)).2
      · exact hfull (Option.some.inj hbytes)

/-- A finished response. -/
theorem settleFinished_comes {prior : Option CopernicusPartialState}
    {incoming : Bytes} (h : SourceKept before disk)
    (hincoming : disk.incomingFile = some incoming) :
    Comes allowRemoteFetch before
      (settleFinished target attempt prior incoming.length) disk := by
  unfold settleFinished
  dsimp only
  split
  · exact h.comes discardIncoming_same fun _ _ hafter =>
      (h.same hafter).then_fails (discardPartialIf_same _) networkError_fails
  · rename_i hok
    rw [Bool.not_eq_false] at hok
    split
    · exact h.then_fails discardIncoming_same cancelledResult_fails
    · exact publishFinished_comes h fun bytes hbytes =>
        assembled_of_publishable hincoming hok hbytes

/-- An answer is settled. -/
theorem settle_comes {prior : Option CopernicusPartialState}
    {received : Nat × Bool} (h : SourceKept before disk)
    (hanswer : attempt.answer ∈ disk.answered)
    (hincoming : received.2 = false → ∃ incoming,
      disk.incomingFile = some incoming ∧ received.1 = incoming.length) :
    Comes allowRemoteFetch before (settle target attempt prior received)
      disk := by
  unfold settle
  split
  · exact h.then_fails discardIncoming_same cancelledResult_fails
  split
  · exact h.then_fails discardIncoming_same readError_fails
  rename_i hwritten
  split
  · rename_i hnotFound
    refine h.comes discardIncoming_same fun _ after hafter => ?_
    refine (h.same hafter).comes discardPartial_same
      fun _ last hlast => ?_
    have hlast := Trans.trans hafter hlast
    refine
      { toSourceKept := h.same hlast
        ready := fun hready => by cases hready
        unavailable := fun _ _ => rfl
        notFound := fun _ => ⟨attempt.answer, ?_, hnotFound⟩ }
    rw [hlast.answered]
    exact hanswer
  split
  · exact h.then_fails (keepInterrupted_same _ _ _) networkError_fails
  split
  · exact h.comes discardIncoming_same fun _ _ hafter =>
      (h.same hafter).then_fails (discardPartialIf_same _) networkError_fails
  · obtain ⟨incoming, hfile, hlength⟩ :=
      hincoming (Bool.eq_false_iff.2 hwritten)
    rw [hlength]
    exact settleFinished_comes h hfile

/-- Every attempt comes to an outcome. -/
theorem downloadSourceTile_comes :
    Comes attempt.allowRemoteFetch disk (downloadSourceTile target attempt)
      disk := by
  have h := SourceKept.refl disk
  have hanswered : SourceKept disk (disk.answeredBy attempt.answer) :=
    ⟨id, List.subset_append_left _ _⟩
  apply wp_downloadSourceTileClosing
  · intro result after hdrops hearly
    have hafter := h.same hdrops.same
    exact
      { toSourceKept := hafter
        ready := fun hready => hafter.isLocal (hearly.ready hready)
        unavailable := fun hremote hunavailable => by
          rw [hearly.unavailable hunavailable] at hremote
          cases hremote
        notFound := fun hconfirmed => by
          rw [hearly.unconfirmed] at hconfirmed
          cases hconfirmed }
  · intro prior count after hreceived
    refine settle_comes (hanswered.same hreceived.drops.same) ?_ ?_
    · rw [hreceived.drops.answered]
      exact List.mem_append_right _ (List.mem_singleton_self _)
    · intro hwritten
      obtain ⟨-, hcount, hincoming⟩ := hreceived.whole hwritten
      exact ⟨_, hincoming, hcount⟩
  · rintro after (hdrops | hdrops)
    · exact h.same hdrops.same
    · exact hanswered.same hdrops.same

end AowisMap.Terrain
