/-
Whether a source that is published is whole when the last bytes of the
incoming file can be lost on closing.

# Counters and files

The checks of an answer compare the counter of received bytes with the
lengths that were declared. The publication copies what the incoming
file holds. The two agree as long as the file holds every byte that was
counted, so a publication is whole exactly if nothing was lost, the
attempt publishes nothing, or no length is known to compare with
(`flushed_whole_iff`).

# The two directions

That the condition is enough is shown for every fate of the file
operations (`settle_published` says what any run may publish). That it
is needed is shown on the run without failures, which publishes the
shortened file (`succeed_flushing`).
-/
import AowisMap.Terrain.SourceFlush
import AowisMap.Terrain.Proofs.SourceDownload

namespace AowisMap.Terrain

open Lib Prog Lib.QByteArray

-- ========================================================= what is claimed

/-- The length a published source should have: the total of the saved
entity for a resumed response, for a full one the length it declared, or
the bytes that were received where it declared none. -/
def expectedTotal (answer : SourceAnswer)
    (prior : Option CopernicusPartialState) : Option Nat :=
  if answer.httpStatus = 206 then prior.map (·.totalBytes)
  else some (answer.declaredLength.getD answer.body.length)

/-- What an attempt may leave: a source of the expected length was
published, or none was, and an attempt that was answered then returns an
error. -/
inductive FlushOutcome (expected : Option Nat) (before : SourceDisk)
    (result : Option SourceLoadResult) (after : SourceDisk) : Prop
  | unpublished (same : after.published = before.published)
      (error : ∀ ended, result = some ended →
        after.answered ≠ before.answered → ended.status ≠ .ready)
  | whole (bytes : Bytes)
      (published : after.published = before.published ++ [bytes])
      (total : expected = some bytes.length)

/-- Whether the checks of `settle` let the answer be published. -/
def Attempt.passes (attempt : Attempt)
    (prior : Option CopernicusPartialState) : Bool :=
  let answer := attempt.answer
  !attempt.cancelledReceiving && answer.httpStatus != 404 &&
    answer.networkError != .contentNotFound && !answer.interrupted &&
    (answer.httpStatus == 200 || answer.httpStatus == 206) &&
    answer.publishable (answer.appendsPrior prior answer.body.length)
      answer.body.length &&
    !attempt.cancelledComplete

/-- Bytes that were counted are missing from the incoming file. -/
def Lost (flushed : Option Nat) (answer : SourceAnswer) : Prop :=
  ∃ flushedBytes, flushed = some flushedBytes ∧
    flushedBytes < answer.body.length

-- ==================================== programs that leave the source alone

/-- A program leaves the source alone and returns an error. -/
def Refusing (p : Prog SourceDisk SourceLoadResult) : Prop :=
  ∀ disk, p.wp
    (fun ended after => SameSource disk after ∧ ended.status ≠ .ready)
    (SameSource disk) disk

theorem Refusing.cancelled (target : SourceTarget) :
    Refusing (pure (cancelledResult target)) :=
  fun disk => ⟨Std.Refl.refl disk, nofun⟩

theorem Refusing.failed (target : SourceTarget) {status : SourceLoadStatus}
    (hstatus : status ≠ .ready) (message : String) :
    Refusing (pure (failedResult target status message)) :=
  fun disk => ⟨Std.Refl.refl disk, hstatus⟩

/-- A program that leaves the source alone, then one that refuses. -/
theorem Refusing.after {α : Type} {p : Prog SourceDisk α}
    {f : α → Prog SourceDisk SourceLoadResult} (hp : Leaves SameSource p)
    (hf : ∀ a, Refusing (f a)) : Refusing (p >>= f) := by
  intro disk
  rw [wp_bind]
  refine wp_mono (hp disk) ?_ fun _ hC => hC
  intro a after hafter
  refine wp_mono (hf a after) ?_ fun _ hlast => Trans.trans hafter hlast
  rintro ended last ⟨hlast, herror⟩
  exact ⟨Trans.trans hafter hlast, herror⟩

-- ==================================================== settling an answer

variable {target : SourceTarget} {attempt : Attempt} {disk : SourceDisk}
  {prior : Option CopernicusPartialState} {flushed : Option Nat}

/-- What settling an answer may do to the published sources: nothing,
and the result is an error, or the answer passed and the assembled bytes
were published. -/
def Settled (attempt : Attempt) (prior : Option CopernicusPartialState)
    (before : SourceDisk) (result : Option SourceLoadResult)
    (after : SourceDisk) : Prop :=
  after.published = before.published ∧
      (∀ ended, result = some ended → ended.status ≠ .ready) ∨
    attempt.passes prior = true ∧ ∃ bytes,
      before.assembled (attempt.answer.appendsPrior prior
        attempt.answer.body.length) = some bytes ∧
      after.published = before.published ++ [bytes]

/-- Settling an answer leaves one of the two. -/
def Settles (attempt : Attempt) (prior : Option CopernicusPartialState)
    (p : Prog SourceDisk SourceLoadResult) (disk : SourceDisk) : Prop :=
  p.wp (fun ended => Settled attempt prior disk (some ended))
    (Settled attempt prior disk none) disk

/-- Dying before the publication. -/
theorem settled_died {after : SourceDisk} (hsame : SameSource disk after) :
    Settled attempt prior disk none after :=
  Or.inl ⟨hsame.published, nofun⟩

theorem Refusing.settles {p : Prog SourceDisk SourceLoadResult}
    (hp : Refusing p) : Settles attempt prior p disk := by
  refine wp_mono (hp disk) ?_ fun _ => settled_died
  rintro ended after ⟨hsame, herror⟩
  refine Or.inl ⟨hsame.published, ?_⟩
  intro result hresult
  cases hresult
  exact herror

/-- The publication of an answer that passed. -/
theorem publishFinished_settles (hpassed : attempt.passes prior = true) :
    Settles attempt prior (publishFinished target
      (attempt.answer.appendsPrior prior attempt.answer.body.length))
      disk := by
  have hfailed : Refusing (discardIncoming >>= fun _ =>
      pure (failedResult target .readError
        ("Failed to publish complete Copernicus source: "
          ++ target.path))) :=
    Refusing.after discardIncoming_same fun _ => .failed target (by decide) _
  unfold Settles publishFinished publishCopernicusSource
  rw [wp_bind, wp_bind, wp_read]
  cases hassembled : disk.assembled (attempt.answer.appendsPrior prior
    attempt.answer.body.length) with
  | none => exact hfailed.settles
  | some bytes =>
      show (perform _).wp _ _ disk
      rw [wp_perform]
      refine ⟨settled_died (Std.Refl.refl disk), ?_, ?_⟩
      · rw [if_pos rfl]
        have hrest : Leaves SameSource (discardIncoming >>= fun _ =>
            discardPartial >>= fun _ => pure (readyResult target true)) :=
          discardIncoming_same.bind fun _ =>
            discardPartial_same.bind fun _ => .pure _
        refine wp_mono (hrest _) ?_ ?_
        · intro _ after hafter
          exact Or.inr ⟨hpassed, bytes, hassembled, hafter.published⟩
        · intro after hafter
          exact Or.inr ⟨hpassed, bytes, hassembled, hafter.published⟩
      · rw [if_neg (by decide)]
        exact hfailed.settles

/-- A response that could not be stored. -/
theorem refusing_settle_failed (n : Nat) :
    Refusing (settle target attempt prior (n, true)) := by
  unfold settle
  by_cases hcancelled : attempt.cancelledReceiving = true
  · rw [if_pos hcancelled]
    exact Refusing.after discardIncoming_same fun _ => .cancelled target
  · rw [if_neg hcancelled, if_pos rfl]
    exact Refusing.after discardIncoming_same fun _ =>
      .failed target (by decide) _

/-- An answer is published only if it passed. -/
theorem settle_settles :
    Settles attempt prior
      (settle target attempt prior (attempt.answer.body.length, false))
      disk := by
  have hdropped : ∀ {f : Unit → Prog SourceDisk SourceLoadResult},
      (∀ a, Refusing (f a)) →
      Settles attempt prior (discardIncoming >>= f) disk :=
    fun hf => (Refusing.after discardIncoming_same hf).settles
  unfold settle
  by_cases hreceiving : attempt.cancelledReceiving = true
  · rw [if_pos hreceiving]
    exact hdropped fun _ => .cancelled target
  rw [if_neg hreceiving, if_neg Bool.false_ne_true]
  by_cases hmissing : attempt.answer.httpStatus = 404 ∨
      attempt.answer.networkError = .contentNotFound
  · rw [if_pos hmissing]
    exact hdropped fun _ => Refusing.after discardPartial_same fun _ after =>
      ⟨Std.Refl.refl after, nofun⟩
  rw [if_neg hmissing]
  by_cases hinterrupted : attempt.answer.interrupted = true
  · rw [if_pos hinterrupted]
    exact (Refusing.after (keepInterrupted_same _ _ _) fun _ =>
      .failed target (by decide) _).settles
  rw [if_neg hinterrupted]
  by_cases hstatus : attempt.answer.httpStatus ≠ 200 ∧
      attempt.answer.httpStatus ≠ 206
  · rw [if_pos hstatus]
    exact hdropped fun _ => Refusing.after (discardPartialIf_same _)
      fun _ => .failed target (by decide) _
  rw [if_neg hstatus]
  unfold settleFinished
  simp only
  split
  · exact hdropped fun _ => Refusing.after (discardPartialIf_same _)
      fun _ => .failed target (by decide) _
  · rename_i hok
    split
    · exact hdropped fun _ => .cancelled target
    · rename_i hcomplete
      apply publishFinished_settles
      simp only [not_or, not_and_or, not_not] at hmissing hstatus
      simp only [Bool.not_eq_true, Bool.not_eq_false]
        at hreceiving hinterrupted hok hcomplete
      simp only [Attempt.passes, hreceiving, hinterrupted, hok, hcomplete,
        Bool.and_eq_true, Bool.or_eq_true, Bool.not_false, bne_iff_ne,
        beq_iff_eq, and_true, true_and]
      exact ⟨⟨hmissing.1, hmissing.2⟩, hstatus⟩

-- ==================================================== what is published

/-- The bytes a publication copies: the stored prefix if the answer
continues it, then what was flushed of the body. -/
def SourceDisk.copied (disk : SourceDisk) (answer : SourceAnswer)
    (flushed : Option Nat) : Bytes :=
  (if answer.appendsPrior disk.partialState answer.body.length then
    disk.partialFile.getD [] else []) ++ flushedBody flushed answer.body

/-- What an attempt may do to the published sources. -/
def Reached (attempt : Attempt) (flushed : Option Nat) (before : SourceDisk)
    (result : Option SourceLoadResult) (after : SourceDisk) : Prop :=
  after.published = before.published ∧
      (∀ ended, result = some ended → after.answered ≠ before.answered →
        ended.status ≠ .ready) ∨
    attempt.stores = true ∧
      attempt.passes before.partialState = true ∧
      after.published
        = before.published ++ [before.copied attempt.answer flushed]

/-- A partial response is not appended to nothing. -/
theorem appendsPrior_none (answer : SourceAnswer) (n : Nat) :
    answer.appendsPrior none n = false := rfl

/-- A response that passes without a stored prefix is a full one, and
passes with any. -/
theorem passes_none (hpasses : attempt.passes none = true)
    (prior : Option CopernicusPartialState) :
    attempt.passes prior = true ∧ attempt.answer.appendsPrior prior
      attempt.answer.body.length = false := by
  simp only [Attempt.passes, appendsPrior_none, Bool.and_eq_true]
    at hpasses ⊢
  obtain ⟨⟨hearlier, hok⟩, hcomplete⟩ := hpasses
  have hstatus : attempt.answer.httpStatus = 200 := by
    simp only [SourceAnswer.publishable, Bool.false_eq_true, if_false,
      completeCopernicusResponse, Bool.and_eq_true, beq_iff_eq] at hok
    exact hok.1.1
  have hfull : attempt.answer.appendsPrior prior attempt.answer.body.length
      = false := by
    cases prior with
    | none => rfl
    | some state => simp [SourceAnswer.appendsPrior, hstatus]
  rw [hfull]
  exact ⟨⟨⟨hearlier, hok⟩, hcomplete⟩, rfl⟩

/-- The files an answer is settled on, and the state that was loaded. -/
structure Closed (attempt : Attempt) (flushed : Option Nat)
    (prior : Option CopernicusPartialState) (before disk : SourceDisk) :
    Prop extends LoadedPrefix prior before disk where
  published : disk.published = before.published
  incoming : disk.incomingFile
    = some (flushedBody flushed attempt.answer.body)

/-- What settling publishes is copied from the files before. -/
theorem Closed.copied {before : SourceDisk}
    (h : Closed attempt flushed prior before disk)
    (hpasses : attempt.passes prior = true) {bytes : Bytes}
    (hbytes : disk.assembled (attempt.answer.appendsPrior prior
      attempt.answer.body.length) = some bytes) :
    attempt.passes before.partialState = true ∧
      bytes = before.copied attempt.answer flushed := by
  have hwhole : ∀ bytes, disk.assembled false = some bytes →
      bytes = flushedBody flushed attempt.answer.body := by
    intro bytes hbytes
    unfold SourceDisk.assembled at hbytes
    rw [h.incoming] at hbytes
    cases hstored : disk.partialFile with
    | none =>
        rw [hstored] at hbytes
        cases hbytes
        rfl
    | some stored =>
        rw [hstored] at hbytes
        cases hbytes
        rfl
  rcases h.loaded with hnone | hloaded
  · rw [hnone] at hpasses hbytes
    obtain ⟨hpassed, hfull⟩ := passes_none hpasses before.partialState
    refine ⟨hpassed, ?_⟩
    rw [SourceDisk.copied, hfull]
    exact hwhole bytes hbytes
  · rw [hloaded] at hpasses hbytes
    refine ⟨hpasses, ?_⟩
    cases happend : attempt.answer.appendsPrior before.partialState
      attempt.answer.body.length with
    | false =>
        rw [happend] at hbytes
        rw [SourceDisk.copied, happend]
        exact hwhole bytes hbytes
    | true =>
        obtain ⟨state, hstate, -⟩ := appendsPrior_true happend
        obtain ⟨stored, -, hstored, -⟩ := loadPartialState_some hstate
        have hkept := (h.kept state (hloaded.trans hstate)).1
        rw [hstored] at hkept
        rw [happend, SourceDisk.assembled, h.incoming, hkept] at hbytes
        cases hbytes
        rw [SourceDisk.copied, happend, hstored]
        rfl

/-- Settling, seen from the start of the attempt. -/
theorem Closed.reaches {before : SourceDisk}
    (h : Closed attempt flushed prior before disk)
    (hstores : attempt.stores = true) :
    (settle target attempt prior (attempt.answer.body.length, false)).wp
      (fun ended => Reached attempt flushed before (some ended))
      (Reached attempt flushed before none) disk := by
  have hlift : ∀ result after, Settled attempt prior disk result after →
      Reached attempt flushed before result after := by
    intro result after hsettled
    rcases hsettled with ⟨hsame, herror⟩ | ⟨hpasses, bytes, hbytes, hpublished⟩
    · exact Or.inl ⟨hsame.trans h.published, fun ended hended _ =>
        herror ended hended⟩
    · obtain ⟨hpassed, hcopied⟩ := h.copied hpasses hbytes
      rw [h.published, hcopied] at hpublished
      exact Or.inr ⟨hstores, hpassed, hpublished⟩
  exact wp_mono settle_settles (fun _ _ => hlift _ _) fun _ => hlift _ _

theorem Refusing.reaches {p : Prog SourceDisk SourceLoadResult}
    (hp : Refusing p) {before : SourceDisk}
    (hpublished : disk.published = before.published) :
    p.wp (fun ended => Reached attempt flushed before (some ended))
      (Reached attempt flushed before none) disk := by
  refine wp_mono (hp disk) ?_ ?_
  · rintro ended after ⟨hsame, herror⟩
    refine Or.inl ⟨hsame.published.trans hpublished, ?_⟩
    intro result hresult _
    cases hresult
    exact herror
  · intro after hsame
    exact Or.inl ⟨hsame.published.trans hpublished, nofun⟩

-- ============================================================ an attempt

/-- Closing leaves what was flushed. -/
theorem wp_closeIncoming {C : SourceDisk → Prop}
    {R : Unit → SourceDisk → Prop} (hC : C disk)
    (hR : R () { disk with
      incomingFile := disk.incomingFile.map (flushedBody flushed) }) :
    (closeIncoming flushed).wp R C disk := by
  cases flushed with
  | none =>
      have hsame : disk.incomingFile.map (flushedBody none)
          = disk.incomingFile := by
        cases disk.incomingFile with
        | none => rfl
        | some bytes => rfl
      rw [hsame] at hR
      exact hR
  | some flushedBytes =>
      rw [closeIncoming, wp_always]
      exact ⟨hC, hR⟩

/-- What any run of an attempt may publish. -/
theorem downloadSourceTileFlushing_reaches :
    (downloadSourceTileFlushing target flushed attempt).wp
      (fun ended => Reached attempt flushed disk (some ended))
      (Reached attempt flushed disk none) disk := by
  unfold downloadSourceTileFlushing
  apply wp_downloadSourceTileClosing
  · intro result after hdrops _
    exact Or.inl ⟨hdrops.published, fun _ _ hne =>
      absurd hdrops.answered hne⟩
  · intro prior count after hreceived
    have hpublished : after.published = disk.published :=
      hreceived.drops.published
    rw [wp_bind]
    apply wp_closeIncoming
    · exact Or.inl ⟨hpublished, nofun⟩
    obtain ⟨n, failed⟩ := count
    cases failed with
    | true => exact (refusing_settle_failed n).reaches hpublished
    | false =>
        obtain ⟨hstores, rfl, hincoming⟩ := hreceived.whole rfl
        refine Closed.reaches ⟨⟨hreceived.loaded, hreceived.kept⟩, hpublished,
          ?_⟩ hstores
        rw [hincoming]
        rfl
  · rintro after (hdrops | hdrops)
    · exact Or.inl ⟨hdrops.published, nofun⟩
    · exact Or.inl ⟨hdrops.published, nofun⟩

/-- Without failures an answer that passes is published. -/
theorem succeed_settle_passed {bytes : Bytes}
    (hpasses : attempt.passes prior = true)
    (hbytes : disk.assembled (attempt.answer.appendsPrior prior
      attempt.answer.body.length) = some bytes) :
    ((settle target attempt prior
        (attempt.answer.body.length, false)).succeed disk).2.published
      = disk.published ++ [bytes] := by
  simp only [Attempt.passes, Bool.and_eq_true, Bool.or_eq_true,
    Bool.not_eq_true', bne_iff_ne, beq_iff_eq] at hpasses
  obtain ⟨⟨⟨⟨⟨⟨hreceiving, hfound⟩, hcontent⟩, hfinished⟩, hstatus⟩, hok⟩,
    hcomplete⟩ := hpasses
  rw [settle, if_neg (by rw [hreceiving]; decide),
    if_neg Bool.false_ne_true,
    if_neg (by rw [not_or]; exact ⟨hfound, hcontent⟩),
    if_neg (by rw [hfinished]; decide), if_neg (by omega), settleFinished,
    if_neg (by rw [hok]; decide), if_neg (by rw [hcomplete]; decide),
    publishFinished, publishCopernicusSource, succeed_bind, succeed_bind,
    succeed_read, hbytes]
  rfl

/-- The files when an answer is settled, with what was flushed of it. -/
def SourceDisk.closed (disk : SourceDisk) (flushed : Option Nat)
    (answer : SourceAnswer) : SourceDisk :=
  { disk.staged answer with
    incomingFile := some (flushedBody flushed answer.body) }

theorem succeed_closeIncoming (answer : SourceAnswer) :
    ((closeIncoming flushed).succeed (disk.staged answer)).2
      = disk.closed flushed answer := by
  cases flushed with
  | none => rfl
  | some flushedBytes => rfl

/-- The bytes of a publication, when the answer is settled. -/
theorem closed_assembled (flushed : Option Nat) :
    (disk.closed flushed attempt.answer).assembled
        (attempt.answer.appendsPrior disk.partialState
          attempt.answer.body.length)
      = some (disk.copied attempt.answer flushed) := by
  have hincoming : (disk.closed flushed attempt.answer).incomingFile
      = some (flushedBody flushed attempt.answer.body) := rfl
  cases happend : attempt.answer.appendsPrior disk.partialState
    attempt.answer.body.length with
  | true =>
      obtain ⟨state, hstate, -⟩ := appendsPrior_true happend
      obtain ⟨stored, -, hstored, -⟩ := loadPartialState_some hstate
      have hkept : (disk.closed flushed attempt.answer).partialFile
          = some stored := by
        show (if disk.partialState.isNone then none else disk.partialFile) = _
        rw [hstate]
        exact hstored
      rw [SourceDisk.copied, happend, SourceDisk.assembled, hincoming, hkept,
        hstored]
      rfl
  | false =>
      rw [SourceDisk.copied, happend, SourceDisk.assembled, hincoming]
      cases (disk.closed flushed attempt.answer).partialFile with
      | none => rfl
      | some stored => rfl

/-- Some run of an attempt that stores an answer receives it. -/
theorem receiveSource_can (target : SourceTarget) (disk : SourceDisk)
    (hstores : attempt.stores = true)
    {R : Reception → SourceDisk → Prop}
    (hR : R (.received disk.partialState (attempt.answer.body.length, false))
      (disk.staged attempt.answer)) :
    (receiveSource target attempt).can R disk := by
  simp only [Attempt.stores, Bool.and_eq_true, Bool.not_eq_true',
    beq_iff_eq, decide_eq_true_eq] at hstores
  obtain ⟨⟨⟨⟨⟨⟨hstart, hremote⟩, hwait⟩, hlocked⟩, hgeneration⟩, htoken⟩,
    hwithin⟩ := hstores
  -- A source that is in place may be unreadable.
  have hunready : ∀ {R : Bool → SourceDisk → Prop}, R false disk →
      sourceReady.can R disk := by
    intro R hR
    rw [sourceReady, can_bind, probe, can_perform]
    exact Or.inr hR
  rw [receiveSource, if_neg (by rw [hstart]; decide), can_bind]
  apply hunready
  rw [if_neg (by decide), if_neg (by rw [hremote]; decide), can_bind, probe,
    can_perform]
  refine Or.inl ?_
  rw [if_pos rfl]
  unfold lockSource
  rw [hwait]
  show (if attempt.cancelledLocked = true then _ else _ : Prog _ _).can
    _ disk
  rw [if_neg (by rw [hlocked]; decide), can_bind]
  apply hunready
  rw [if_neg (by decide)]
  apply can_succeed
  rw [succeed_stageSource hgeneration htoken hwithin]
  exact hR

/-- Some run of an attempt whose answer passes publishes it. -/
theorem downloadSourceTileFlushing_can (hstores : attempt.stores = true)
    (hpasses : attempt.passes disk.partialState = true) :
    (downloadSourceTileFlushing target flushed attempt).can
      (fun _ after => after.published
        = disk.published ++ [disk.copied attempt.answer flushed]) disk := by
  unfold downloadSourceTileFlushing downloadSourceTileClosing
  rw [can_bind]
  apply receiveSource_can target disk hstores
  apply can_succeed
  simp only [succeed_bind]
  rw [succeed_closeIncoming]
  exact succeed_settle_passed hpasses (closed_assembled flushed)

-- ============================================================ the result

/-- The length that is expected is that of the stored prefix and the
body, if the answer passes. -/
theorem expectedTotal_passes
    (hpasses : attempt.passes disk.partialState = true) :
    expectedTotal attempt.answer disk.partialState
      = some (disk.copied attempt.answer none).length := by
  simp only [Attempt.passes, Bool.and_eq_true, Bool.or_eq_true,
    beq_iff_eq] at hpasses
  obtain ⟨⟨⟨-, hstatus⟩, hok⟩, -⟩ := hpasses
  rw [SourceDisk.copied, List.length_append]
  show _ = some (_ + attempt.answer.body.length)
  cases happend : attempt.answer.appendsPrior disk.partialState
    attempt.answer.body.length with
  | true =>
      obtain ⟨state, hstate, hpart, -, htotal, -⟩ := appendsPrior_true happend
      obtain ⟨stored, -, hstored, -, hsize, -⟩ := loadPartialState_some hstate
      rw [expectedTotal, if_pos hpart, hstate, if_pos rfl, hstored]
      show some state.totalBytes = some (stored.length + _)
      rw [hsize, htotal]
  | false =>
      rw [happend] at hok
      simp only [SourceAnswer.publishable, Bool.false_eq_true, if_false,
        completeCopernicusResponse, Bool.and_eq_true, Bool.or_eq_true,
        beq_iff_eq, decide_eq_true_eq] at hok
      obtain ⟨⟨hfull, -⟩, hlength⟩ := hok
      rw [expectedTotal, if_neg (by rw [hfull]; decide),
        SourceAnswer.declaredLength, if_neg Bool.false_ne_true,
        List.length_nil, Nat.zero_add]
      cases hdeclared : attempt.answer.contentLength with
      | none => rfl
      | some length =>
          rw [hdeclared, Option.getD_some] at hlength
          rw [Option.bind_some]
          split
          · rw [Option.getD_some]
            congr 1
            omega
          · rfl

/-- What is copied is short by the bytes that were lost. -/
theorem copied_length_iff (disk : SourceDisk) (answer : SourceAnswer)
    (flushed : Option Nat) :
    (disk.copied answer flushed).length = (disk.copied answer none).length ↔
      ¬ Lost flushed answer := by
  rw [SourceDisk.copied, SourceDisk.copied, List.length_append,
    List.length_append, Nat.add_left_cancel_iff]
  cases flushed with
  | none =>
      refine iff_of_true rfl ?_
      rintro ⟨_, hnone, -⟩
      cases hnone
  | some flushedBytes =>
      show (answer.body.take flushedBytes).length = answer.body.length ↔ _
      rw [List.length_take]
      constructor
      · rintro hlength ⟨_, hsome, hlt⟩
        cases hsome
        omega
      · intro hkept
        have hle : ¬ flushedBytes < answer.body.length := fun hlt =>
          hkept ⟨flushedBytes, rfl, hlt⟩
        omega

/-- **When no truncated source is published.** An attempt publishes a
source of the expected length or returns an error and publishes nothing,
whichever file operations fail and wherever the process dies, exactly if
closing the incoming file lost nothing, the attempt stores no answer, or
the answer does not pass the checks. -/
theorem flushed_whole_iff (target : SourceTarget) (flushed : Option Nat)
    (attempt : Attempt) (disk : SourceDisk) :
    (∀ fates : List Bool,
      FlushOutcome (expectedTotal attempt.answer disk.partialState) disk
        ((downloadSourceTileFlushing target flushed attempt).exec fates
          disk).1
        ((downloadSourceTileFlushing target flushed attempt).exec fates
          disk).2) ↔
      ¬ Lost flushed attempt.answer ∨ attempt.stores = false ∨
        attempt.passes disk.partialState = false := by
  constructor
  · intro hwhole
    by_contra hbad
    simp only [not_or, not_not, Bool.not_eq_false] at hbad
    obtain ⟨hlost, hstores, hpasses⟩ := hbad
    have hcan : (downloadSourceTileFlushing target flushed attempt).can _ _ :=
      downloadSourceTileFlushing_can hstores hpasses
    obtain ⟨fates, _, _, hpublished⟩ := exec_can hcan
    cases hwhole fates with
    | unpublished same error =>
        rw [same] at hpublished
        have hlength := congrArg List.length hpublished
        rw [List.length_append, List.length_singleton] at hlength
        omega
    | whole bytes published total =>
        rw [published] at hpublished
        have hbytes := List.append_cancel_left hpublished
        cases hbytes
        refine (copied_length_iff disk attempt.answer flushed).1 ?_ hlost
        rw [expectedTotal_passes hpasses] at total
        exact (Option.some.inj total).symm
  · intro hcondition fates
    have hlift : ∀ result after, Reached attempt flushed disk result after →
        FlushOutcome (expectedTotal attempt.answer disk.partialState) disk
          result after := by
      rintro result after (⟨hsame, herror⟩ | ⟨hstores, hpasses, hpublished⟩)
      · exact .unpublished hsame herror
      · refine .whole _ hpublished ?_
        rw [expectedTotal_passes hpasses]
        congr 1
        apply Eq.symm
        apply (copied_length_iff disk attempt.answer flushed).2
        rcases hcondition with hkept | hstores' | hpasses'
        · exact hkept
        · rw [hstores] at hstores'
          cases hstores'
        · rw [hpasses] at hpasses'
          cases hpasses'
    have hspec : (downloadSourceTileFlushing target flushed attempt).wp
        _ _ disk := downloadSourceTileFlushing_reaches
    rcases exec_spec hspec fates with
      ⟨ended, hended, hreached⟩ | ⟨hdied, hreached⟩
    · rw [hended]
      exact hlift _ _ hreached
    · rw [hdied]
      exact hlift _ _ hreached

/-- A full response of four declared bytes, all received. -/
def fourBytes : Attempt where
  answer :=
    { httpStatus := 200
      contentLength := some 4
      chunks := [[1, 2, 3, 4]] }

/-- Two of four bytes are flushed, and the two are published as the
source. -/
theorem flushed_truncated :
    ¬ ∀ (target : SourceTarget) (flushed : Option Nat) (attempt : Attempt)
        (disk : SourceDisk) (fates : List Bool),
      FlushOutcome (expectedTotal attempt.answer disk.partialState) disk
        ((downloadSourceTileFlushing target flushed attempt).exec fates
          disk).1
        ((downloadSourceTileFlushing target flushed attempt).exec fates
          disk).2 := by
  intro hclaim
  have hrun : ((downloadSourceTileFlushing
      ⟨"cache", "cache/n.tif", "http://n"⟩ (some 2) fourBytes).exec
      (List.replicate 20 true) {}).2.published = [[1, 2]] := by
    decide +kernel
  cases hclaim ⟨"cache", "cache/n.tif", "http://n"⟩ (some 2) fourBytes {}
      (List.replicate 20 true) with
  | unpublished same error =>
      rw [hrun] at same
      cases same
  | whole bytes published total =>
      rw [hrun] at published
      cases published
      exact absurd total (by decide)

end AowisMap.Terrain
