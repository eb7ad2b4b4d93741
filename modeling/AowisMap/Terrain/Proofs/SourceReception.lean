/-
The first half of an attempt: what it does to the files of a source before
an answer is settled.

# What stays

Whatever fails, the source itself and what was published stay, and of the
stored prefix a file is what it was or gone (`Drops`). An answer that was
received comes with the state that was loaded before it was asked for, and
unless writing failed the incoming file holds its body (`AnswerReceived`).
`receiveSource_spec` is the whole of it; the results about attempts start
from there (`wp_downloadSourceTileClosing`).
-/
import AowisMap.Terrain.SourceDownload

namespace AowisMap.Terrain

open Lib Prog Lib.QByteArray

-- =============================================================== relations

/-- The source, the answers for it and what was published are what they
were. -/
structure SameSource (disk after : SourceDisk) : Prop where
  finalFile : after.finalFile = disk.finalFile
  answered : after.answered = disk.answered
  published : after.published = disk.published

/-- Of the stored prefix nothing is new. -/
structure Drops (disk after : SourceDisk) : Prop
    extends SameSource disk after where
  partialFile : after.partialFile = disk.partialFile ∨
    after.partialFile = none
  metadataFile : after.metadataFile = disk.metadataFile ∨
    after.metadataFile = none

instance : Std.Refl SameSource := ⟨fun _ => ⟨rfl, rfl, rfl⟩⟩

instance : Trans SameSource SameSource SameSource where
  trans h h' := ⟨h'.finalFile.trans h.finalFile,
    h'.answered.trans h.answered, h'.published.trans h.published⟩

/-- A file that may be gone, twice. -/
theorem kept_or_gone {file file' file'' : Option Bytes}
    (h : file' = file ∨ file' = none) (h' : file'' = file' ∨ file'' = none) :
    file'' = file ∨ file'' = none := by
  rcases h' with rfl | hgone
  · exact h
  · exact Or.inr hgone

instance : Std.Refl Drops :=
  ⟨fun disk => ⟨Std.Refl.refl disk, Or.inl rfl, Or.inl rfl⟩⟩

instance : Trans Drops Drops Drops where
  trans h h' := ⟨Trans.trans h.toSameSource h'.toSameSource,
    kept_or_gone h.partialFile h'.partialFile,
    kept_or_gone h.metadataFile h'.metadataFile⟩

-- ================================================================ programs

section

variable {R : SourceDisk → SourceDisk → Prop} [Std.Refl R]

/-- Asking for a file changes nothing. -/
theorem leaves_probe : Leaves R probe := .perform fun disk => Std.Refl.refl disk

/-- Nor does reading the metadata of a prefix. -/
theorem leaves_loadPartialState [Trans R R R] :
    Leaves R loadCopernicusPartialState :=
  leaves_probe.bind fun _ => .read _

end

/-- Discarding takes a file away or fails to: the staging file, -/
theorem discardIncoming_drops : Leaves Drops discardIncoming :=
  .unchecked fun _ => ⟨⟨rfl, rfl, rfl⟩, Or.inl rfl, Or.inl rfl⟩

/-- the prefix and its metadata, -/
theorem discardPartial_drops : Leaves Drops discardPartial := by
  unfold discardPartial
  refine Leaves.bind ?_ fun _ => ?_
  · exact .unchecked fun _ => ⟨⟨rfl, rfl, rfl⟩, Or.inr rfl, Or.inl rfl⟩
  · exact .unchecked fun _ => ⟨⟨rfl, rfl, rfl⟩, Or.inl rfl, Or.inr rfl⟩

/-- or nothing, if the prefix is of use. -/
theorem discardPartialIf_drops (unusable : Bool) :
    Leaves Drops (discardPartialIf unusable) :=
  .ite discardPartial_drops (.pure ())

/-- The published source is none of these files. -/
theorem Drops.same {disk after : SourceDisk} (h : Drops disk after) :
    SameSource disk after := h.toSameSource

/-- It stays as it is while staging files are discarded, -/
theorem discardIncoming_same : Leaves SameSource discardIncoming :=
  discardIncoming_drops.mono fun _ _ => Drops.same

/-- and prefixes, -/
theorem discardPartial_same : Leaves SameSource discardPartial :=
  discardPartial_drops.mono fun _ _ => Drops.same

/-- whether they are of use or not, -/
theorem discardPartialIf_same (unusable : Bool) :
    Leaves SameSource (discardPartialIf unusable) :=
  (discardPartialIf_drops unusable).mono fun _ _ => Drops.same

/-- while metadata are saved, -/
theorem savePartialState_same (state : CopernicusPartialState) :
    Leaves SameSource (saveCopernicusPartialState state) :=
  .ite (.perform fun _ => ⟨rfl, rfl, rfl⟩) (.pure _)

/-- while a response becomes a prefix, -/
theorem renameIncoming_same : Leaves SameSource renameIncoming :=
  (Leaves.read _).bind fun _ =>
    .ite (.pure _) (.perform fun _ => ⟨rfl, rfl, rfl⟩)

/-- with all that goes with it, -/
theorem keepFull_same (state : CopernicusPartialState) :
    Leaves SameSource (keepFull state) :=
  discardPartial_same.bind fun _ => renameIncoming_same.bind fun _ =>
    .ite ((savePartialState_same state).bind fun _ =>
        .ite (.pure ()) discardPartial_same)
      discardIncoming_same

/-- and while a suffix is appended to one. -/
theorem appendSuffix_same (old : CopernicusPartialState)
    (suffixBytes : Nat) :
    Leaves SameSource (appendCopernicusPartialSuffix old suffixBytes) := by
  unfold appendCopernicusPartialSuffix
  refine .ite (.pure _) (leaves_loadPartialState.bind fun _ => ?_)
  refine (Leaves.read _).bind fun _ => .ite (.pure _) ?_
  refine Leaves.bind (.perform fun _ => ⟨rfl, rfl, rfl⟩) fun _ => ?_
  exact .ite (savePartialState_same _) (.pure _)

/-- What is kept of an interrupted transfer does not touch the source. -/
theorem keepInterrupted_same (answer : SourceAnswer)
    (prior : Option CopernicusPartialState) (downloadedBytes : Nat) :
    Leaves SameSource (keepInterrupted answer prior downloadedBytes) := by
  unfold keepInterrupted
  split
  · exact keepFull_same _
  · refine .ite ?_ discardIncoming_same
    exact .ite ((appendSuffix_same _ _).bind fun _ => discardIncoming_same)
      discardIncoming_same
  · exact discardIncoming_same

-- ============================================================ first half

/-- The state the partial file and its metadata load as. -/
def SourceDisk.partialState (disk : SourceDisk) :
    Option CopernicusPartialState :=
  loadPartialState disk.partialFile disk.metadataFile
    maximumSourceDownloadBytes

/-- One more answer was received. -/
def SourceDisk.answeredBy (disk : SourceDisk) (answer : SourceAnswer) :
    SourceDisk :=
  { disk with answered := disk.answered ++ [answer] }

/-- Whether the attempt stores an answer where no readable source is in
place: nothing is cancelled before, and the body is within the limit. -/
def Attempt.stores (attempt : Attempt) : Bool :=
  !attempt.cancelledAtStart && attempt.allowRemoteFetch &&
    attempt.lockWait == .taken && !attempt.cancelledLocked &&
    !attempt.generationCancelledStaged && !attempt.tokenCancelledStaged &&
    decide (attempt.answer.body.length ≤ maximumSourceDownloadBytes)

/-- An early result: a source that is there, one that may not be fetched,
or a failure. -/
structure EarlyResult (attempt : Attempt) (before : SourceDisk)
    (result : SourceLoadResult) : Prop where
  ready : result.status = .ready → before.isLocal = true
  unavailable : result.status = .unavailable →
    attempt.allowRemoteFetch = false
  unconfirmed : result.sourceConfirmedUnavailable = false

/-- The state that was loaded, and its files, as long as an answer is
waited for. -/
structure LoadedPrefix (prior : Option CopernicusPartialState)
    (before disk : SourceDisk) : Prop where
  loaded : prior = none ∨ prior = before.partialState
  kept : ∀ state, prior = some state →
    disk.partialFile = before.partialFile ∧
      disk.metadataFile = before.metadataFile

/-- An answer was received. -/
structure AnswerReceived (attempt : Attempt) (before : SourceDisk)
    (prior : Option CopernicusPartialState) (count : Nat × Bool)
    (after : SourceDisk) : Prop extends LoadedPrefix prior before after where
  drops : Drops (before.answeredBy attempt.answer) after
  whole : count.2 = false → attempt.stores = true ∧
    count.1 = attempt.answer.body.length ∧
    after.incomingFile = some attempt.answer.body

/-- What the first half of an attempt comes to. -/
def Receives (attempt : Attempt) (before : SourceDisk) :
    Reception → SourceDisk → Prop
  | .returned result, after =>
      Drops before after ∧ EarlyResult attempt before result
  | .received prior count, after =>
      AnswerReceived attempt before prior count after

/-- Where the process dies in the first half. -/
def DiedReceiving (attempt : Attempt) (before after : SourceDisk) : Prop :=
  Drops before after ∨ Drops (before.answeredBy attempt.answer) after

variable {target : SourceTarget} {attempt : Attempt}
  {before disk : SourceDisk} {prior : Option CopernicusPartialState}

/-- The program is the first half of an attempt, or its rest. -/
def ReceivingFrom (attempt : Attempt) (before : SourceDisk)
    (p : Prog SourceDisk Reception) (disk : SourceDisk) : Prop :=
  p.wp (Receives attempt before) (DiedReceiving attempt before) disk

/-- A request that was cancelled returns early. -/
theorem cancelled_early :
    EarlyResult attempt before (cancelledResult target) :=
  ⟨nofun, nofun, rfl⟩

/-- So does one that fails. -/
theorem failed_early {message : String} :
    EarlyResult attempt before (failedResult target .readError message) :=
  ⟨nofun, nofun, rfl⟩

/-- An early return. -/
theorem Drops.returns (h : Drops before disk) {result : SourceLoadResult}
    (hresult : EarlyResult attempt before result) :
    ReceivingFrom attempt before (pure (.returned result)) disk :=
  ⟨h, hresult⟩

/-- Operations that drop files, then the rest. -/
theorem Drops.followed {A : Type} {p : Prog SourceDisk A}
    {f : A → Prog SourceDisk Reception} (h : Drops before disk)
    (hp : Leaves Drops p)
    (hf : ∀ a after, Drops before after →
      ReceivingFrom attempt before (f a) after) :
    ReceivingFrom attempt before (p >>= f) disk := by
  unfold ReceivingFrom
  rw [wp_bind]
  refine wp_mono (hp disk) ?_ fun _ hlast => Or.inl (Trans.trans h hlast)
  exact fun a after hlast => hf a after (Trans.trans h hlast)

/-- The read loop changes the incoming file only; unless writing failed
that file then ends with the whole body, which is within the limit. -/
theorem wp_receive {C : SourceDisk → Prop} {chunks : List Bytes}
    {stored : Bytes} {n : Nat} {R : Nat × Bool → SourceDisk → Prop}
    (hC : ∀ incoming, C { disk with incomingFile := incoming })
    (hstored : disk.incomingFile = some stored)
    (hlimit : n ≤ maximumSourceDownloadBytes)
    (hfailed : ∀ m incoming,
      R (m, true) { disk with incomingFile := incoming })
    (hdone : n + chunks.flatten.length ≤ maximumSourceDownloadBytes →
      R (n + chunks.flatten.length, false)
        { disk with incomingFile := some (stored ++ chunks.flatten) }) :
    (receive chunks n).wp R C disk := by
  induction chunks generalizing disk stored n with
  | nil =>
      have hsame : { disk with incomingFile := some stored } = disk := by
        rw [← hstored]
      simp only [List.flatten_nil, List.length_nil, List.append_nil,
        Nat.add_zero, hsame] at hdone
      exact hdone hlimit
  | cons data rest ih =>
      rw [receive, wp_ite]
      refine ⟨fun _ => hfailed _ disk.incomingFile, ?_⟩
      intro hfits
      rw [Nat.not_lt] at hfits
      rw [wp_bind, wp_perform]
      refine ⟨hC disk.incomingFile, ?_, ?_⟩
      · rw [if_pos rfl]
        have hwritten : (disk.incomingFile.map fun bytes => bytes ++ data)
            = some (stored ++ data) := by
          rw [hstored]
          rfl
        refine ih hC hwritten hfits hfailed ?_
        intro hall
        rw [List.flatten_cons, List.length_append, ← Nat.add_assoc,
          ← List.append_assoc] at hdone
        exact hdone hall
      · rw [if_neg (by decide)]
        exact hfailed _ disk.incomingFile

/-- A request and its answer. -/
theorem requestSource_receives (h : Drops before disk)
    (hloaded : LoadedPrefix prior before disk)
    (hincoming : disk.incomingFile = some [])
    (hstores : attempt.answer.body.length ≤ maximumSourceDownloadBytes →
      attempt.stores = true) :
    ReceivingFrom attempt before (requestSource attempt prior) disk := by
  have hanswered : ∀ incoming, Drops (before.answeredBy attempt.answer)
      { disk with
        answered := disk.answered ++ [attempt.answer]
        incomingFile := incoming } := by
    intro incoming
    refine ⟨⟨h.finalFile, ?_, h.published⟩, h.partialFile, h.metadataFile⟩
    show disk.answered ++ [attempt.answer] = _
    rw [h.answered]
    rfl
  unfold ReceivingFrom requestSource
  rw [wp_bind, wp_always]
  refine ⟨Or.inl h, ?_⟩
  rw [wp_bind]
  refine wp_receive (fun incoming => Or.inr (hanswered incoming)) hincoming
    (Nat.zero_le _) ?_ ?_
  · intro n incoming
    refine ⟨⟨hloaded.loaded, hloaded.kept⟩, hanswered incoming, ?_⟩
    intro hfalse
    cases hfalse
  · intro hwithin
    rw [Nat.zero_add] at hwithin
    simp only [Nat.zero_add, List.nil_append]
    exact ⟨⟨hloaded.loaded, hloaded.kept⟩, hanswered _,
      fun _ => ⟨hstores hwithin, rfl, rfl⟩⟩

/-- Once the prefix that did not load was dropped. -/
theorem openedSource_receives (h : Drops before disk)
    (hloaded : LoadedPrefix prior before disk)
    (hstores : attempt.generationCancelledStaged = false →
      attempt.tokenCancelledStaged = false →
      attempt.answer.body.length ≤ maximumSourceDownloadBytes →
      attempt.stores = true) :
    ReceivingFrom attempt before (discardIncoming >>= fun _ =>
      (perform fun disk => { disk with incomingFile := some [] }) >>=
        fun opened => openedSource target attempt prior opened) disk := by
  have hrest : ∀ incoming : Option Bytes,
      let after := { disk with incomingFile := incoming }
      Drops before after ∧ LoadedPrefix prior before after := fun incoming =>
    ⟨⟨⟨h.finalFile, h.answered, h.published⟩, h.partialFile,
      h.metadataFile⟩, hloaded.loaded, hloaded.kept⟩
  have hopen : ∀ incoming : Option Bytes,
      ReceivingFrom attempt before
        ((perform fun disk => { disk with incomingFile := some [] }) >>=
          fun opened => openedSource target attempt prior opened)
        { disk with incomingFile := incoming } := by
    intro incoming
    unfold ReceivingFrom
    rw [wp_bind, wp_perform]
    refine ⟨Or.inl (hrest incoming).1, ?_,
      (hrest incoming).1.returns failed_early⟩
    unfold openedSource
    rw [if_neg (by decide)]
    by_cases hgeneration : attempt.generationCancelledStaged = true
    · rw [if_pos hgeneration]
      exact (hrest (some [])).1.returns cancelled_early
    rw [if_neg hgeneration]
    by_cases htoken : attempt.tokenCancelledStaged = true
    · rw [if_pos htoken]
      exact (hrest (some [])).1.followed discardIncoming_drops
        fun _ _ hafter => hafter.returns cancelled_early
    rw [if_neg htoken]
    rw [Bool.not_eq_true] at hgeneration htoken
    exact requestSource_receives (hrest (some [])).1 (hrest (some [])).2 rfl
      (hstores hgeneration htoken)
  unfold ReceivingFrom
  rw [wp_bind, discardIncoming, wp_unchecked]
  exact ⟨Or.inl h, hopen none, hopen disk.incomingFile⟩

/-- Loading reads what the files hold, or nothing. -/
theorem wp_loadPartialState {C : SourceDisk → Prop}
    {R : Option CopernicusPartialState → SourceDisk → Prop} :
    loadCopernicusPartialState.wp R C disk ↔
      C disk ∧ R disk.partialState disk ∧ R none disk := by
  simp only [loadCopernicusPartialState, probe, wp_bind, wp_perform, wp_read,
    id, SourceDisk.partialState, if_true, Bool.false_eq_true, if_false]

/-- With the source lock held. -/
theorem stageSource_receives
    (hstores : attempt.generationCancelledStaged = false →
      attempt.tokenCancelledStaged = false →
      attempt.answer.body.length ≤ maximumSourceDownloadBytes →
      attempt.stores = true) :
    ReceivingFrom attempt disk (stageSource target attempt) disk := by
  have hsame : Drops disk disk := Std.Refl.refl disk
  have hrest : ∀ prior, (prior = none ∨ prior = disk.partialState) →
      ReceivingFrom attempt disk
        (discardPartialIf prior.isNone >>= fun _ => discardIncoming >>= fun _ =>
          (perform fun disk => { disk with incomingFile := some [] }) >>=
            fun opened => openedSource target attempt prior opened)
        disk := by
    intro prior hprior
    cases prior with
    | none =>
        refine hsame.followed discardPartial_drops fun _ after hafter => ?_
        refine openedSource_receives hafter ⟨Or.inl rfl, ?_⟩ hstores
        intro state hstate
        cases hstate
    | some state =>
        exact openedSource_receives hsame ⟨hprior, fun _ _ => ⟨rfl, rfl⟩⟩
          hstores
  unfold ReceivingFrom stageSource
  rw [wp_bind, wp_loadPartialState]
  exact ⟨Or.inl hsame, hrest _ (Or.inr rfl), hrest _ (Or.inl rfl)⟩

/-- A look at the source that is in place. -/
theorem sourceReady_receives {p : Prog SourceDisk Reception}
    (hp : ReceivingFrom attempt disk p disk) :
    ReceivingFrom attempt disk (sourceReady >>= fun ready =>
      if ready then pure (.returned (readyResult target false)) else p)
      disk := by
  have hsame : Drops disk disk := Std.Refl.refl disk
  unfold ReceivingFrom
  simp only [sourceReady, probe, wp_bind, wp_perform, wp_read, id,
    Bool.true_and, Bool.false_and]
  refine ⟨Or.inl hsame, ?_, hp⟩
  cases hlocal : disk.isLocal with
  | true =>
    refine ⟨hsame, fun _ => hlocal, fun hfailed => ?_, rfl⟩
    cases hfailed
  | false => exact hp

/-- **The first half of an attempt.** It returns early or ends with an
answer that was received, and touches the source in neither case. -/
theorem receiveSource_spec (target : SourceTarget) (attempt : Attempt)
    (disk : SourceDisk) :
    ReceivingFrom attempt disk (receiveSource target attempt) disk := by
  have hsame : Drops disk disk := Std.Refl.refl disk
  unfold receiveSource
  by_cases hstart : attempt.cancelledAtStart = true
  · rw [if_pos hstart]
    exact hsame.returns ⟨nofun, nofun, rfl⟩
  rw [if_neg hstart]
  apply sourceReady_receives
  by_cases hremote : attempt.allowRemoteFetch = false
  · rw [if_pos hremote]
    exact hsame.returns ⟨nofun, fun _ => hremote, rfl⟩
  rw [if_neg hremote]
  unfold ReceivingFrom
  rw [wp_bind, probe, wp_perform]
  refine ⟨Or.inl hsame, ?_, hsame.returns failed_early⟩
  rw [if_pos rfl]
  unfold lockSource
  cases hwait : attempt.lockWait with
  | cancelled => exact hsame.returns cancelled_early
  | timedOut => exact hsame.returns failed_early
  | taken =>
      by_cases hlocked : attempt.cancelledLocked = true
      · rw [if_pos hlocked]
        exact hsame.returns cancelled_early
      rw [if_neg hlocked]
      apply sourceReady_receives
      apply stageSource_receives
      intro hgeneration htoken hwithin
      rw [Bool.not_eq_true] at hstart hlocked
      rw [Bool.not_eq_false] at hremote
      simp only [Attempt.stores, hstart, hremote, hwait, hlocked,
        hgeneration, htoken, hwithin, Bool.not_false, Bool.and_true,
        decide_true, beq_self_eq_true]

/-- An attempt: what holds of early results and of the settling of every
answer that can have been received, holds of it. -/
theorem wp_downloadSourceTileClosing {close : Prog SourceDisk Unit}
    {Q : SourceLoadResult → SourceDisk → Prop} {C : SourceDisk → Prop}
    (hearly : ∀ result after, Drops disk after →
      EarlyResult attempt disk result → Q result after)
    (hsettled : ∀ prior count after,
      AnswerReceived attempt disk prior count after →
      (close >>= fun _ => settle target attempt prior count).wp Q C after)
    (hdied : ∀ after, DiedReceiving attempt disk after → C after) :
    (downloadSourceTileClosing target close attempt).wp Q C disk := by
  unfold downloadSourceTileClosing
  rw [wp_bind]
  refine wp_mono (receiveSource_spec target attempt disk) ?_ hdied
  intro reception after hafter
  cases reception with
  | returned result => exact hearly result after hafter.1 hafter.2
  | received prior count => exact hsettled prior count after hafter

-- ======================================================== without failures

/-- The files when an answer was received: what did not load is gone, and
the incoming file holds the body. -/
def SourceDisk.staged (disk : SourceDisk) (answer : SourceAnswer) :
    SourceDisk where
  finalFile := disk.finalFile
  partialFile := if disk.partialState.isNone then none else disk.partialFile
  metadataFile :=
    if disk.partialState.isNone then none else disk.metadataFile
  incomingFile := some answer.body
  answered := disk.answered ++ [answer]
  published := disk.published

/-- The read loop stores every chunk. -/
theorem succeed_receive {chunks : List Bytes} {stored : Bytes} {n : Nat}
    (hstored : disk.incomingFile = some stored)
    (hwithin : n + chunks.flatten.length ≤ maximumSourceDownloadBytes) :
    (receive chunks n).succeed disk
      = ((n + chunks.flatten.length, false),
        { disk with incomingFile := some (stored ++ chunks.flatten) }) := by
  induction chunks generalizing disk stored n with
  | nil =>
      have hsame : { disk with incomingFile := some stored } = disk := by
        rw [← hstored]
      simp only [receive, succeed_pure, List.flatten_nil, List.length_nil,
        Nat.add_zero, List.append_nil, hsame]
  | cons data rest ih =>
      rw [List.flatten_cons, List.length_append] at hwithin
      have hwritten : (disk.incomingFile.map fun bytes => bytes ++ data)
          = some (stored ++ data) := by
        rw [hstored]
        rfl
      rw [receive, if_neg (by omega), succeed_bind, succeed_perform,
        if_pos rfl, ih hwritten (by omega), List.flatten_cons,
        List.length_append, List.append_assoc, Nat.add_assoc]

/-- When all goes well the probe tells whether the source is in place. -/
theorem succeed_sourceReady :
    sourceReady.succeed disk = (disk.isLocal, disk) := by
  simp only [sourceReady, succeed_bind, probe, succeed_perform, succeed_read,
    Bool.true_and]
  rfl

/-- Staging leads to an answer that was received. -/
theorem succeed_stageSource
    (hgeneration : attempt.generationCancelledStaged = false)
    (htoken : attempt.tokenCancelledStaged = false)
    (hwithin : attempt.answer.body.length ≤ maximumSourceDownloadBytes) :
    (stageSource target attempt).succeed disk
      = (.received disk.partialState (attempt.answer.body.length, false),
        disk.staged attempt.answer) := by
  have hload : loadCopernicusPartialState.succeed disk
      = (disk.partialState, disk) := rfl
  have hdropped : ((discardPartialIf disk.partialState.isNone).succeed
      disk).2 = { disk with
        partialFile :=
          if disk.partialState.isNone then none else disk.partialFile
        metadataFile :=
          if disk.partialState.isNone then none else disk.metadataFile } := by
    cases disk.partialState with
    | none => rfl
    | some state => rfl
  have hreceive : ∀ opened : SourceDisk, opened.incomingFile = some [] →
      (receive attempt.answer.chunks 0).succeed opened
        = ((attempt.answer.body.length, false),
          { opened with incomingFile := some attempt.answer.body }) := by
    intro opened hempty
    rw [succeed_receive hempty (by rw [Nat.zero_add]; exact hwithin),
      Nat.zero_add, List.nil_append]
    rfl
  rw [stageSource, succeed_bind, hload, succeed_bind, hdropped,
    succeed_bind, succeed_bind, openedSource, succeed_perform,
    if_neg (by simp), if_neg (by rw [hgeneration]; decide),
    if_neg (by rw [htoken]; decide), requestSource, succeed_bind,
    succeed_bind, hreceive _ rfl]
  rfl

/-- With nothing cancelled once the lock is held, the first half returns
early and leaves everything as it was, or receives the answer. -/
theorem succeed_receiveSource (target : SourceTarget) (disk : SourceDisk)
    (hgeneration : attempt.generationCancelledStaged = false)
    (htoken : attempt.tokenCancelledStaged = false)
    (hwithin : attempt.answer.body.length ≤ maximumSourceDownloadBytes) :
    (∃ result, (receiveSource target attempt).succeed disk
      = (.returned result, disk)) ∨
    (receiveSource target attempt).succeed disk
      = (.received disk.partialState (attempt.answer.body.length, false),
        disk.staged attempt.answer) := by
  unfold receiveSource
  by_cases hstart : attempt.cancelledAtStart = true
  · exact Or.inl ⟨_, by rw [if_pos hstart]; rfl⟩
  rw [if_neg hstart, succeed_bind, succeed_sourceReady]
  by_cases hready : disk.isLocal = true
  · exact Or.inl ⟨_, by simp only [hready, if_true]; rfl⟩
  simp only [hready, Bool.false_eq_true, if_false]
  by_cases hremote : attempt.allowRemoteFetch = false
  · exact Or.inl ⟨_, by rw [if_pos hremote]; rfl⟩
  rw [if_neg hremote, succeed_bind, probe, succeed_perform, if_pos rfl]
  unfold lockSource
  cases hwait : attempt.lockWait with
  | cancelled => exact Or.inl ⟨_, rfl⟩
  | timedOut => exact Or.inl ⟨_, rfl⟩
  | taken =>
      by_cases hlocked : attempt.cancelledLocked = true
      · exact Or.inl ⟨_, by simp only [hlocked, if_true]; rfl⟩
      simp only [hlocked, Bool.false_eq_true, if_false, succeed_bind, id,
        succeed_sourceReady, hready]
      exact Or.inr (succeed_stageSource hgeneration htoken hwithin)

end AowisMap.Terrain
