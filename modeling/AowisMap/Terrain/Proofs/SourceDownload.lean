/-
Integrity of resumed downloads: whatever the upstream answers, however
transfers end and wherever the process dies, a published source is the
body of one complete response, or consecutive pieces of one entity, unless
a removal fails where it matters.

# What the three files may hold

`ResumeInv` is what an attempt keeps. Its one fact about the partial source
is conditional: *if* the partial file and its metadata load as a state,
then the partial file is a prefix assembled from responses that all carried
the state's tag and total (`Assembled`). Nothing is said of a pair that
does not load, and that is what makes the crash points safe: a step that
would break the prefix first removes one of the two files or makes their
sizes disagree.

# The removal that matters

`keepFull` renames a response to the partial file once the old metadata
are removed. That this removal failed is not noticed, and old metadata that
name as many bytes as the response holds then load with the bytes of
another entity, until the new ones are saved. `MixesEntities` is an attempt
that ends in between.

# The order of the argument

The first half of an attempt only drops files (`receiveSource_spec`). One
lemma per way of settling an answer says that it keeps the invariant at
each of its operations (`*_keeps`); the one that renames is looked at fate
by fate (`keepFull_resumes`). `resumeInv_reachable` is then the induction
over the attempts, and `published_genuine` the result.
-/
import Mathlib.Data.List.Sublists
import AowisMap.Lib.Run
import AowisMap.Terrain.Proofs.SourceReception

namespace AowisMap.Terrain

open Lib Prog Lib.QByteArray

-- ================================================== what may be published

/-- The length an answer declared for its body. -/
def SourceAnswer.declaredLength (answer : SourceAnswer) : Option Nat :=
  answer.contentLength.bind fun n => if 0 ≤ n then some n.toNat else none

/-- The bytes are the complete body of one answer with status 200, of the
declared length if one was declared. -/
structure SourceAnswer.Complete (answer : SourceAnswer) (bytes : Bytes) :
    Prop where
  status : answer.httpStatus = 200
  finished : answer.interrupted = false
  body : bytes = answer.body
  length : ∀ n, answer.declaredLength = some n → bytes.length = n

/-- The bytes are consecutive pieces of one entity of `total` bytes: the
first from the start of a full response, each further one from a partial
response that starts where the bytes before it end. All responses carry
the entity's tag and total. -/
inductive Assembled (etag : Bytes) (total : Nat) :
    List SourceAnswer → Bytes → Prop
  | first {answer : SourceAnswer} (status : answer.httpStatus = 200)
      (tag : answer.etag = etag)
      (length : answer.declaredLength = some total)
      (within : answer.body.length ≤ total) :
      Assembled etag total [answer] answer.body
  | next {answers : List SourceAnswer} {bytes : Bytes}
      {answer : SourceAnswer} {range : CopernicusContentRange}
      (before : Assembled etag total answers bytes)
      (status : answer.httpStatus = 206) (tag : answer.etag = etag)
      (header : parseCopernicusContentRange answer.contentRange = some range)
      (start : range.first = bytes.length) (size : range.total = total)
      (within : (bytes ++ answer.body).length ≤ total) :
      Assembled etag total (answers ++ [answer]) (bytes ++ answer.body)

/-- All pieces carry the one tag. -/
theorem Assembled.tags {etag : Bytes} {total : Nat}
    {answers : List SourceAnswer} {bytes : Bytes}
    (h : Assembled etag total answers bytes) :
    ∀ answer ∈ answers, answer.etag = etag := by
  induction h with
  | first _ tag _ _ =>
      intro answer hmem
      rw [List.mem_singleton.1 hmem]
      exact tag
  | next _ _ tag _ _ _ _ ih =>
      intro answer hmem
      rcases List.mem_append.1 hmem with hmem | hmem
      · exact ih answer hmem
      · rw [List.mem_singleton.1 hmem]
        exact tag

/-- The bytes are the bodies of the pieces in order, and nothing else. -/
theorem Assembled.bodies {etag : Bytes} {total : Nat}
    {answers : List SourceAnswer} {bytes : Bytes}
    (h : Assembled etag total answers bytes) :
    bytes = (answers.map SourceAnswer.body).flatten := by
  induction h with
  | first _ _ _ _ => simp
  | next _ _ _ _ _ _ _ ih => simp [← ih]

/-- What a published source may be: the body of one answer, or the bodies
of several in order, all of one entity. -/
inductive Genuine (answered : List SourceAnswer) (bytes : Bytes) : Prop
  | whole (answer : SourceAnswer) (received : answer ∈ answered)
      (complete : answer.Complete bytes)
  | resumed (etag : Bytes) (answers : List SourceAnswer)
      (received : answers.Sublist answered)
      (strong : validCopernicusStrongEtag etag = true)
      (pieces : Assembled etag bytes.length answers bytes)
      (tags : ∀ answer ∈ answers, answer.etag = etag)
      (bodies : bytes = (answers.map SourceAnswer.body).flatten)
      (within : bytes.length ≤ maximumSourceDownloadBytes)

/-- The bytes are a prefix of the entity a partial state names. -/
def Stored (answered : List SourceAnswer) (state : CopernicusPartialState)
    (bytes : Bytes) : Prop :=
  ∃ answers : List SourceAnswer, answers.Sublist answered ∧
    Assembled state.strongEtag state.totalBytes answers bytes

-- ========================================================== the invariant

/-- What every file operation of an attempt keeps; `initial` is the final
file that was there before the first attempt. -/
structure ResumeInv (initial : Option Bytes) (disk : SourceDisk) : Prop where
  genuine : ∀ bytes ∈ disk.published, Genuine disk.answered bytes
  final : ∀ bytes, disk.finalFile = some bytes →
    bytes ∈ disk.published ∨ initial = some bytes
  stored : ∀ state bytes, disk.partialState = some state →
    disk.partialFile = some bytes → Stored disk.answered state bytes

variable {initial : Option Bytes} {disk after : SourceDisk}

theorem resumeInv_init (finalFile incomingFile : Option Bytes) :
    ResumeInv finalFile (SourceDisk.init finalFile incomingFile) := by
  refine ⟨?_, fun bytes h => Or.inr h, ?_⟩
  · intro bytes hbytes
    cases hbytes
  · intro state bytes _ hpartial
    cases hpartial

/-- The incoming file is not part of the invariant. -/
theorem ResumeInv.incoming (h : ResumeInv initial disk)
    (incoming : Option Bytes) :
    ResumeInv initial { disk with incomingFile := incoming } :=
  ⟨h.genuine, h.final, h.stored⟩

/-- Dropping files of the prefix is safe: without either the pair does not
load. -/
theorem ResumeInv.drops (h : ResumeInv initial disk)
    (hdrops : Drops disk after) : ResumeInv initial after := by
  refine ⟨?_, ?_, ?_⟩
  · rw [hdrops.published, hdrops.answered]
    exact h.genuine
  · rw [hdrops.published, hdrops.finalFile]
    exact h.final
  · intro state bytes hload hpartial
    obtain ⟨_, _, _, hmetadata, -⟩ := loadPartialState_some hload
    rcases hdrops.partialFile with hsame | hgone
    · rcases hdrops.metadataFile with hsame' | hgone
      · unfold SourceDisk.partialState at hload
        rw [hsame, hsame'] at hload
        rw [hsame] at hpartial
        rw [hdrops.answered]
        exact h.stored state bytes hload hpartial
      · rw [hgone] at hmetadata
        cases hmetadata
    · rw [hgone] at hpartial
      cases hpartial

/-- More answers justify no less. -/
theorem Genuine.mono {answered answered' : List SourceAnswer} {bytes : Bytes}
    (h : Genuine answered bytes) (hsub : answered.Sublist answered') :
    Genuine answered' bytes := by
  cases h with
  | whole answer received complete =>
      exact .whole answer (hsub.subset received) complete
  | resumed etag answers received strong pieces tags bodies within =>
      exact .resumed etag answers (received.trans hsub) strong pieces tags
        bodies within

/-- An answer that arrives leaves the files alone. -/
theorem ResumeInv.answer (h : ResumeInv initial disk)
    (answer : SourceAnswer) :
    ResumeInv initial (disk.answeredBy answer) := by
  have hsub : disk.answered.Sublist (disk.answered ++ [answer]) :=
    List.sublist_append_left _ _
  refine ⟨fun bytes hbytes => (h.genuine bytes hbytes).mono hsub, h.final, ?_⟩
  intro state bytes hload hpartial
  obtain ⟨answers, hreceived, hassembled⟩ := h.stored state bytes hload hpartial
  exact ⟨answers, hreceived.trans hsub, hassembled⟩

/-- New metadata are safe when they name a prefix of their entity. -/
theorem ResumeInv.withMetadata (h : ResumeInv initial disk)
    {state : CopernicusPartialState}
    (hvalid : validCopernicusPartialState state maximumSourceDownloadBytes
      = true)
    (hstored : ∀ bytes, disk.partialFile = some bytes →
      Stored disk.answered state bytes) :
    ResumeInv initial
      { disk with metadataFile := some (partialStateText state) } := by
  refine ⟨h.genuine, h.final, ?_⟩
  intro read bytes hload hprior
  have hload : loadPartialState disk.partialFile
      (some (partialStateText state)) maximumSourceDownloadBytes
      = some read := hload
  have hprior : disk.partialFile = some bytes := hprior
  rw [hprior, loadPartialState_saved hvalid (by decide)] at hload
  split at hload
  · cases hload
    exact hstored bytes hprior
  · cases hload

/-- A partial file whose size is not the one its metadata name is safe. -/
theorem ResumeInv.withLongerPartial (h : ResumeInv initial disk)
    {state : CopernicusPartialState} (hload : disk.partialState = some state)
    {bytes : Bytes} (hlength : bytes.length ≠ state.downloadedBytes) :
    ResumeInv initial { disk with partialFile := some bytes } := by
  refine ⟨h.genuine, h.final, ?_⟩
  intro state' bytes' hload' _
  obtain ⟨_, text, _, htext, _, _, hread⟩ := loadPartialState_some hload
  obtain ⟨found, text', hfound, htext', hsize, _, hread'⟩ :=
    loadPartialState_some hload'
  cases hfound
  have htext' : disk.metadataFile = some text' := htext'
  rw [htext] at htext'
  cases htext'
  rw [hread] at hread'
  cases hread'
  exact absurd hsize hlength

/-- Publishing genuine bytes. -/
theorem ResumeInv.publish (h : ResumeInv initial disk) {bytes : Bytes}
    (hgenuine : Genuine disk.answered bytes) :
    ResumeInv initial
      { disk with
        finalFile := some bytes
        published := disk.published ++ [bytes] } := by
  refine ⟨?_, ?_, h.stored⟩
  · intro b hb
    rcases List.mem_append.1 hb with hb | hb
    · exact h.genuine b hb
    · rw [List.mem_singleton.1 hb]
      exact hgenuine
  · intro b hb
    cases hb
    exact Or.inl (List.mem_append_right _ (List.mem_singleton_self bytes))

-- ======================================================== file operations

/-- A program keeps the invariant at each of its operations and leaves
it behind. -/
def Keeps {α : Type} (initial : Option Bytes) (p : Prog SourceDisk α)
    (disk : SourceDisk) : Prop :=
  p.wp (fun _ => ResumeInv initial) (ResumeInv initial) disk

theorem wp_probe {C : SourceDisk → Prop} {R : Bool → SourceDisk → Prop} :
    probe.wp R C disk ↔ C disk ∧ R true disk ∧ R false disk := wp_perform

/-- A program that drops files keeps the invariant. -/
theorem Keeps.of_drops {α : Type} {p : Prog SourceDisk α}
    (h : ResumeInv initial disk) (hp : Leaves Drops p) :
    Keeps initial p disk :=
  wp_mono (hp disk) (fun _ _ => h.drops) fun _ => h.drops

theorem discardIncoming_keeps (h : ResumeInv initial disk) :
    Keeps initial discardIncoming disk := .of_drops h discardIncoming_drops

theorem discardPartial_keeps (h : ResumeInv initial disk) :
    Keeps initial discardPartial disk := .of_drops h discardPartial_drops

theorem discardPartialIf_keeps (h : ResumeInv initial disk)
    (unusable : Bool) : Keeps initial (discardPartialIf unusable) disk :=
  .of_drops h (discardPartialIf_drops unusable)

/-- A program that keeps the invariant, then a value. -/
theorem Keeps.pure {α : Type} {p : Prog SourceDisk Unit} (a : α)
    (h : Keeps initial p disk) :
    Keeps initial (p >>= fun _ => Pure.pure a) disk := by
  unfold Keeps
  simp only [wp_bind, wp_pure]
  exact h

/-- Programs that keep the invariant, one after the other. -/
theorem Keeps.bind {α β : Type} {p : Prog SourceDisk α}
    {f : α → Prog SourceDisk β} (h : Keeps initial p disk)
    (hf : ∀ a after, ResumeInv initial after → Keeps initial (f a) after) :
    Keeps initial (p >>= f) disk := by
  unfold Keeps
  rw [wp_bind]
  exact wp_mono h (fun a after hafter => hf a after hafter) fun _ hC => hC

/-- Saving the metadata of a prefix of its entity. -/
theorem savePartialState_keeps (h : ResumeInv initial disk)
    {state : CopernicusPartialState}
    (hstored : ∀ bytes, disk.partialFile = some bytes →
      Stored disk.answered state bytes) :
    Keeps initial (saveCopernicusPartialState state) disk := by
  unfold Keeps saveCopernicusPartialState
  rw [wp_ite]
  refine ⟨?_, fun _ => h⟩
  intro hvalid
  rw [wp_perform]
  exact ⟨h, h.withMetadata hvalid hstored, h⟩

-- ==================================================== settling an answer

/-- The state in which an answer is settled: all of its body lies in the
incoming file, and the stored prefix is the one that was loaded before
the request. -/
structure Received (initial : Option Bytes) (answer : SourceAnswer)
    (prior : Option CopernicusPartialState) (old : List SourceAnswer)
    (disk : SourceDisk) : Prop where
  inv : ResumeInv initial disk
  answered : disk.answered = old ++ [answer]
  incoming : disk.incomingFile = some answer.body
  loaded : ∀ state, prior = some state → disk.partialState = some state
  prefixed : ∀ state bytes, prior = some state →
    disk.partialFile = some bytes → Stored old state bytes

variable {answer : SourceAnswer} {prior : Option CopernicusPartialState}
  {old : List SourceAnswer}

/-- What `keepsFull` asks of an answer. -/
theorem keepsFull_some {n : Nat} {state : CopernicusPartialState}
    (h : answer.keepsFull n = some state) :
    answer.httpStatus = 200 ∧ answer.declaredLength = some state.totalBytes ∧
      state.downloadedBytes = n ∧ n < state.totalBytes ∧
      state.strongEtag = answer.etag := by
  unfold SourceAnswer.keepsFull at h
  split at h
  · rename_i length hlength
    split at h
    · rename_i hkeep
      cases h
      obtain ⟨hstatus, hpos, hlt, -, -⟩ := hkeep
      refine ⟨hstatus, ?_, rfl, ?_, rfl⟩
      · rw [SourceAnswer.declaredLength, hlength]
        simp only [Option.bind_some]
        rw [if_pos (by omega)]
      · show n < length.toNat
        omega
    · cases h
  · cases h

/-- The state it is kept as is a valid one. -/
theorem keepsFull_valid {n : Nat} {state : CopernicusPartialState}
    (h : answer.keepsFull n = some state) :
    validCopernicusPartialState state maximumSourceDownloadBytes = true := by
  unfold SourceAnswer.keepsFull at h
  split at h
  · split at h
    · rename_i hkeep
      cases h
      obtain ⟨-, hpos, hlt, hle, hetag⟩ := hkeep
      refine validPartialState_iff.2 ⟨hpos, ?_, ?_, hetag⟩
      · show n < Int.toNat _
        omega
      · show Int.toNat _ ≤ _
        omega
    · cases h
  · cases h

/-- What `continues` asks of an answer. -/
theorem continues_true {state : CopernicusPartialState} {n : Nat}
    (h : answer.continues state n = true) :
    answer.etag = state.strongEtag ∧
      n < state.totalBytes - state.downloadedBytes ∧
      ∃ range, parseCopernicusContentRange answer.contentRange = some range ∧
        range.first = state.downloadedBytes ∧
        range.total = state.totalBytes := by
  unfold SourceAnswer.continues at h
  split at h
  · rename_i range hrange
    simp only [Bool.and_eq_true, beq_iff_eq, decide_eq_true_eq] at h
    obtain ⟨⟨⟨⟨⟨⟨hfirst, htotal⟩, -⟩, -⟩, htag⟩, -⟩, hlt⟩ := h
    exact ⟨htag, hlt, range, hrange, hfirst, htotal⟩
  · cases h

/-- The bytes of a combined prefix. -/
theorem Received.combined (h : Received initial answer prior old disk)
    {bytes : Bytes} (hbytes : disk.partialFile = some bytes) :
    disk.combined bytes.length answer.body.length = bytes ++ answer.body := by
  simp [SourceDisk.combined, hbytes, h.incoming]

/-- An interrupted partial response extends the prefix. The longer file
is in place before its metadata: in between the sizes disagree, and the
pair does not load. -/
theorem appendSuffix_keeps {state : CopernicusPartialState}
    (h : Received initial answer (some state) old disk)
    (hstatus : answer.httpStatus = 206)
    (hcontinues : answer.continues state answer.body.length = true) :
    Keeps initial
      (appendCopernicusPartialSuffix state answer.body.length) disk := by
  obtain ⟨htag, hlt, range, hrange, hfirst, htotal⟩ :=
    continues_true hcontinues
  have hload := h.loaded state rfl
  obtain ⟨bytes, text, hbytes, -, hsize, -⟩ := loadPartialState_some hload
  obtain ⟨answers, hreceived, hassembled⟩ := h.prefixed state bytes rfl hbytes
  have hcombined := h.combined hbytes
  rw [hsize] at hcombined
  unfold Keeps appendCopernicusPartialSuffix
  rw [wp_ite]
  refine ⟨fun _ => h.inv, ?_⟩
  intro hguard
  simp only [not_or] at hguard
  simp only [wp_bind, wp_loadPartialState, wp_read, wp_ite, wp_pure,
    wp_perform]
  refine ⟨h.inv, ⟨fun _ => h.inv, ?_⟩, fun _ => h.inv, ?_⟩
  · intro _
    rw [hcombined]
    have hlonger : ResumeInv initial
        { disk with partialFile := some (bytes ++ answer.body) } :=
      h.inv.withLongerPartial hload (by
        rw [List.length_append]
        omega)
    refine ⟨h.inv, ⟨fun _ => ?_, fun hfalse => absurd trivial hfalse⟩,
      fun hfalse => absurd hfalse (by decide), fun _ => h.inv⟩
    apply savePartialState_keeps hlonger
    intro bytes' hbytes'
    cases hbytes'
    refine ⟨answers ++ [answer], ?_, .next hassembled hstatus htag hrange
      (by rw [hfirst, hsize]) htotal ?_⟩
    · show (answers ++ [answer]).Sublist disk.answered
      rw [h.answered]
      exact hreceived.append (List.Sublist.refl _)
    · show (bytes ++ answer.body).length ≤ state.totalBytes
      rw [List.length_append]
      omega
  · intro hsame
    simp at hsame

/-- What is kept of an interrupted transfer, unless it is a full response.
-/
theorem keepInterrupted_keeps (h : Received initial answer prior old disk)
    (hkeep : answer.keepsFull answer.body.length = none) :
    Keeps initial (keepInterrupted answer prior answer.body.length) disk := by
  unfold keepInterrupted
  rw [hkeep]
  cases prior with
  | none => exact discardIncoming_keeps h.inv
  | some state =>
      show Keeps initial (if _ then _ else _) disk
      split
      · rename_i hstatus
        unfold keepSuffix
        split
        · rename_i hcontinues
          exact (appendSuffix_keeps h hstatus.1 hcontinues).bind
            fun _ _ hafter => discardIncoming_keeps hafter
        · exact discardIncoming_keeps h.inv
      · exact discardIncoming_keeps h.inv

/-- What `appendsPrior` asks of an answer. -/
theorem appendsPrior_true {n : Nat} (h : answer.appendsPrior prior n = true) :
    ∃ state, prior = some state ∧ answer.httpStatus = 206 ∧
      answer.etag = state.strongEtag ∧
      state.downloadedBytes + n = state.totalBytes ∧
      ∃ range, parseCopernicusContentRange answer.contentRange = some range ∧
        range.first = state.downloadedBytes ∧
        range.total = state.totalBytes := by
  unfold SourceAnswer.appendsPrior at h
  split at h
  · rename_i state
    simp only [Bool.and_eq_true, beq_iff_eq] at h
    obtain ⟨⟨hstatus, hclassify⟩, htotal⟩ := h
    obtain ⟨-, htag, -, range, hrange, hfirst, hsum, -⟩ :=
      classify_append hclassify
    exact ⟨state, rfl, hstatus, htag, htotal, range, hrange, hfirst,
      by omega⟩
  · cases h

/-- The checks on a finished response admit genuine bytes only. -/
theorem Received.genuine (h : Received initial answer prior old disk)
    (hfinished : answer.interrupted = false) {bytes : Bytes}
    (hok : answer.publishable (answer.appendsPrior prior answer.body.length)
      answer.body.length = true)
    (hbytes : disk.assembled (answer.appendsPrior prior answer.body.length)
      = some bytes) : Genuine disk.answered bytes := by
  cases happend : answer.appendsPrior prior answer.body.length with
  | true =>
      obtain ⟨state, hprior, hstatus, htag, htotal, range, hrange, hfirst,
        hsize⟩ := appendsPrior_true happend
      have hload := h.loaded state hprior
      obtain ⟨stored, text, hstored, -, hlength, hvalid, -⟩ :=
        loadPartialState_some hload
      obtain ⟨answers, hreceived, hassembled⟩ :=
        h.prefixed state stored hprior hstored
      obtain ⟨-, -, hmaximum, hstrong⟩ := validPartialState_iff.1 hvalid
      rw [happend] at hbytes
      simp only [SourceDisk.assembled, h.incoming, hstored, if_true,
        Option.some.injEq] at hbytes
      subst hbytes
      have hsum : (stored ++ answer.body).length = state.totalBytes := by
        rw [List.length_append]
        omega
      have hpieces : Assembled state.strongEtag
          (stored ++ answer.body).length (answers ++ [answer])
          (stored ++ answer.body) := by
        rw [hsum]
        exact .next hassembled hstatus htag hrange (by omega) hsize
          (by omega)
      refine .resumed state.strongEtag (answers ++ [answer]) ?_ hstrong
        hpieces hpieces.tags hpieces.bodies (by omega)
      rw [h.answered]
      exact hreceived.append (List.Sublist.refl _)
  | false =>
      rw [happend] at hok hbytes
      simp only [SourceAnswer.publishable, Bool.false_eq_true, if_false,
        completeCopernicusResponse, Bool.and_eq_true, Bool.or_eq_true,
        beq_iff_eq, decide_eq_true_eq] at hok
      obtain ⟨⟨hstatus, -⟩, hlength⟩ := hok
      have hbody : bytes = answer.body := by
        simp only [SourceDisk.assembled, h.incoming, Bool.false_eq_true,
          if_false] at hbytes
        split at hbytes
        · cases hbytes
          simp_all
        · cases hbytes
          simp_all
        · cases hbytes
      refine .whole answer ?_ ⟨hstatus, hfinished, hbody, ?_⟩
      · rw [h.answered]
        exact List.mem_append_right _ (List.mem_singleton_self answer)
      · intro n hn
        rw [SourceAnswer.declaredLength] at hn
        cases hdeclared : answer.contentLength with
        | none => simp [hdeclared] at hn
        | some length =>
            simp only [hdeclared, Option.bind_some,
              Option.getD_some] at hn hlength
            split at hn
            · cases hn
              rw [hbody]
              omega
            · cases hn

/-- A finished response is published or dropped. -/
theorem settleFinished_keeps (target : SourceTarget) {attempt : Attempt}
    (h : Received initial attempt.answer prior old disk)
    (hfinished : attempt.answer.interrupted = false) :
    Keeps initial
      (settleFinished target attempt prior attempt.answer.body.length)
      disk := by
  unfold settleFinished
  simp only
  split
  · exact (discardIncoming_keeps h.inv).bind fun _ _ hafter =>
      (discardPartialIf_keeps hafter _).pure _
  · rename_i hok
    rw [Bool.not_eq_false] at hok
    split
    · exact (discardIncoming_keeps h.inv).pure _
    · unfold publishFinished publishCopernicusSource
      refine Keeps.bind ?_ ?_
      · unfold Keeps
        rw [wp_bind, wp_read]
        split
        · rename_i bytes hbytes
          rw [wp_perform]
          exact ⟨h.inv, h.inv.publish (h.genuine hfinished hok hbytes), h.inv⟩
        · exact h.inv
      · intro published after hafter
        cases published with
        | true =>
            exact (discardIncoming_keeps hafter).bind fun _ _ hnext =>
              (discardPartial_keeps hnext).pure _
        | false => exact (discardIncoming_keeps hafter).pure _

/-- The state an answer is kept as, if it is a full response whose transfer
broke off. -/
def Attempt.keeps (attempt : Attempt) (count : Nat × Bool) :
    Option CopernicusPartialState :=
  if attempt.cancelledReceiving || count.2 ||
      attempt.answer.httpStatus == 404 ||
      attempt.answer.networkError == .contentNotFound ||
      !attempt.answer.interrupted then none
  else attempt.answer.keepsFull count.1

variable {target : SourceTarget} {attempt : Attempt} {count : Nat × Bool}

/-- A full response whose transfer broke off is kept. -/
theorem settle_keepFull (target : SourceTarget)
    (prior : Option CopernicusPartialState) {state : CopernicusPartialState}
    (hkeeps : attempt.keeps count = some state) :
    ∃ result, settle target attempt prior count
      = (keepFull state >>= fun _ => pure result) := by
  unfold Attempt.keeps at hkeeps
  split at hkeeps
  · cases hkeeps
  rename_i hkept
  simp only [Bool.or_eq_true, beq_iff_eq, Bool.not_eq_true', not_or,
    Bool.not_eq_true, Bool.not_eq_false] at hkept
  obtain ⟨⟨⟨⟨hcancelled, hwritten⟩, hstatus⟩, herror⟩, hinterrupted⟩ := hkept
  have hkeep : keepInterrupted attempt.answer prior count.1
      = keepFull state := by
    unfold keepInterrupted
    rw [hkeeps]
  rw [settle, if_neg (by rw [hcancelled]; decide),
    if_neg (by rw [hwritten]; decide),
    if_neg (not_or.2 ⟨hstatus, herror⟩), if_pos hinterrupted, hkeep]
  exact ⟨_, rfl⟩

/-- Every other answer is settled within the invariant. -/
theorem settle_keeps (h : Received initial attempt.answer prior old disk)
    (hkeeps : attempt.keeps (attempt.answer.body.length, false) = none) :
    Keeps initial
      (settle target attempt prior (attempt.answer.body.length, false))
      disk := by
  unfold settle
  split
  · exact (discardIncoming_keeps h.inv).pure _
  · rename_i hcancelled
    rw [if_neg Bool.false_ne_true]
    split
    · exact (discardIncoming_keeps h.inv).bind fun _ _ hafter =>
        (discardPartial_keeps hafter).pure _
    · rename_i hfound
      split
      · rename_i hinterrupted
        refine (keepInterrupted_keeps h ?_).pure _
        unfold Attempt.keeps at hkeeps
        rw [if_neg] at hkeeps
        · exact hkeeps
        · simp only [Bool.or_eq_true, beq_iff_eq, Bool.not_eq_true', not_or,
            Bool.not_eq_false]
          exact ⟨⟨⟨⟨hcancelled, nofun⟩, (not_or.1 hfound).1⟩,
            (not_or.1 hfound).2⟩, hinterrupted⟩
      · rename_i hfinished
        split
        · exact (discardIncoming_keeps h.inv).bind fun _ _ hafter =>
            (discardPartialIf_keeps hafter _).pure _
        · exact settleFinished_keeps target h
            (Bool.eq_false_iff.2 hfinished)

/-- A response that could not be stored is dropped. -/
theorem settle_keeps_failed (target : SourceTarget) (attempt : Attempt)
    (prior : Option CopernicusPartialState) (n : Nat)
    (h : ResumeInv initial disk) :
    Keeps initial (settle target attempt prior (n, true)) disk := by
  unfold settle
  split
  · exact (discardIncoming_keeps h).pure _
  · rw [if_pos rfl]
    exact (discardIncoming_keeps h).pure _

-- ===================================================== the new prefix

/-- The fates of `keepFull` that leave old metadata beside a new prefix:
the old partial file is gone, the removal of the metadata fails, the
renaming succeeds, and then the process dies or none of the next three
operations takes effect, which save the new metadata and, where that
fails, remove both files. The old metadata name the size of the response,
for an entity with another tag or total. -/
structure LeavesStale (disk : SourceDisk) (state : CopernicusPartialState)
    (removed renamed : Bool) (rest : List Bool) : Prop where
  gone : removed = true ∨ disk.partialFile = none
  done : renamed = true
  unsaved : ∀ ok ∈ rest.take 3, ok = false
  stale : ∃ found, loadPartialState disk.incomingFile disk.metadataFile
      maximumSourceDownloadBytes = some found ∧
    ¬ (found.strongEtag = state.strongEtag ∧
      found.totalBytes = state.totalBytes)

/-- An attempt that ends with the bytes of one entity beside the metadata
of another. -/
def MixesEntities (target : SourceTarget) (action : SourceAction)
    (disk : SourceDisk) : Prop :=
  match action with
  | .attempt attempt fates =>
      ∃ prior count state removed renamed rest,
        ((receiveSource target attempt).exec fates disk).1
          = some (.received prior count) ∧
        attempt.keeps count = some state ∧
        (receiveSource target attempt).left fates disk
          = removed :: false :: renamed :: rest ∧
        LeavesStale ((receiveSource target attempt).exec fates disk).2 state
          removed renamed rest
  | .removeFinal => False

/-- Saving the metadata of a new prefix, or dropping it. -/
def saveOrDrop (state : CopernicusPartialState) : Prog SourceDisk Unit := do
  let saved ← saveCopernicusPartialState state
  if saved then pure () else discardPartial

theorem keepFull_eq (state : CopernicusPartialState) :
    keepFull state = (discardPartial >>= fun _ => renameIncoming >>= fun
      renamed => if renamed then saveOrDrop state else discardIncoming) := rfl

/-- Where the metadata of a new prefix are saved, or one of the two files
is dropped, it does not matter what was there before. -/
theorem saveOrDrop_resumes {state : CopernicusPartialState}
    {rest : List Bool} (h : ResumeInv initial disk)
    (hvalid : validCopernicusPartialState state maximumSourceDownloadBytes
      = true)
    {renamed : Option Bytes}
    (hstored : ∀ bytes, renamed = some bytes →
      Stored disk.answered state bytes)
    (hrest : ∃ ok ∈ rest.take 3, ok = true) :
    ResumeInv initial ((saveOrDrop state).exec rest
      { disk with partialFile := renamed, incomingFile := none }).2 := by
  have hgone : ∀ stored metadata : Option Bytes,
      stored = none ∨ metadata = none → ResumeInv initial
        { disk with
          partialFile := stored
          metadataFile := metadata
          incomingFile := none } := by
    intro stored metadata hone
    refine ⟨h.genuine, h.final, ?_⟩
    intro found bytes hload hbytes
    obtain ⟨_, _, hfile, hmetadata, -⟩ := loadPartialState_some hload
    rcases hone with rfl | rfl
    · cases hfile
    · cases hmetadata
  have hsaved : ResumeInv initial
      { disk with
        partialFile := renamed
        metadataFile := some (partialStateText state)
        incomingFile := none } := by
    have hbare := hgone renamed none (Or.inr rfl)
    exact hbare.withMetadata hvalid hstored
  unfold saveOrDrop saveCopernicusPartialState
  rw [if_pos hvalid]
  match rest, hrest with
  | [], hrest => obtain ⟨_, hmem, -⟩ := hrest; cases hmem
  | true :: _, _ => exact hsaved
  | [false], hrest =>
      obtain ⟨_, hmem, rfl⟩ := hrest
      cases List.mem_singleton.1 hmem
  | false :: true :: [], _ => exact hgone none _ (Or.inl rfl)
  | false :: true :: true :: _, _ => exact hgone none none (Or.inl rfl)
  | false :: true :: false :: _, _ => exact hgone none _ (Or.inl rfl)
  | false :: false :: [], hrest =>
      obtain ⟨_, hmem, rfl⟩ := hrest
      simp at hmem
  | false :: false :: true :: _, _ => exact hgone renamed none (Or.inr rfl)
  | false :: false :: false :: _, hrest =>
      obtain ⟨_, hmem, rfl⟩ := hrest
      simp at hmem

/-- The response as the new prefix: it is one of its own entity. -/
theorem Received.stored (h : Received initial answer prior old disk)
    {state : CopernicusPartialState}
    (hkeep : answer.keepsFull answer.body.length = some state) :
    Stored disk.answered state answer.body := by
  obtain ⟨hstatus, hlength, hdownloaded, hlt, htag⟩ := keepsFull_some hkeep
  refine ⟨[answer], ?_, .first hstatus htag.symm hlength (by omega)⟩
  rw [h.answered]
  exact List.sublist_append_right _ _

/-- A renamed response beside metadata that do not load, or that name its
own entity. -/
theorem ResumeInv.renamed (h : ResumeInv initial disk)
    {state : CopernicusPartialState} {body : Bytes}
    (hbody : Stored disk.answered state body)
    (hsame : ∀ found, loadPartialState (some body) disk.metadataFile
      maximumSourceDownloadBytes = some found →
        found.strongEtag = state.strongEtag ∧
          found.totalBytes = state.totalBytes) :
    ResumeInv initial
      { disk with partialFile := some body, incomingFile := none } := by
  refine ⟨h.genuine, h.final, ?_⟩
  intro found bytes hload hbytes
  cases hbytes
  obtain ⟨htag, htotal⟩ := hsame found hload
  obtain ⟨answers, hreceived, hassembled⟩ := hbody
  refine ⟨answers, hreceived, ?_⟩
  rw [htag, htotal]
  exact hassembled

/-- Where the new prefix is safe already, saving or dropping it keeps it so.
-/
theorem saveOrDrop_keeps (h : ResumeInv initial disk)
    {state : CopernicusPartialState}
    (hstored : ∀ bytes, disk.partialFile = some bytes →
      Stored disk.answered state bytes) :
    Keeps initial (saveOrDrop state) disk := by
  refine (savePartialState_keeps h hstored).bind fun saved after hafter => ?_
  cases saved with
  | true => exact hafter
  | false => exact discardPartial_keeps hafter

/-- An interrupted full response becomes the new prefix, unless stale
metadata are left beside it. -/
theorem keepFull_resumes (h : Received initial answer prior old disk)
    {state : CopernicusPartialState} {fates : List Bool}
    (hkeep : answer.keepsFull answer.body.length = some state)
    (hstale : ∀ removed renamed rest,
      fates = removed :: false :: renamed :: rest →
      ¬ LeavesStale disk state removed renamed rest) :
    ResumeInv initial ((keepFull state).exec fates disk).2 := by
  match fates with
  | [] => exact h.inv
  | [true] => exact h.inv.drops ⟨⟨rfl, rfl, rfl⟩, Or.inr rfl, Or.inl rfl⟩
  | [false] => exact h.inv
  | removed :: cleared :: rest =>
      -- what the two removals leave
      generalize hprior : (if removed then none else disk.partialFile)
        = partialFile
      generalize hmetadata : (if cleared then none else disk.metadataFile)
        = metadataFile
      have hdrops : Drops disk
          { disk with
            partialFile := partialFile, metadataFile := metadataFile } := by
        subst hprior hmetadata
        refine ⟨⟨rfl, rfl, rfl⟩, ?_, ?_⟩
        · cases removed with
          | true => exact Or.inr rfl
          | false => exact Or.inl rfl
        · cases cleared with
          | true => exact Or.inr rfl
          | false => exact Or.inl rfl
      have hinv := h.inv.drops hdrops
      have hexec : (keepFull state).exec (removed :: cleared :: rest) disk
          = (renameIncoming >>= fun renamed =>
            if renamed then saveOrDrop state else discardIncoming).exec rest
              { disk with
                partialFile := partialFile
                metadataFile := metadataFile } := by
        subst hprior hmetadata
        rw [keepFull_eq]
        cases removed <;> cases cleared <;> rfl
      rw [hexec]
      cases partialFile with
      | some bytes =>
          show ResumeInv initial (discardIncoming.exec rest _).2
          exact exec_invariant (discardIncoming_keeps hinv)
      | none =>
          have hbody := h.stored hkeep
          match rest with
          | [] => exact hinv
          | false :: rest =>
              show ResumeInv initial (discardIncoming.exec rest _).2
              exact exec_invariant (discardIncoming_keeps hinv)
          | true :: rest =>
              show ResumeInv initial ((saveOrDrop state).exec rest
                { disk with
                  partialFile := disk.incomingFile
                  metadataFile := metadataFile
                  incomingFile := none }).2
              have hstored : ∀ bytes, disk.incomingFile = some bytes →
                  Stored disk.answered state bytes := by
                intro bytes hbytes
                rw [h.incoming] at hbytes
                cases hbytes
                exact hbody
              by_cases hsame : ∀ found, loadPartialState disk.incomingFile
                  metadataFile maximumSourceDownloadBytes = some found →
                  found.strongEtag = state.strongEtag ∧
                    found.totalBytes = state.totalBytes
              · rw [h.incoming] at hsame hstored ⊢
                exact exec_invariant
                  (saveOrDrop_keeps (hinv.renamed hbody hsame) hstored)
              · -- the stale metadata load: one of the next operations works
                refine saveOrDrop_resumes hinv (keepsFull_valid hkeep) hstored ?_
                rw [not_forall] at hsame
                obtain ⟨found, hfound⟩ := hsame
                rw [Classical.not_imp] at hfound
                by_contra hnone
                have hkept : cleared = false := by
                  cases cleared with
                  | false => rfl
                  | true =>
                      obtain ⟨_, _, _, hfile, -⟩ :=
                        loadPartialState_some hfound.1
                      subst hmetadata
                      cases hfile
                subst hkept
                subst hmetadata
                refine hstale removed true rest rfl ⟨?_, rfl, ?_, found, ?_⟩
                · cases removed with
                  | true => exact Or.inl rfl
                  | false => exact Or.inr hprior
                · intro ok hok
                  by_contra hok'
                  exact hnone ⟨ok, hok, Bool.not_eq_false _ ▸ hok'⟩
                · exact hfound

-- ============================================================== all runs

/-- An answer that was received, unless writing it failed. -/
theorem AnswerReceived.received {attempt : Attempt} {count : Nat × Bool}
    (h : AnswerReceived attempt disk prior count after)
    (hinv : ResumeInv initial disk) (hwritten : count.2 = false) :
    Received initial attempt.answer prior disk.answered after := by
  have hloaded : ∀ state, prior = some state →
      disk.partialState = some state := by
    intro state hstate
    rcases h.loaded with hnone | hsame
    · rw [hstate] at hnone
      cases hnone
    · rw [← hsame]
      exact hstate
  refine ⟨(hinv.answer attempt.answer).drops h.drops, h.drops.answered,
    (h.whole hwritten).2.2, ?_, ?_⟩
  · intro state hstate
    obtain ⟨hbytesKept, hmetadata⟩ := h.kept state hstate
    unfold SourceDisk.partialState
    rw [hbytesKept, hmetadata]
    exact hloaded state hstate
  · intro state bytes hstate hbytes
    rw [(h.kept state hstate).1] at hbytes
    exact hinv.stored state bytes (hloaded state hstate) hbytes

/-- An attempt that does not mix entities keeps the invariant, wherever it
ends or dies. -/
theorem downloadSourceTile_resumes (target : SourceTarget)
    {attempt : Attempt} {fates : List Bool} (hinv : ResumeInv initial disk)
    (hok : ¬ MixesEntities target (.attempt attempt fates) disk) :
    ResumeInv initial
      ((downloadSourceTile target attempt).exec fates disk).2 := by
  have hspec := exec_spec (receiveSource_spec target attempt disk) fates
  unfold downloadSourceTile downloadSourceTileClosing
  rcases hspec with ⟨reception, hended, hreceives⟩ | ⟨hnone, hdied⟩
  · rw [exec_bind_ended hended]
    cases reception with
    | returned result => exact hinv.drops hreceives.1
    | received prior count =>
        show ResumeInv initial ((settle target attempt prior count).exec _ _).2
        cases hwritten : count.2 with
        | true =>
            obtain ⟨n, failed⟩ := count
            cases hwritten
            exact exec_invariant (settle_keeps_failed target attempt prior n
              ((hinv.answer attempt.answer).drops hreceives.drops))
        | false =>
            have hreceived := hreceives.received hinv hwritten
            have hcount : count = (attempt.answer.body.length, false) :=
              Prod.ext (hreceives.whole hwritten).2.1 hwritten
            cases hkeeps : attempt.keeps count with
            | none =>
                rw [hcount] at hkeeps ⊢
                exact exec_invariant (settle_keeps hreceived hkeeps)
            | some state =>
                obtain ⟨result, hsettle⟩ := settle_keepFull target prior hkeeps
                have hkeep : attempt.answer.keepsFull
                    attempt.answer.body.length = some state := by
                  unfold Attempt.keeps at hkeeps
                  split at hkeeps
                  · cases hkeeps
                  · rw [hcount] at hkeeps
                    exact hkeeps
                have hkept := keepFull_resumes hreceived hkeep
                  fun removed renamed rest hleft hstale => hok
                    ⟨prior, count, state, removed, renamed, rest, hended,
                      hkeeps, hleft, hstale⟩
                rw [hsettle]
                rw [exec_bind_pure]
                exact hkept
  · rw [exec_bind_died hnone]
    rcases hdied with hdrops | hdrops
    · exact hinv.drops hdrops
    · exact (hinv.answer attempt.answer).drops hdrops

/-- The invariant of every sequence of attempts that mix no entities. -/
theorem resumeInv_reachable {target : SourceTarget}
    {finalFile incomingFile : Option Bytes}
    (hrun : Run (sourceStep target)
      (fun action disk => ¬ MixesEntities target action disk)
      (SourceDisk.init finalFile incomingFile) disk) :
    ResumeInv finalFile disk := by
  refine hrun.invariant (resumeInv_init finalFile incomingFile) ?_
  intro action before after hinv hok hstep
  cases action with
  | attempt attempt fates =>
      cases hstep
      exact downloadSourceTile_resumes target hinv hok
  | removeFinal =>
      cases hstep
      refine ⟨hinv.genuine, ?_, hinv.stored⟩
      intro bytes hfinal
      cases hfinal

/-- **Integrity of resumable downloads.** In every run of attempts on a
source that starts without a partial file and metadata, whatever is
answered, whichever operations fail and wherever the process dies, unless
old metadata stay beside a new prefix: a published source is genuine, and
the final file holds a published source or what it held in the beginning.
-/
theorem published_genuine {target : SourceTarget}
    {finalFile incomingFile : Option Bytes} {disk : SourceDisk}
    (hrun : Run (sourceStep target)
      (fun action disk => ¬ MixesEntities target action disk)
      (SourceDisk.init finalFile incomingFile) disk) :
    (∀ bytes ∈ disk.published, Genuine disk.answered bytes) ∧
      ∀ bytes, disk.finalFile = some bytes →
        bytes ∈ disk.published ∨ finalFile = some bytes :=
  ⟨(resumeInv_reachable hrun).genuine, (resumeInv_reachable hrun).final⟩

/-- Where every operation succeeds, entities are not mixed. -/
theorem not_mixesEntities {target : SourceTarget} {attempt : Attempt}
    {fates : List Bool} (hfates : ∀ ok ∈ fates, ok = true) :
    ¬ MixesEntities target (.attempt attempt fates) disk := by
  rintro ⟨prior, count, state, removed, renamed, rest, -, -, hleft, -⟩
  have hmem : false ∈ (receiveSource target attempt).left fates disk := by
    rw [hleft]
    simp
  exact absurd (hfates false (mem_of_left hmem)) (by decide)

/-- An answer for an entity of six bytes. -/
def sixBytes (etag : String) (httpStatus : Int) (contentRange : String)
    (length : Int) (body : Bytes) (networkError : NetworkError) :
    SourceAnswer where
  httpStatus := httpStatus
  etag := ascii etag
  contentRange := ascii contentRange
  contentLength := some length
  chunks := [body]
  networkError := networkError

/-- Two transfers break off and the third one completes the source; the
result applies to what was published. -/
theorem published_genuine_threePieces :
    ∃ disk : SourceDisk, disk.published = [[1, 2, 3, 4, 5, 6]] ∧
      Genuine disk.answered [1, 2, 3, 4, 5, 6] := by
  let works := List.replicate 40 true
  let actions : List SourceAction := List.map
    (fun answer => .attempt { answer := answer } works)
    [sixBytes "\"v1\"" 200 "" 6 [1, 2] .other,
      sixBytes "\"v1\"" 206 "bytes 2-5/6" 4 [3, 4] .other,
      sixBytes "\"v1\"" 206 "bytes 4-5/6" 2 [5, 6] .noError]
  have hsteps : (runActions (sourceStep ⟨"cache", "cache/n.tif", "http://n"⟩)
      actions (SourceDisk.init none none)).map (fun disk => disk.published)
      = some [[1, 2, 3, 4, 5, 6]] := by
    decide +kernel
  obtain ⟨disk, hdisk, hpublished⟩ := Option.map_eq_some_iff.1 hsteps
  have hworks : ∀ ok ∈ works, ok = true := by decide
  refine ⟨disk, hpublished, ?_⟩
  apply (published_genuine (run_of_admitted hdisk ?_)).1
  · rw [hpublished]
    exact List.mem_singleton_self _
  · intro action hmem disk
    obtain ⟨answer, -, rfl⟩ := List.mem_map.1 hmem
    exact not_mixesEntities hworks

/-- The upstream has another entity when the first transfer is resumed, and
the first one again after that. -/
def mixedAnswers : List SourceAnswer :=
  [sixBytes "\"v1\"" 200 "" 6 [1, 2] .other,
    sixBytes "\"v2\"" 200 "" 6 [9, 8] .other,
    sixBytes "\"v1\"" 206 "bytes 2-5/6" 4 [3, 4, 5, 6] .noError]

/-- No response holds these bytes, and no pieces with one tag do. -/
theorem mixed_not_genuine : ¬ Genuine mixedAnswers [9, 8, 3, 4, 5, 6] := by
  intro h
  cases h with
  | whole answer received complete =>
      have hnone : ∀ answer ∈ mixedAnswers,
          [9, 8, 3, 4, 5, 6] ≠ answer.body := by decide
      exact hnone answer received complete.body
  | resumed etag answers received _ _ tags bodies _ =>
      have hnone : ∀ answers ∈ mixedAnswers.sublists,
          (∀ a ∈ answers, ∀ b ∈ answers, a.etag = b.etag) →
          [9, 8, 3, 4, 5, 6] ≠ (answers.map SourceAnswer.body).flatten := by
        decide +kernel
      refine hnone answers (List.mem_sublists.2 received) ?_ bodies
      intro a ha b hb
      rw [tags a ha, tags b hb]

/-- While the second response is kept as the new prefix, the metadata of the
first are not removed, and the process dies before they are replaced. The
third response then completes the bytes of the second. -/
theorem published_mixed :
    ¬ ∀ (target : SourceTarget) (finalFile incomingFile : Option Bytes)
        (disk : SourceDisk),
      Run (sourceStep target) anyStep
        (SourceDisk.init finalFile incomingFile) disk →
      ∀ bytes ∈ disk.published, Genuine disk.answered bytes := by
  intro hclaim
  let works := List.replicate 40 true
  -- eight operations until the response is received, the two removals, and
  -- the renaming
  let dies := List.replicate 8 true ++ [true, false, true]
  let actions : List SourceAction :=
    List.zipWith (fun answer fates => .attempt { answer := answer } fates)
      mixedAnswers [works, dies, works]
  have hsteps : (runActions (sourceStep ⟨"cache", "cache/n.tif", "http://n"⟩)
      actions (SourceDisk.init none none)).map
        (fun disk => (disk.published, disk.answered))
      = some ([[9, 8, 3, 4, 5, 6]], mixedAnswers) := by
    decide +kernel
  obtain ⟨disk, hdisk, hends⟩ := Option.map_eq_some_iff.1 hsteps
  rw [Prod.mk.injEq] at hends
  have hgenuine := hclaim _ none none disk (run_of_runActions hdisk)
    [9, 8, 3, 4, 5, 6] (by rw [hends.1]; exact List.mem_singleton_self _)
  rw [hends.2] at hgenuine
  exact mixed_not_genuine hgenuine

end AowisMap.Terrain
