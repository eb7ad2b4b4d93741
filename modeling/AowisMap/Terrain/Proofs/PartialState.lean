/-
The saved state of a download across crashes: what
`loadCopernicusPartialState` finds once `saveCopernicusPartialState` or
`appendCopernicusPartialSuffix` has ended, failed, or died half way.

# Two files, one after the other

Appending a suffix replaces the partial file first and its metadata
second. Between the two the metadata name the shorter prefix, so the
pair does not load (`loaded_resized`); before the first and after the
second it loads as the old and as the updated state. `AppendOutcome` is
this trichotomy and `appendWithin_outcome` proves it of every operation
of the program, for any bound on the size of a source. The programs of
`SourceDownload` are the ones at the bound of that module.
-/
import AowisMap.Terrain.Proofs.SourceDownload

namespace AowisMap.Terrain

open Lib Prog Lib.QByteArray

-- ======================================================= any size limit

/-- `saveCopernicusPartialState` for sources of `maximumBytes`. -/
def saveCopernicusPartialStateWithin (maximumBytes : Nat)
    (state : CopernicusPartialState) : Prog SourceDisk Bool :=
  if validCopernicusPartialState state maximumBytes then
    perform fun disk =>
      { disk with metadataFile := some (partialStateText state) }
  else pure false

/-- `loadCopernicusPartialState` for sources of `maximumBytes`. -/
def loadCopernicusPartialStateWithin (maximumBytes : Nat) :
    Prog SourceDisk (Option CopernicusPartialState) := do
  let readable ← probe
  read fun disk =>
    if readable then loadPartialState disk.partialFile disk.metadataFile
      maximumBytes
    else none

/-- `appendCopernicusPartialSuffix` for sources of `maximumBytes`. -/
def appendCopernicusPartialSuffixWithin (maximumBytes : Nat)
    (old : CopernicusPartialState) (suffixBytes : Nat) :
    Prog SourceDisk Bool :=
  if validCopernicusPartialState old maximumBytes = false ∨
      suffixBytes = 0 ∨ old.totalBytes - old.downloadedBytes ≤ suffixBytes then
    pure false
  else do
    let current ← loadCopernicusPartialStateWithin maximumBytes
    let incomingBytes ← read fun disk => (disk.incomingFile.getD []).length
    if current ≠ some old ∨ incomingBytes ≠ suffixBytes then pure false
    else do
      let committed ← perform fun disk =>
        { disk with
          partialFile := some
            (disk.combined old.downloadedBytes suffixBytes) }
      if committed then
        saveCopernicusPartialStateWithin maximumBytes
          { old with downloadedBytes := old.downloadedBytes + suffixBytes }
      else pure false

theorem saveCopernicusPartialState_eq (state : CopernicusPartialState) :
    saveCopernicusPartialState state
      = saveCopernicusPartialStateWithin maximumSourceDownloadBytes state :=
  rfl

theorem appendCopernicusPartialSuffix_eq (old : CopernicusPartialState)
    (suffixBytes : Nat) :
    appendCopernicusPartialSuffix old suffixBytes
      = appendCopernicusPartialSuffixWithin maximumSourceDownloadBytes old
          suffixBytes := rfl

/-- The state the partial file and its metadata load as. -/
def SourceDisk.loaded (maximumBytes : Nat) (disk : SourceDisk) :
    Option CopernicusPartialState :=
  loadPartialState disk.partialFile disk.metadataFile maximumBytes

/-- The state after a suffix was appended. -/
def CopernicusPartialState.extended (state : CopernicusPartialState)
    (suffixBytes : Nat) : CopernicusPartialState :=
  { state with downloadedBytes := state.downloadedBytes + suffixBytes }

-- =============================================================== loading

variable {maximum suffixBytes : Nat} {state old : CopernicusPartialState}
  {before after disk : SourceDisk}

theorem wp_loadWithin {C : SourceDisk → Prop}
    {R : Option CopernicusPartialState → SourceDisk → Prop} :
    (loadCopernicusPartialStateWithin maximum).wp R C disk ↔
      C disk ∧ R (disk.loaded maximum) disk ∧ R none disk := by
  simp only [loadCopernicusPartialStateWithin, wp_bind, wp_probe, wp_read,
    SourceDisk.loaded, if_true, Bool.false_eq_true, if_false]

/-- A partial file of another size than its metadata name does not load.
-/
theorem loaded_resized (hload : disk.loaded maximum = some state)
    {bytes : Bytes} (hlength : bytes.length ≠ state.downloadedBytes) :
    { disk with partialFile := some bytes }.loaded maximum = none := by
  obtain ⟨_, text, _, htext, _, _, hread⟩ := loadPartialState_some hload
  rw [Option.eq_none_iff_forall_ne_some]
  intro found hfound
  obtain ⟨stored, text', hstored, htext', hsize, _, hread'⟩ :=
    loadPartialState_some hfound
  have htext' : disk.metadataFile = some text' := htext'
  rw [htext] at htext'
  cases htext'
  rw [hread] at hread'
  cases hread'
  cases hstored
  exact hlength hsize

/-- A state that was saved loads from a partial file of the size it
names. -/
theorem loaded_saved
    (hvalid : validCopernicusPartialState state maximum = true)
    (hmaximum : maximum ≤ maximumInt64) {bytes : Bytes}
    (hbytes : disk.partialFile = some bytes)
    (hlength : bytes.length = state.downloadedBytes) :
    { disk with
        metadataFile := some (partialStateText state) }.loaded maximum
      = some state := by
  show loadPartialState disk.partialFile _ maximum = _
  rw [hbytes, loadPartialState_saved hvalid hmaximum, if_pos hlength]

/-- An extended state is valid while bytes are missing. -/
theorem valid_extended
    (hvalid : validCopernicusPartialState old maximum = true)
    (hlt : suffixBytes < old.totalBytes - old.downloadedBytes) :
    validCopernicusPartialState (old.extended suffixBytes) maximum
      = true := by
  obtain ⟨hpos, _, hle, hetag⟩ := validPartialState_iff.1 hvalid
  apply validPartialState_iff.2
  refine ⟨?_, ?_, hle, hetag⟩
  · show 0 < old.downloadedBytes + suffixBytes
    omega
  · show old.downloadedBytes + suffixBytes < old.totalBytes
    omega

-- ================================================================ saving

/-- A save that succeeds leaves its state to be loaded. -/
theorem saveWithin_loaded (hmaximum : maximum ≤ maximumInt64)
    {bytes : Bytes} (hbytes : disk.partialFile = some bytes)
    (hlength : bytes.length = state.downloadedBytes) :
    (saveCopernicusPartialStateWithin maximum state).wp
      (fun saved after => saved = true → after.loaded maximum = some state)
      (fun _ => True) disk := by
  unfold saveCopernicusPartialStateWithin
  rw [wp_ite]
  constructor
  · intro hvalid
    rw [wp_perform]
    refine ⟨trivial, ?_, fun hfalse => absurd hfalse (by decide)⟩
    intro _
    exact loaded_saved hvalid hmaximum hbytes hlength
  · intro _ hfalse
    cases hfalse

-- ============================================================= appending

/-- What appending a suffix leaves to be loaded: nothing, what was there
before, or the updated state of the longer prefix. -/
inductive AppendOutcome (maximum : Nat) (old : CopernicusPartialState)
    (suffixBytes : Nat) (before after : SourceDisk) : Prop
  | nothing (unusable : after.loaded maximum = none)
  | kept (state : CopernicusPartialState)
      (held : before.loaded maximum = some state)
      (loads : after.loaded maximum = some state)
      (bytes : after.partialFile = before.partialFile)
  | updated (bytes suffix : Bytes)
      (held : before.loaded maximum = some old)
      (stored : before.partialFile = some bytes)
      (incoming : before.incomingFile = some suffix)
      (size : suffix.length = suffixBytes)
      (loads : after.loaded maximum = some (old.extended suffixBytes))
      (combined : after.partialFile = some (bytes ++ suffix))

/-- Nothing was done. -/
theorem AppendOutcome.refl (maximum : Nat) (old : CopernicusPartialState)
    (suffixBytes : Nat) (disk : SourceDisk) :
    AppendOutcome maximum old suffixBytes disk disk := by
  cases hload : disk.loaded maximum with
  | none => exact .nothing hload
  | some state => exact .kept state hload hload rfl

/-- The prefix and the suffix, joined. -/
theorem combined_eq {bytes suffix : Bytes}
    (hbytes : disk.partialFile = some bytes)
    (hsuffix : disk.incomingFile = some suffix) :
    disk.combined bytes.length suffix.length = bytes ++ suffix := by
  simp only [SourceDisk.combined, hbytes, hsuffix, Option.getD_some,
    List.take_length]

/-- An incoming file of at least one byte exists. -/
theorem incoming_of_length (hpos : suffixBytes ≠ 0)
    (hlength : (disk.incomingFile.getD []).length = suffixBytes) :
    ∃ suffix, disk.incomingFile = some suffix ∧
      suffix.length = suffixBytes := by
  cases hincoming : disk.incomingFile with
  | none =>
      rw [hincoming] at hlength
      exact absurd hlength.symm hpos
  | some suffix =>
      rw [hincoming] at hlength
      exact ⟨suffix, rfl, hlength⟩

/-- Once the longer prefix is in place, saving its metadata decides
between nothing and the updated state. -/
theorem extendedSave_outcome (hmaximum : maximum ≤ maximumInt64)
    (hvalid : validCopernicusPartialState old maximum = true)
    (hpos : suffixBytes ≠ 0)
    (hlt : suffixBytes < old.totalBytes - old.downloadedBytes)
    {bytes suffix : Bytes} (hload : disk.loaded maximum = some old)
    (hbytes : disk.partialFile = some bytes)
    (hsize : bytes.length = old.downloadedBytes)
    (hsuffix : disk.incomingFile = some suffix)
    (hlength : suffix.length = suffixBytes) :
    (saveCopernicusPartialStateWithin maximum (old.extended suffixBytes)).wp
      (fun _ => AppendOutcome maximum old suffixBytes disk)
      (AppendOutcome maximum old suffixBytes disk)
      { disk with partialFile := some (bytes ++ suffix) } := by
  -- The metadata still name the shorter prefix.
  have hbetween : AppendOutcome maximum old suffixBytes disk
      { disk with partialFile := some (bytes ++ suffix) } := by
    refine .nothing (loaded_resized hload ?_)
    rw [List.length_append]
    omega
  unfold saveCopernicusPartialStateWithin
  rw [if_pos (valid_extended hvalid hlt), wp_perform]
  refine ⟨hbetween, ?_, hbetween⟩
  refine .updated bytes suffix hload hbytes hsuffix hlength ?_ rfl
  have hlonger : (bytes ++ suffix).length
      = (old.extended suffixBytes).downloadedBytes := by
    rw [List.length_append, hsize, hlength]
    rfl
  exact loaded_saved (valid_extended hvalid hlt) hmaximum rfl hlonger

/-- Wherever appending a suffix ends or dies, the outcome is one of the
three. -/
theorem appendWithin_outcome (hmaximum : maximum ≤ maximumInt64)
    (old : CopernicusPartialState) (suffixBytes : Nat) (disk : SourceDisk) :
    (appendCopernicusPartialSuffixWithin maximum old suffixBytes).wp
      (fun _ => AppendOutcome maximum old suffixBytes disk)
      (AppendOutcome maximum old suffixBytes disk) disk := by
  have hsame := AppendOutcome.refl maximum old suffixBytes disk
  unfold appendCopernicusPartialSuffixWithin
  rw [wp_ite]
  refine ⟨fun _ => hsame, ?_⟩
  intro hguard
  simp only [not_or, Bool.not_eq_false, Nat.not_le] at hguard
  obtain ⟨hvalid, hpos, hlt⟩ := hguard
  rw [wp_bind, wp_loadWithin]
  refine ⟨hsame, ?_, ?_⟩
  · rw [wp_bind, wp_read, wp_ite]
    refine ⟨fun _ => hsame, ?_⟩
    intro hmatch
    simp only [not_or, not_not] at hmatch
    obtain ⟨hload, hincoming⟩ := hmatch
    obtain ⟨bytes, _, hbytes, _, hsize, -, -⟩ := loadPartialState_some hload
    obtain ⟨suffix, hsuffix, hlength⟩ := incoming_of_length hpos hincoming
    have hcombined := combined_eq hbytes hsuffix
    rw [hsize, hlength] at hcombined
    rw [wp_bind, wp_perform, hcombined]
    refine ⟨hsame, ?_, ?_⟩
    · rw [if_pos rfl]
      exact extendedSave_outcome hmaximum hvalid hpos hlt hload hbytes hsize
        hsuffix hlength
    · rw [if_neg (by decide)]
      exact hsame
  · rw [wp_bind, wp_read, if_pos (Or.inl (by simp))]
    exact hsame

-- ============================================================ the result

/-- **Saved download state is faithful and crash-safe.** A state that was
saved is the state that is loaded; whatever two files are loaded, a state
that is found is valid and names the size of the partial file; and after
an append that ended, failed or died anywhere, what is loaded is nothing,
the old state with the old bytes, or the updated state with exactly the
old bytes and the suffix. -/
theorem partialState_crashSafe {maximum : Nat}
    (hmaximum : maximum ≤ maximumInt64) :
    (∀ (state : CopernicusPartialState) (disk : SourceDisk) (bytes : Bytes)
        (fates : List Bool),
      validCopernicusPartialState state maximum = true →
      disk.partialFile = some bytes →
      bytes.length = state.downloadedBytes →
      ((saveCopernicusPartialStateWithin maximum state).exec fates disk).1
        = some true →
      ((saveCopernicusPartialStateWithin maximum state).exec fates
        disk).2.loaded maximum = some state) ∧
    (∀ (old : CopernicusPartialState) (suffixBytes : Nat)
        (disk : SourceDisk) (fates : List Bool),
      AppendOutcome maximum old suffixBytes disk
        ((appendCopernicusPartialSuffixWithin maximum old suffixBytes).exec
          fates disk).2) ∧
    ∀ (stored metadata : Option Bytes) (state : CopernicusPartialState),
      loadPartialState stored metadata maximum = some state →
      validCopernicusPartialState state maximum = true ∧
        ∃ bytes, stored = some bytes ∧
          bytes.length = state.downloadedBytes := by
  refine ⟨?_, ?_, ?_⟩
  · intro state disk bytes fates _ hbytes hlength hsaved
    exact exec_ended (saveWithin_loaded hmaximum hbytes hlength) hsaved rfl
  · intro old suffixBytes disk fates
    exact exec_invariant (appendWithin_outcome hmaximum old suffixBytes disk)
  · intro stored metadata state hload
    obtain ⟨bytes, _, hbytes, _, hlength, hvalid, -⟩ :=
      loadPartialState_some hload
    exact ⟨hvalid, bytes, hbytes, hlength⟩

/-- The prefix of an entity of six bytes, with its metadata in place if
they were saved. -/
def twoOfSix (stored : Bytes) (saved : Bool) : SourceDisk where
  partialFile := some stored
  metadataFile :=
    if saved then some (partialStateText ⟨2, 6, ascii "\"v1\""⟩) else none
  incomingFile := some [3, 4, 5]

/-- At the limit of every caller: a state that is saved is loaded, the
pair a crash leaves between the two replacements does not load, and a
loaded state names the size of its file. -/
theorem partialState_crashSafe_twoOfSix :
    (twoOfSix [1, 2] true).loaded maximumSourceDownloadBytes
        = some ⟨2, 6, ascii "\"v1\""⟩ ∧
      AppendOutcome maximumSourceDownloadBytes ⟨2, 6, ascii "\"v1\""⟩ 3
        (twoOfSix [1, 2] true) (twoOfSix [1, 2, 3, 4, 5] true) ∧
      validCopernicusPartialState ⟨2, 6, ascii "\"v1\""⟩
        maximumSourceDownloadBytes = true := by
  have hmaximum : maximumSourceDownloadBytes ≤ maximumInt64 := by decide
  have hresult := partialState_crashSafe hmaximum
  have hvalid : validCopernicusPartialState ⟨2, 6, ascii "\"v1\""⟩
      maximumSourceDownloadBytes = true := by decide
  have hsaved : (saveCopernicusPartialStateWithin maximumSourceDownloadBytes
      ⟨2, 6, ascii "\"v1\""⟩).exec [true] (twoOfSix [1, 2] false)
      = (some true, twoOfSix [1, 2] true) := by decide +kernel
  have hdied : ((appendCopernicusPartialSuffixWithin
      maximumSourceDownloadBytes ⟨2, 6, ascii "\"v1\""⟩ 3).exec [true, true]
      (twoOfSix [1, 2] true)).2 = twoOfSix [1, 2, 3, 4, 5] true := by
    decide +kernel
  have hloaded := hresult.1 ⟨2, 6, ascii "\"v1\""⟩ (twoOfSix [1, 2] false)
    [1, 2] [true] hvalid rfl rfl (by rw [hsaved])
  rw [hsaved] at hloaded
  have houtcome := hresult.2.1 ⟨2, 6, ascii "\"v1\""⟩ 3
    (twoOfSix [1, 2] true) [true, true]
  rw [hdied] at houtcome
  exact ⟨hloaded, houtcome, (hresult.2.2 _ _ _ hloaded).1⟩

end AowisMap.Terrain
