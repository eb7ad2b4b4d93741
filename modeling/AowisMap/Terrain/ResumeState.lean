/-
What a Copernicus download may keep of an interrupted response and when
it may append to it: the rules for response headers
(`copernicus_download_validation.h`) and the metadata of a partial
source (`copernicus_resume_state.h`).

# The metadata decides

A partial source is usable only together with metadata that names its
exact size. `loadPartialState_saved` is the round trip: a valid state
that was saved is the state that is loaded, from a partial file of the
size it names and from no other.
-/
import AowisMap.Lib.CInt
import AowisMap.Lib.QByteArray
import AowisMap.Terrain.Types

namespace AowisMap.Terrain

open Lib Lib.QByteArray

-- ==================================================== response headers

/-- The largest value of a `qint64`. -/
def maximumInt64 : Nat := 9223372036854775807

/-- The largest source that is ever stored: 256 MiB. -/
def maximumSourceDownloadBytes : Nat := 256 * 1024 * 1024

/-- `completeCopernicusResponse`; a negative length was not declared. -/
def completeCopernicusResponse (httpStatus : Int) (downloadedBytes : Nat)
    (declaredContentLength : Int) : Bool :=
  httpStatus == 200 && decide (0 < downloadedBytes) &&
    (decide (declaredContentLength < 0) ||
      declaredContentLength == downloadedBytes)

/-- The three numbers of a `Content-Range` header. -/
structure CopernicusContentRange where
  first : Nat := 0
  last : Nat := 0
  total : Nat := 0
deriving DecidableEq, Repr

/-- `parseCopernicusPositiveDecimal`: digits only, within a `qint64`. -/
def parseCopernicusPositiveDecimal (bytes : Bytes) : Option Nat :=
  if bytes = [] then none else decimalUpTo maximumInt64 bytes 0

/-- The checks of `parseCopernicusContentRange` on the three numbers. -/
def consistentRange (first last total : Option Nat) :
    Option CopernicusContentRange :=
  match first, last, total with
  | some first, some last, some total =>
      if total = 0 ∨ last < first ∨ total ≤ last then none
      else some { first, last, total }
  | _, _, _ => none

/-- The body of `parseCopernicusContentRange`: `bytes first-last/total` and
nothing else. The places of the separators are `int`s, so they are read
modulo `2 ^ 32`; nothing is defined once the place behind one overflows. -/
def contentRange (header : Bytes) : Option (Option CopernicusContentRange) :=
  if (ascii "bytes ").isPrefixOf header = false then some none
  else
    let range := header.drop 6
    let dash := CInt.narrow (indexOf range 45 0)
    let slash := CInt.narrow (indexOf range 47 0)
    if dash ≤ 0 then some none
    else
      match CInt.add dash 1 with
      | none => none
      | some behindDash =>
          if slash ≤ behindDash ∨ slash = range.length - 1 ∨
              0 ≤ indexOf range 45 behindDash.toNat then some none
          else
            match CInt.add slash 1 with
            | none => none
            | some behindSlash =>
                if 0 ≤ indexOf range 47 behindSlash.toNat then some none
                else some (consistentRange
                  (parseCopernicusPositiveDecimal (range.take dash.toNat))
                  (parseCopernicusPositiveDecimal
                    ((range.drop behindDash.toNat).take
                      (slash - dash - 1).toNat))
                  (parseCopernicusPositiveDecimal
                    (range.drop behindSlash.toNat)))

/-- `parseCopernicusContentRange`; where nothing is defined, nothing is
accepted. -/
def parseCopernicusContentRange (header : Bytes) :
    Option CopernicusContentRange :=
  (contentRange header).join

inductive CopernicusResumeAction
  | restartWithFullEntity | appendVerifiedRange | rejectResponse
deriving DecidableEq, Repr

/-- The range of `classifyCopernicusResumeResponse` that continues the
stored bytes and ends the entity. -/
def completesPrefix (existingBytes receivedBytes maximumSourceBytes : Nat)
    (range : CopernicusContentRange) : Bool :=
  range.first == existingBytes && decide (range.total ≤ maximumSourceBytes) &&
    range.last - range.first + 1 == receivedBytes &&
    range.last + 1 == range.total

/-- `classifyCopernicusResumeResponse`. -/
def classifyCopernicusResumeResponse (httpStatus : Int)
    (existingBytes receivedBytes : Nat)
    (contentRange storedStrongEtag responseEtag : Bytes)
    (maximumSourceBytes : Nat) : CopernicusResumeAction :=
  if httpStatus = 200 ∧
      completeCopernicusResponse httpStatus receivedBytes (-1) = true ∧
      receivedBytes ≤ maximumSourceBytes then .restartWithFullEntity
  else if httpStatus ≠ 206 ∨ existingBytes = 0 ∨ receivedBytes = 0 ∨
      maximumSourceBytes = 0 ∨ storedStrongEtag = [] ∨
      (ascii "W/").isPrefixOf storedStrongEtag = true ∨
      responseEtag ≠ storedStrongEtag then .rejectResponse
  else match parseCopernicusContentRange contentRange with
    | some range =>
        if completesPrefix existingBytes receivedBytes maximumSourceBytes
            range then .appendVerifiedRange
        else .rejectResponse
    | none => .rejectResponse

-- ====================================================== partial states

/-- `CopernicusPartialState`. -/
structure CopernicusPartialState where
  downloadedBytes : Nat := 0
  totalBytes : Nat := 0
  strongEtag : Bytes := []
deriving DecidableEq, Repr

/-- `validCopernicusStrongEtag`: a quoted tag of one line. -/
def validCopernicusStrongEtag (etag : Bytes) : Bool :=
  decide (2 ≤ etag.length) && decide (etag.length ≤ 256) &&
    etag.head? == some 34 && etag.getLast? == some 34 &&
    !etag.contains 10 && !etag.contains 13 && !etag.contains 0

/-- `validCopernicusPartialState`. -/
def validCopernicusPartialState (state : CopernicusPartialState)
    (maximumBytes : Nat) : Bool :=
  decide (0 < maximumBytes) && decide (0 < state.downloadedBytes) &&
    decide (state.downloadedBytes < state.totalBytes) &&
    decide (state.totalBytes ≤ maximumBytes) &&
    validCopernicusStrongEtag state.strongEtag

/-- The first line of every metadata file. -/
def partialStateHeader : Bytes := ascii "AOWIS-COPERNICUS-PARTIAL-1"

/-- The text `saveCopernicusPartialState` writes. -/
def partialStateText (state : CopernicusPartialState) : Bytes :=
  partialStateHeader ++ 10 :: (number state.downloadedBytes ++ 10 ::
    (number state.totalBytes ++ 10 :: (toHex state.strongEtag ++ [10])))

/-- The state the four lines of a metadata file describe. -/
def parsePartialState (header downloaded total hexEtag rest : Bytes) :
    Option CopernicusPartialState :=
  if header ≠ partialStateHeader ∨ rest ≠ [] then none
  else match parseCopernicusPositiveDecimal downloaded,
      parseCopernicusPositiveDecimal total with
    | some downloadedBytes, some totalBytes =>
        if hexEtag.length % 2 ≠ 0 then none
        else if toHex (fromHex hexEtag) ≠ hexEtag then none
        else some
          { downloadedBytes, totalBytes, strongEtag := fromHex hexEtag }
    | _, _ => none

/-- The state a metadata file describes. -/
def readPartialState (metadata : Bytes) : Option CopernicusPartialState :=
  match metadata.splitOn 10 with
  | [header, downloaded, total, hexEtag, rest] =>
      parsePartialState header downloaded total hexEtag rest
  | _ => none

/-- `loadCopernicusPartialState` on the contents of the two files, none
where a file is missing or not readable. -/
def loadPartialState (stored metadata : Option Bytes)
    (maximumBytes : Nat) : Option CopernicusPartialState :=
  match stored, metadata with
  | some stored, some metadata =>
      if stored = [] ∨ maximumBytes ≤ stored.length then none
      else if 1024 < metadata.length then none
      else match readPartialState metadata with
        | some state =>
            if validCopernicusPartialState state maximumBytes = true ∧
                stored.length = state.downloadedBytes then some state
            else none
        | none => none
  | _, _ => none

-- ============================================================== headers

/-- What is accepted of three numbers. -/
theorem consistentRange_eq_some {first last total : Option Nat}
    {range : CopernicusContentRange} :
    consistentRange first last total = some range ↔
      first = some range.first ∧ last = some range.last ∧
        total = some range.total ∧ range.first ≤ range.last ∧
        range.last < range.total := by
  constructor
  · intro h
    unfold consistentRange at h
    split at h
    · split at h
      · cases h
      · rename_i hbad
        cases h
        simp only [not_or, Nat.not_lt, Nat.not_le] at hbad
        exact ⟨rfl, rfl, rfl, hbad.2.1, hbad.2.2⟩
    · cases h
  · rintro ⟨rfl, rfl, rfl, hle, hlt⟩
    unfold consistentRange
    simp only
    rw [if_neg (by omega)]

/-- The numbers of an accepted header. -/
theorem contentRange_inv {header : Bytes} {range : CopernicusContentRange}
    (h : contentRange header = some (some range)) :
    ∃ first last total, consistentRange first last total = some range := by
  unfold contentRange at h
  split at h
  · cases h
  simp only at h
  split at h
  · cases h
  split at h
  · cases h
  split at h
  · cases h
  split at h
  · cases h
  split at h
  · cases h
  exact ⟨_, _, _, Option.some.inj h⟩

/-- An accepted `Content-Range` is a nonempty range inside its total. -/
theorem parseCopernicusContentRange_wf {header : Bytes}
    {range : CopernicusContentRange}
    (h : parseCopernicusContentRange header = some range) :
    range.first ≤ range.last ∧ range.last < range.total := by
  obtain ⟨first, last, total, hrange⟩ :=
    contentRange_inv (Option.join_eq_some_iff.1 h)
  exact (consistentRange_eq_some.1 hrange).2.2.2

/-- A response is appended only when it carries the stored tag and its
range starts at the stored size and ends the entity. -/
theorem classify_append {httpStatus : Int} {existing received maximum : Nat}
    {contentRange stored etag : Bytes}
    (h : classifyCopernicusResumeResponse httpStatus existing received
      contentRange stored etag maximum = .appendVerifiedRange) :
    httpStatus = 206 ∧ etag = stored ∧ 0 < received ∧
      ∃ range, parseCopernicusContentRange contentRange = some range ∧
        range.first = existing ∧ existing + received = range.total ∧
        range.total ≤ maximum := by
  unfold classifyCopernicusResumeResponse at h
  split at h
  · cases h
  · split at h
    · cases h
    · rename_i hguard
      simp only [not_or, not_not] at hguard
      obtain ⟨hstatus, -, hreceived, -, -, -, hetag⟩ := hguard
      split at h
      · rename_i range hrange
        split at h
        · rename_i hcompletes
          simp only [completesPrefix, Bool.and_eq_true, beq_iff_eq,
            decide_eq_true_eq] at hcompletes
          obtain ⟨⟨⟨hfirst, hmaximum⟩, hreceived'⟩, htotal⟩ := hcompletes
          have hwf := parseCopernicusContentRange_wf hrange
          exact ⟨hstatus, hetag, by omega, range, hrange, hfirst, by omega,
            hmaximum⟩
        · cases h
      · cases h

-- =========================================================== round trip

variable {state : CopernicusPartialState} {maximum : Nat}

theorem parseCopernicusPositiveDecimal_number {n : Nat}
    (h : n ≤ maximumInt64) :
    parseCopernicusPositiveDecimal (number n) = some n := by
  rw [parseCopernicusPositiveDecimal, if_neg (number_ne_nil n)]
  exact decimalUpTo_number h

/-- The fields of a valid state. -/
theorem validPartialState_iff :
    validCopernicusPartialState state maximum = true ↔
      0 < state.downloadedBytes ∧ state.downloadedBytes < state.totalBytes ∧
        state.totalBytes ≤ maximum ∧
        validCopernicusStrongEtag state.strongEtag = true := by
  simp only [validCopernicusPartialState, Bool.and_eq_true,
    decide_eq_true_eq]
  constructor
  · rintro ⟨⟨⟨⟨-, h₁⟩, h₂⟩, h₃⟩, h₄⟩
    exact ⟨h₁, h₂, h₃, h₄⟩
  · rintro ⟨h₁, h₂, h₃, h₄⟩
    exact ⟨⟨⟨⟨by omega, h₁⟩, h₂⟩, h₃⟩, h₄⟩

/-- A line feed is no digit. -/
theorem newline_not_mem {bytes : Bytes} (h : ∀ b ∈ bytes, 48 ≤ b.toNat) :
    (10 : UInt8) ∉ bytes := by
  intro hmem
  exact absurd (h 10 hmem) (by decide)

/-- The lines of a metadata file. -/
theorem splitOn_partialStateText (state : CopernicusPartialState) :
    (partialStateText state).splitOn 10
      = [partialStateHeader, number state.downloadedBytes,
        number state.totalBytes, toHex state.strongEtag, []] := by
  have hheader : (10 : UInt8) ∉ partialStateHeader := by decide
  have hnumber : ∀ n, (10 : UInt8) ∉ number n := fun n =>
    newline_not_mem fun b hb => (mem_number hb).1
  have hhex : (10 : UInt8) ∉ toHex state.strongEtag :=
    newline_not_mem fun b hb => mem_toHex hb
  unfold partialStateText
  rw [List.splitOn_append_cons_self_of_not_mem hheader,
    List.splitOn_append_cons_self_of_not_mem (hnumber _),
    List.splitOn_append_cons_self_of_not_mem (hnumber _),
    List.splitOn_append_cons_self_of_not_mem hhex, List.splitOn_nil]

/-- What is written about a state is read back as that state. -/
theorem readPartialState_text
    (hdownloaded : state.downloadedBytes ≤ maximumInt64)
    (htotal : state.totalBytes ≤ maximumInt64) :
    readPartialState (partialStateText state) = some state := by
  rw [readPartialState, splitOn_partialStateText]
  simp [parsePartialState, length_toHex,
    parseCopernicusPositiveDecimal_number hdownloaded,
    parseCopernicusPositiveDecimal_number htotal]

/-- The metadata of a valid state is short enough to be read. -/
theorem length_partialStateText
    (hvalid : validCopernicusPartialState state maximum = true)
    (hmaximum : maximum ≤ maximumInt64) :
    (partialStateText state).length ≤ 1024 := by
  obtain ⟨-, hlt, hle, hetag⟩ := validPartialState_iff.1 hvalid
  have hbound : maximumInt64 < 10 ^ 19 := by decide
  have hdownloaded := length_number_le (n := state.downloadedBytes)
    (k := 19) (by decide) (by omega)
  have htotal := length_number_le (n := state.totalBytes)
    (k := 19) (by decide) (by omega)
  have hlength : state.strongEtag.length ≤ 256 := by
    simp only [validCopernicusStrongEtag, Bool.and_eq_true,
      decide_eq_true_eq] at hetag
    exact hetag.1.1.1.1.1.2
  have hheader : partialStateHeader.length = 26 := rfl
  simp only [partialStateText, List.length_append, List.length_cons,
    List.length_nil, length_toHex, hheader]
  omega

/-- A loaded state is valid and names the size of the stored prefix. -/
theorem loadPartialState_some {stored metadata : Option Bytes}
    (h : loadPartialState stored metadata maximum = some state) :
    ∃ bytes text, stored = some bytes ∧ metadata = some text ∧
      bytes.length = state.downloadedBytes ∧
      validCopernicusPartialState state maximum = true ∧
      readPartialState text = some state := by
  unfold loadPartialState at h
  split at h
  · rename_i bytes text
    split at h
    · cases h
    · split at h
      · cases h
      · split at h
        · rename_i read hread
          split at h
          · rename_i hok
            cases h
            exact ⟨bytes, text, rfl, rfl, hok.2, hok.1, hread⟩
          · cases h
        · cases h
  · cases h

/-- The state that was saved is the state that is loaded, from a prefix
of the size it names and from no other. -/
theorem loadPartialState_saved {bytes : Bytes}
    (hvalid : validCopernicusPartialState state maximum = true)
    (hmaximum : maximum ≤ maximumInt64) :
    loadPartialState (some bytes) (some (partialStateText state)) maximum
      = if bytes.length = state.downloadedBytes then some state else none := by
  obtain ⟨hpos, hlt, hle, -⟩ := validPartialState_iff.1 hvalid
  have hread : readPartialState (partialStateText state) = some state :=
    readPartialState_text (by omega) (by omega)
  have hshort := length_partialStateText hvalid hmaximum
  unfold loadPartialState
  simp only [hread, hvalid, true_and]
  by_cases hsize : bytes.length = state.downloadedBytes
  · have hne : bytes ≠ [] := by
      intro hnil
      rw [hnil, List.length_nil] at hsize
      omega
    rw [if_neg (by rw [not_or]; exact ⟨hne, by omega⟩), if_neg (by omega)]
  · simp only [if_neg hsize, ite_self]

end AowisMap.Terrain
