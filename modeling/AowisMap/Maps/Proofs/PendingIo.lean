/-
The background reads and writes of the tile store are bounded, and its
counters say what is pending.

A write is counted when it is scheduled and given back in its callback, a
read when it is scheduled and given back in its own; in between, its
worker runs once. `PendingIo` says that the counters are the totals over
the tables of pending operations, and stay within the limits that the
code tests before it schedules one. A worker keeps at most the bytes that
were reserved for its read, so what all finished reads hold in memory is
bounded too (`loaded_le`).
-/
import AowisMap.Maps.Proofs.Held

namespace AowisMap.Maps

open Lib

variable {cfg : Config}

-- ============================================================= invariant

/-- The number of entries of a table. -/
def entriesOf {K V : Type} (m : QHash K V) : Nat :=
  QHash.total (fun _ _ => 1) m

/-- The bytes reserved for the pending reads. -/
def readBytes (reads : QHash ReadId CacheRead) : Nat :=
  QHash.total (fun _ r => r.fileSize) reads

/-- The bytes of the pending writes. -/
def writeBytes (writes : QHash WriteId CacheWrite) : Nat :=
  QHash.total (fun _ w => w.data.size) writes

/-- The counters of pending operations, and their limits. -/
structure PendingIo (s : State) : Prop where
  reads : entriesOf s.cacheReadsPending = entriesOf s.reads
  readLimit : entriesOf s.reads ≤ maximumPendingCacheReads
  bytesRead : s.pendingCacheReadBytes = readBytes s.reads
  readByteLimit : readBytes s.reads ≤ maximumPendingCacheReadBytes
  writes : s.pendingCacheWrites = entriesOf s.writes
  writeLimit : entriesOf s.writes ≤ maximumPendingCacheWrites
  bytesWritten : s.pendingCacheWriteBytes = writeBytes s.writes
  writeByteLimit : writeBytes s.writes ≤ maximumPendingCacheWriteBytes
  /-- A read is of a file with bytes. -/
  sized : ∀ id r, s.reads.lookup id = some r → 0 < r.fileSize
  /-- A worker keeps no more than was reserved. -/
  loaded : ∀ id r data, s.reads.lookup id = some r →
    r.result = some data → data.size ≤ r.fileSize

variable {s u : State}

/-- Nothing is pending at first. -/
theorem pendingIo_init (files : QHash TilePath OutsideFile)
    (markers : QHash String String) : PendingIo (State.init files markers) where
  reads := rfl
  readLimit := Nat.zero_le _
  bytesRead := rfl
  readByteLimit := Nat.zero_le _
  writes := rfl
  writeLimit := Nat.zero_le _
  bytesWritten := rfl
  writeByteLimit := Nat.zero_le _
  sized id r h := by cases h
  loaded id r data h := by cases h

/-- The tables of pending operations are those of another state. -/
structure SameIo (s u : State) : Prop where
  pending : u.cacheReadsPending = s.cacheReadsPending
  reads : u.reads = s.reads
  readBytes : u.pendingCacheReadBytes = s.pendingCacheReadBytes
  writes : u.writes = s.writes
  writeCount : u.pendingCacheWrites = s.pendingCacheWrites
  writeBytes : u.pendingCacheWriteBytes = s.pendingCacheWriteBytes

/-- A step that does nothing. -/
theorem SameIo.refl : SameIo s s := ⟨rfl, rfl, rfl, rfl, rfl, rfl⟩

/-- One step after the other. -/
theorem SameIo.trans {v : State} (h₁ : SameIo s u) (h₂ : SameIo u v) :
    SameIo s v where
  pending := h₂.pending.trans h₁.pending
  reads := h₂.reads.trans h₁.reads
  readBytes := h₂.readBytes.trans h₁.readBytes
  writes := h₂.writes.trans h₁.writes
  writeCount := h₂.writeCount.trans h₁.writeCount
  writeBytes := h₂.writeBytes.trans h₁.writeBytes

/-- The counters and limits read only what such steps keep. -/
theorem PendingIo.of_same (h : PendingIo s) (hsame : SameIo s u) :
    PendingIo u := by
  obtain ⟨hpending, hreads, hreadBytes, hwrites, hcount, hbytes⟩ := hsame
  refine ⟨?_, ?_, ?_, ?_, ?_, ?_, ?_, ?_, ?_, ?_⟩
  · rw [hpending, hreads]
    exact h.reads
  · rw [hreads]
    exact h.readLimit
  · rw [hreadBytes, hreads]
    exact h.bytesRead
  · rw [hreads]
    exact h.readByteLimit
  · rw [hcount, hwrites]
    exact h.writes
  · rw [hwrites]
    exact h.writeLimit
  · rw [hbytes, hwrites]
    exact h.bytesWritten
  · rw [hwrites]
    exact h.writeByteLimit
  · rw [hreads]
    exact h.sized
  · rw [hreads]
    exact h.loaded

-- ============================================================== requests

/-- Finding the directory of a provider starts no operation. -/
theorem providerCachePath_sameIo (choice : Choice) (provider : String)
    (s : State) : SameIo s (providerCachePath cfg choice provider s).2 := by
  unfold providerCachePath
  split
  · exact .refl
  · split
    · exact .refl
    · simp only
      split
      · exact ⟨rfl, rfl, rfl, rfl, rfl, rfl⟩
      · exact ⟨rfl, rfl, rfl, rfl, rfl, rfl⟩

/-- It takes no number for a read either. -/
theorem providerCachePath_nextRead (choice : Choice) (provider : String)
    (s : State) :
    (providerCachePath cfg choice provider s).2.nextRead = s.nextRead := by
  unfold providerCachePath
  split
  · rfl
  · split
    · rfl
    · simp only
      split
      · rfl
      · rfl

/-- A read in the foreground is not counted. -/
theorem getColdTile_sameIo (choice : Choice) (provider : String)
    (source : MapProvider) (zoom x y : Int) (canonicalKey key : String)
    (dir : TileDir) (s : State) :
    SameIo s (getColdTile cfg choice provider source zoom x y canonicalKey key
      dir s).2 := by
  unfold getColdTile
  dsimp only
  split
  · exact .refl
  · split
    · exact ⟨rfl, rfl, rfl, rfl, rfl, rfl⟩
    · split
      · exact .refl
      · split
        · exact ⟨rfl, rfl, rfl, rfl, rfl, rfl⟩
        · unfold fetchTile
          split
          · exact ⟨rfl, rfl, rfl, rfl, rfl, rfl⟩
          · exact .refl

/-- `getTile` reads and writes at once. -/
theorem getTile_sameIo (choice : Choice) (provider : String) (z x y : Int)
    (key : String) (s : State) :
    SameIo s (getTile cfg choice provider z x y key s).2 := by
  unfold getTile
  split
  · exact .refl
  · split
    · exact .refl
    · dsimp only
      split
      · exact .refl
      · split
        · exact .refl
        · have hselected := @providerCachePath_sameIo cfg choice
            provider s
          split
          · exact hselected
          · have hcold := @getColdTile_sameIo cfg choice provider
              ‹_› z (positiveModulo x (tileCount z)) y
              (canonicalTileKey provider z (positiveModulo x (tileCount z)) y)
              key ‹_› (providerCachePath cfg choice provider s).2
            exact hselected.trans hcold

-- ================================================================= reads

/-- Entries are counted by their keys. -/
theorem entriesOf_keys {K V : Type} (m : QHash K V) :
    entriesOf m = m.keys.length := by
  unfold entriesOf QHash.total AList.keys List.keys
  rw [List.length_map]
  induction m.entries with
  | nil => rfl
  | cons e rest ih =>
      rw [List.map_cons, List.sum_cons, ih, List.length_cons]
      exact Nat.add_comm _ _

section

variable {K V : Type} [DecidableEq K] {m : QHash K V} {k : K}

/-- A new key is one entry more. -/
theorem entriesOf_new (v : V) (h : m.lookup k = none) :
    entriesOf (m.insert k v) = entriesOf m + 1 := by
  have htotal := QHash.total_insert (fun _ _ => 1) k v m
  rw [QHash.measureAt_none h] at htotal
  exact htotal

/-- A key that is there keeps its entry. -/
theorem entriesOf_replaced {v w : V} (h : m.lookup k = some w) :
    entriesOf (m.insert k v) = entriesOf m := by
  have htotal := QHash.total_insert (fun _ _ => 1) k v m
  rw [QHash.measureAt_some h] at htotal
  exact Nat.add_right_cancel htotal

/-- A key that is taken out is one entry less. -/
theorem entriesOf_erased {v : V} (h : m.lookup k = some v) :
    entriesOf m = entriesOf (m.erase k) + 1 := by
  have htotal := QHash.total_erase (fun _ _ => 1) k m
  rw [QHash.measureAt_some h] at htotal
  exact htotal

end

/-- What an insertion into a table of reads leaves. -/
theorem lookup_read {reads : QHash ReadId CacheRead} {read id : ReadId}
    {r r' : CacheRead} (h : (reads.insert read r).lookup id = some r') :
    r' = r ∨ reads.lookup id = some r' := by
  by_cases hid : id = read
  · rw [hid, AList.lookup_insert] at h
    exact Or.inl (Option.some.inj h).symm
  · rw [AList.lookup_insert_ne hid] at h
    exact Or.inr h

/-- A read is scheduled while there is room for it. -/
theorem scheduleRead_pendingIo {read : CacheRead} {key : String}
    (hfresh : s.reads.lookup s.nextRead = none) (hnew : read.result = none)
    (h : PendingIo s) : PendingIo (scheduleRead read key s).2 := by
  unfold scheduleRead
  split
  · -- joined: the read's entry only grows
    rename_i keys hkeys
    refine ⟨?_, h.readLimit, h.bytesRead, h.readByteLimit, h.writes,
      h.writeLimit, h.bytesWritten, h.writeByteLimit, h.sized, h.loaded⟩
    show entriesOf (s.cacheReadsPending.insert _ _) = _
    rw [entriesOf_replaced hkeys]
    exact h.reads
  · rename_i hnone
    split
    · exact h
    · rename_i hroom
      split
      · exact h
      · rename_i hbytes
        have hcount := h.reads
        have hentries := entriesOf_keys s.cacheReadsPending
        have hreserved := h.bytesRead
        have htotal := QHash.total_insert (fun _ r => r.fileSize)
          s.nextRead read s.reads
        rw [QHash.measureAt_none hfresh] at htotal
        have htotal : readBytes (s.reads.insert s.nextRead read)
            = readBytes s.reads + read.fileSize := htotal
        obtain ⟨hpositive, -, hfits⟩ : ¬read.fileSize = 0 ∧
            ¬read.fileSize > maximumPendingCacheReadBytes ∧
            ¬(read.fileSize : Int)
              > maximumPendingCacheReadBytes - s.pendingCacheReadBytes := by
          simpa only [not_or] using hbytes
        refine ⟨?_, ?_, ?_, ?_, h.writes, h.writeLimit, h.bytesWritten,
          h.writeByteLimit, ?_, ?_⟩
        · show entriesOf (s.cacheReadsPending.insert _ _)
            = entriesOf (s.reads.insert _ _)
          rw [entriesOf_new _ hnone, entriesOf_new _ hfresh, hcount]
        · show entriesOf (s.reads.insert _ _) ≤ _
          rw [entriesOf_new _ hfresh]
          omega
        · show s.pendingCacheReadBytes + (read.fileSize : Int)
            = readBytes (s.reads.insert _ _)
          rw [htotal, hreserved, Nat.cast_add]
        · show readBytes (s.reads.insert _ _) ≤ _
          rw [htotal]
          omega
        · intro id r hr
          rcases lookup_read hr with rfl | hr
          · exact Nat.pos_of_ne_zero hpositive
          · exact h.sized id r hr
        · intro id r data hr hdata
          rcases lookup_read hr with rfl | hr
          · rw [hnew] at hdata
            cases hdata
          · exact h.loaded id r data hr hdata

/-- A request schedules a read only if the limits leave room for it. -/
theorem getTileForHttp_pendingIo (choice : Choice) (provider : String)
    (z x y : Int) (key : String)
    (hfresh : s.reads.lookup s.nextRead = none) (h : PendingIo s) :
    PendingIo (getTileForHttp cfg choice provider z x y key s).2 := by
  have hselected := @providerCachePath_sameIo cfg choice provider s
  have hsame := h.of_same hselected
  have hfresh' : (providerCachePath cfg choice provider s).2.reads.lookup
      (providerCachePath cfg choice provider s).2.nextRead = none := by
    rw [hselected.reads, providerCachePath_nextRead]
    exact hfresh
  unfold getTileForHttp
  split
  · exact h
  · split
    · exact h
    · dsimp only
      split
      · exact h
      · unfold getColdTileForHttp
        dsimp only
        split
        · exact scheduleRead_pendingIo hfresh rfl h
        · split
          · exact h
          · split
            · exact hsame.of_same (getTile_sameIo ..)
            · split
              · exact scheduleRead_pendingIo hfresh' rfl hsame
              · exact hsame.of_same (getTile_sameIo ..)

/-- A finished read gives back what was reserved for it. -/
theorem forgetRead_pendingIo {read : ReadId} {r : CacheRead}
    {keys : List String} (hr : s.reads.lookup read = some r)
    (hkeys : s.cacheReadsPending.lookup r.readKey = some keys)
    (h : PendingIo s) : PendingIo (forgetRead read r s) := by
  have hcount := entriesOf_erased hr
  have hpending := entriesOf_erased hkeys
  have htotal := QHash.total_erase (fun _ r => r.fileSize) read s.reads
  rw [QHash.measureAt_some hr] at htotal
  have htotal : readBytes s.reads
      = readBytes (s.reads.erase read) + r.fileSize := htotal
  have hreads := h.reads
  have hlimit := h.readLimit
  have hreserved := h.bytesRead
  have hbytes := h.readByteLimit
  have hother : ∀ id r', (s.reads.erase read).lookup id = some r' →
      s.reads.lookup id = some r' := by
    intro id r' hid
    by_cases hne : id = read
    · rw [hne, AList.lookup_erase] at hid
      cases hid
    · rw [AList.lookup_erase_ne hne] at hid
      exact hid
  refine ⟨?_, ?_, ?_, ?_, h.writes, h.writeLimit, h.bytesWritten,
    h.writeByteLimit, ?_, ?_⟩
  · show entriesOf (s.cacheReadsPending.erase _) = entriesOf (s.reads.erase _)
    omega
  · show entriesOf (s.reads.erase _) ≤ _
    omega
  · show s.pendingCacheReadBytes - (r.fileSize : Int)
      = readBytes (s.reads.erase _)
    omega
  · show readBytes (s.reads.erase _) ≤ _
    omega
  · intro id r' hid
    exact h.sized id r' (hother id r' hid)
  · intro id r' data hid
    exact h.loaded id r' data (hother id r' hid)

/-- Signals are no operations. -/
theorem emitAll_sameIo (signals : List Signal) (s : State) :
    SameIo s (emitAll signals s) := ⟨rfl, rfl, rfl, rfl, rfl, rfl⟩

/-- Nor is a single one. -/
theorem emit_sameIo (signal : Signal) (s : State) :
    SameIo s (emit signal s) := ⟨rfl, rfl, rfl, rfl, rfl, rfl⟩

/-- Those who waited for a read ask in the foreground. -/
theorem retryReads_sameIo (r : CacheRead)
    (requesters : List (String × Choice)) (s : State) :
    SameIo s (requesters.foldl (retryRead cfg r) s) := by
  induction requesters generalizing s with
  | nil => exact .refl
  | cons requester requesters ih =>
      refine SameIo.trans ?_ (ih _)
      have hasked := @getTile_sameIo cfg requester.2 r.provider r.zoom
        r.wrappedX r.y requester.1 s
      unfold retryRead
      dsimp only
      split
      · exact hasked.trans (emit_sameIo _ _)
      · exact hasked.trans (emit_sameIo _ _)
      · exact hasked.trans (emit_sameIo _ _)
      · exact hasked

/-- The callback of a read gives back what was reserved for it. -/
theorem readFinished_pendingIo {read : ReadId} {choices : Nat → Choice}
    (hinv : TablesInv cfg s) (h : PendingIo s)
    (hstep : readFinished cfg read choices s = some u) : PendingIo u := by
  obtain ⟨r, data, hr, -, hcases⟩ := readFinished_inv hstep
  obtain ⟨keys, hkeys⟩ := hinv.waiting read r hr
  have hforgot := forgetRead_pendingIo hr hkeys h
  rcases hcases with ⟨-, -, marks, rfl⟩ | rfl | ⟨requesters, -, rfl⟩
  · rw [emitReady_eq]
    exact hforgot.of_same ⟨rfl, rfl, rfl, rfl, rfl, rfl⟩
  · rw [emitFailed_eq]
    exact hforgot.of_same (emitAll_sameIo _ _)
  · exact hforgot.of_same (retryReads_sameIo r requesters _)

/-- A worker keeps what it reads only when it is as much as was reserved.
-/
theorem readRuns_pendingIo {read : ReadId} (h : PendingIo s)
    (hstep : readRuns read s = some u) : PendingIo u := by
  unfold readRuns at hstep
  split at hstep
  · cases hstep
  · rename_i r hr
    split at hstep
    · cases hstep
    · simp only [Option.some.injEq] at hstep
      subst hstep
      have htotal := QHash.total_insert (fun _ r => r.fileSize) read
        { r with result := some (((readFile s r.readPath).filter fun data =>
          data.size == r.fileSize).getD { bytes := [] }) } s.reads
      rw [QHash.measureAt_some hr] at htotal
      have htotal := Nat.add_right_cancel htotal
      refine ⟨?_, ?_, ?_, ?_, h.writes, h.writeLimit, h.bytesWritten,
        h.writeByteLimit, ?_, ?_⟩
      · show _ = entriesOf (s.reads.insert _ _)
        rw [entriesOf_replaced hr]
        exact h.reads
      · show entriesOf (s.reads.insert _ _) ≤ _
        rw [entriesOf_replaced hr]
        exact h.readLimit
      · exact h.bytesRead.trans (congrArg _ htotal.symm)
      · exact htotal.le.trans h.readByteLimit
      · intro id r' hid
        rcases lookup_read hid with rfl | hid
        · exact h.sized read r hr
        · exact h.sized id r' hid
      · intro id r' data hid hdata
        rcases lookup_read hid with rfl | hid
        · cases hdata
          cases hfile : (readFile s r.readPath).filter fun data =>
              data.size == r.fileSize with
          | none => exact Nat.zero_le _
          | some data =>
              have hsize := (Option.filter_eq_some_iff.1 hfile).2
              exact (beq_iff_eq.1 hsize).le
        · exact h.loaded id r' data hid hdata

-- ================================================================ writes

/-- A write is scheduled only while there is room for it. -/
theorem scheduleWrite_pendingIo {download : QueuedDownload} {data : Blob}
    {keys : List String} (hfresh : s.writes.lookup s.nextWrite = none)
    (hcount : s.pendingCacheWrites < maximumPendingCacheWrites)
    (hfits : (data.size : Int)
      ≤ maximumPendingCacheWriteBytes - s.pendingCacheWriteBytes)
    (h : PendingIo s) : PendingIo (scheduleWrite download data keys s) := by
  have hwrites := h.writes
  have hbytes := h.bytesWritten
  have htotal := QHash.total_insert (fun _ w => w.data.size) s.nextWrite
    { download := download, data := data, responseKeys := keys } s.writes
  rw [QHash.measureAt_none hfresh] at htotal
  have htotal : writeBytes (s.writes.insert s.nextWrite
      { download := download, data := data, responseKeys := keys })
      = writeBytes s.writes + data.size := htotal
  refine ⟨h.reads, h.readLimit, h.bytesRead, h.readByteLimit, ?_, ?_, ?_, ?_,
    h.sized, h.loaded⟩
  · show s.pendingCacheWrites + 1 = entriesOf (s.writes.insert s.nextWrite _)
    rw [entriesOf_new _ hfresh]
    omega
  · show entriesOf (s.writes.insert s.nextWrite _) ≤ _
    rw [entriesOf_new _ hfresh]
    omega
  · show s.pendingCacheWriteBytes + (data.size : Int)
      = writeBytes (s.writes.insert s.nextWrite _)
    rw [htotal]
    omega
  · show writeBytes (s.writes.insert s.nextWrite _) ≤ _
    rw [htotal]
    omega

/-- A download that finished schedules its write if there is room for it, and
is served in any case. -/
theorem requestFinished_pendingIo {client : ClientId} {bytes : Bytes}
    {mayStore : Bool} (hinv : TablesInv cfg s) (h : PendingIo s)
    (hstep : requestFinished cfg client bytes mayStore s = some u) :
    PendingIo u := by
  have hanswered : ∀ keys data downloads,
      PendingIo (emitReady keys data { s with downloads := downloads }) := by
    intro keys data downloads
    rw [emitReady_eq]
    exact h.of_same ⟨rfl, rfl, rfl, rfl, rfl, rfl⟩
  unfold requestFinished at hstep
  split at hstep
  · cases hstep
  · split at hstep
    · cases hstep
    · dsimp only at hstep
      split at hstep
      · cases hstep
        exact hanswered _ _ _
      · split at hstep
        · cases hstep
          exact hanswered _ _ _
        · rename_i hroom
          cases hstep
          rw [not_or, not_le, not_lt] at hroom
          refine scheduleWrite_pendingIo ?_ hroom.1 hroom.2
            (h.of_same ⟨rfl, rfl, rfl, rfl, rfl, rfl⟩)
          exact hinv.freshWrites s.nextWrite (Nat.le_refl _)

/-- The tables of writes after an update that keeps the bytes of each. -/
theorem PendingIo.of_writes {writes : QHash WriteId CacheWrite}
    (h : PendingIo s) (hcount : entriesOf writes = entriesOf s.writes)
    (hbytes : writeBytes writes = writeBytes s.writes) :
    PendingIo { s with writes := writes } where
  reads := h.reads
  readLimit := h.readLimit
  bytesRead := h.bytesRead
  readByteLimit := h.readByteLimit
  writes := h.writes.trans (congrArg _ hcount.symm)
  writeLimit := hcount.le.trans h.writeLimit
  bytesWritten := h.bytesWritten.trans (congrArg _ hbytes.symm)
  writeByteLimit := hbytes.le.trans h.writeByteLimit
  sized := h.sized
  loaded := h.loaded

/-- The worker of a write leaves the counters to the callback. -/
theorem writeRuns_pendingIo {write : WriteId} {saved : Bool}
    (h : PendingIo s) (hstep : writeRuns write saved s = some u) :
    PendingIo u := by
  obtain ⟨w, hw, -, hcases⟩ := writeRuns_inv hstep
  have hran : ∀ result, PendingIo { s with
      writes := s.writes.insert write { w with result := result } } := by
    intro result
    refine h.of_writes (entriesOf_replaced hw) ?_
    have htotal := QHash.total_insert (fun _ w => w.data.size) write
      { w with result := result } s.writes
    rw [QHash.measureAt_some hw] at htotal
    exact Nat.add_right_cancel htotal
  rcases hcases with ⟨result, rfl⟩ | ⟨-, rfl⟩
  · exact hran _
  · exact (hran _).of_same ⟨rfl, rfl, rfl, rfl, rfl, rfl⟩

/-- The callback of a write gives back its bytes. -/
theorem writeFinished_pendingIo {write : WriteId} (h : PendingIo s)
    (hstep : writeFinished write s = some u) : PendingIo u := by
  obtain ⟨w, hw, -, rfl⟩ := writeFinished_inv hstep
  have hcount := entriesOf_erased hw
  have htotal := QHash.total_erase (fun _ w => w.data.size) write s.writes
  rw [QHash.measureAt_some hw] at htotal
  have htotal : writeBytes s.writes
      = writeBytes (s.writes.erase write) + w.data.size := htotal
  have hwrites := h.writes
  have hlimit := h.writeLimit
  have hbytes := h.bytesWritten
  have hbound := h.writeByteLimit
  rw [emitReady_eq]
  refine ⟨h.reads, h.readLimit, h.bytesRead, h.readByteLimit, ?_, ?_, ?_, ?_,
    h.sized, h.loaded⟩
  · show s.pendingCacheWrites - 1 = entriesOf (s.writes.erase _)
    omega
  · show entriesOf (s.writes.erase _) ≤ _
    omega
  · show s.pendingCacheWriteBytes - (w.data.size : Int)
      = writeBytes (s.writes.erase _)
    omega
  · show writeBytes (s.writes.erase _) ≤ _
    omega

/-- A deletion marks pending writes and drops none. -/
theorem invalidateRange_pendingIo (range : TileRange) (h : PendingIo s) :
    PendingIo (invalidateRange range s) := by
  refine (h.of_writes ?_ ?_).of_same (s := { s with
    writes := (invalidateRange range s).writes })
    ⟨rfl, rfl, rfl, rfl, rfl, rfl⟩
  · unfold entriesOf invalidateRange
    rw [QHash.total_filterMapValues]
  · unfold writeBytes invalidateRange
    rw [QHash.total_filterMapValues]

/-- A deletion marks writes as stale and leaves them pending. -/
theorem deleteTiles_pendingIo (choice : Choice) (range : TileRange)
    (refuses : TilePath → Bool) (hdirs : OwnDirs s.providerCachePaths)
    (h : PendingIo s) :
    PendingIo (deleteTiles cfg choice range refuses s).2 := by
  obtain ⟨paths, markers, -, ⟨-, heq⟩ | ⟨dir, -, -, heq⟩⟩ :=
    deleteTiles_cases cfg choice range refuses hdirs
  · rw [heq]
    exact h.of_same ⟨rfl, rfl, rfl, rfl, rfl, rfl⟩
  · rw [heq]
    have hselected : PendingIo { s with
        providerCachePaths := paths
        markers := markers } := h.of_same ⟨rfl, rfl, rfl, rfl, rfl, rfl⟩
    have hdeleted : ∀ v, Deletion range dir { s with
        providerCachePaths := paths
        markers := markers } v → PendingIo v := by
      intro v hv
      obtain ⟨files, marks, rfl⟩ := hv.body
      exact (invalidateRange_pendingIo range hselected).of_same
        ⟨rfl, rfl, rfl, rfl, rfl, rfl⟩
    rcases deleteFrom_cases range refuses dir _ with
      ⟨heq, -⟩ | ⟨v, hv, heq | ⟨count, heq, -⟩⟩
    · rw [heq]
      exact hselected.of_same ⟨rfl, rfl, rfl, rfl, rfl, rfl⟩
    · rw [heq]
      exact hdeleted v hv
    · rw [heq]
      exact (hdeleted v hv).of_same ⟨rfl, rfl, rfl, rfl, rfl, rfl⟩

-- ================================================================== runs

/-- One step, by the action it performs. -/
theorem perform_pendingIo {a : Action} (hinv : TablesInv cfg s)
    (h : PendingIo s) (hstep : perform cfg a s = some u) : PendingIo u := by
  have hanswered : ∀ key (r : TileRequestResult × State), PendingIo r.2 →
      PendingIo (answered key r) := by
    intro key r hr
    unfold answered
    split
    · exact hr.of_same ⟨rfl, rfl, rfl, rfl, rfl, rfl⟩
    · exact hr
  cases a with
  | getTile choice provider z x y key =>
      cases hstep
      exact hanswered _ _ (h.of_same (getTile_sameIo ..))
  | getTileForHttp choice provider z x y key =>
      cases hstep
      refine hanswered _ _ (getTileForHttp_pendingIo choice provider z x y key
        ?_ h)
      exact hinv.freshReads s.nextRead (Nat.le_refl _)
  | requestFinished client bytes mayStore =>
      exact requestFinished_pendingIo hinv h hstep
  | requestError client reason =>
      obtain ⟨ended, -, rfl⟩ := requestError_inv hstep
      rw [emitFailed_eq]
      exact h.of_same ⟨rfl, rfl, rfl, rfl, rfl, rfl⟩
  | writeRuns write saved => exact writeRuns_pendingIo h hstep
  | writeFinished write => exact writeFinished_pendingIo h hstep
  | readRuns read => exact readRuns_pendingIo h hstep
  | readFinished read choices => exact readFinished_pendingIo hinv h hstep
  | deleteTiles choice range refuses =>
      cases hstep
      exact deleteTiles_pendingIo choice range refuses hinv.dirs h
  | cancelUpstreamDownloads =>
      cases hstep
      unfold cancelUpstreamDownloads
      rw [emitFailed_eq]
      exact h.of_same ⟨rfl, rfl, rfl, rfl, rfl, rfl⟩
  | configureProviders providers coverage defaultCoverage =>
      cases hstep
      exact h.of_same ⟨rfl, rfl, rfl, rfl, rfl, rfl⟩
  | setPermanentDataDirectory directory =>
      cases hstep
      exact h.of_same ⟨rfl, rfl, rfl, rfl, rfl, rfl⟩
  | setRemoteFetchEnabled enabled =>
      cases hstep
      exact h.of_same ⟨rfl, rfl, rfl, rfl, rfl, rfl⟩
  | evict key =>
      cases hstep
      exact h.of_same ⟨rfl, rfl, rfl, rfl, rfl, rfl⟩
  | outsideChange path outside =>
      cases hstep
      exact h.of_same ⟨rfl, rfl, rfl, rfl, rfl, rfl⟩

/-- In every reachable state the counters are what is pending, and what
is pending stays within the limits. -/
theorem pendingIo_reachable (h : Reachable cfg s) : PendingIo s := by
  obtain ⟨files, markers, hrun⟩ := h
  have hboth : HeldInv cfg s ∧ PendingIo s := by
    refine hrun.invariant (P := fun s => HeldInv cfg s ∧ PendingIo s)
      ⟨heldInv_init files markers, pendingIo_init files markers⟩ ?_
    intro a s₁ s₂ hinv _ hstep
    refine ⟨(apply_dutiful hinv.1 hstep).1, ?_⟩
    refine perform_pendingIo (s := { s₁ with outbox := [] }) ?_ ?_ hstep
    · exact hinv.1.tables.of_tables rfl rfl rfl rfl rfl rfl rfl
    · exact hinv.2.of_same ⟨rfl, rfl, rfl, rfl, rfl, rfl⟩
  exact hboth.2

/-- The bytes the finished reads keep in memory until their callbacks. -/
def loadedBytes (reads : QHash ReadId CacheRead) : Nat :=
  QHash.total (fun _ r => (r.result.map Blob.size).getD 0) reads

/-- Whatever the files grow to, what is loaded at once is bounded. -/
theorem loaded_le (h : PendingIo s) :
    loadedBytes s.reads ≤ maximumPendingCacheReadBytes := by
  refine le_trans (QHash.total_mono ?_) h.readByteLimit
  intro id r hr
  cases hresult : r.result with
  | none => exact Nat.zero_le _
  | some data => exact h.loaded id r data hr hresult

/-- A tile file of three bytes is asked for twice and has grown when the
worker reads it; meanwhile another tile arrives. -/
def grownFile : List Action :=
  [ .outsideChange ⟨⟨"/var/cache/aowis", openStreetMap, none⟩, 3, 0, 0⟩
      (some { bytes := [1, 2, 3] }),
    .getTileForHttp {} openStreetMap 3 0 0 "a",
    .getTileForHttp {} openStreetMap 3 8 0 "b",
    .outsideChange ⟨⟨"/var/cache/aowis", openStreetMap, none⟩, 3, 0, 0⟩
      (some { bytes := [1, 2, 3, 4] }),
    .readRuns 0, .getTileForHttp {} openStreetMap 3 1 0 "c",
    .requestFinished 0 [5, 6] true ]

/-- A file that grew before its worker read it, and a write beside it. -/
theorem pendingIo_grownFile :
    ∃ s, runActions (apply smallConfig) grownFile (State.init ∅ ∅) = some s ∧
      PendingIo s ∧ s.pendingCacheReadBytes = 3 ∧ loadedBytes s.reads = 0 ∧
      s.pendingCacheWrites = 1 ∧ s.pendingCacheWriteBytes = 2 := by
  have hrun : (runActions (apply smallConfig) grownFile
      (State.init ∅ ∅)).map (fun s => (s.pendingCacheReadBytes,
        loadedBytes s.reads, s.pendingCacheWrites,
        s.pendingCacheWriteBytes)) = some (3, 0, 1, 2) := by
    decide +kernel
  obtain ⟨s, hs, hval⟩ := Option.map_eq_some_iff.1 hrun
  simp only [Prod.mk.injEq] at hval
  exact ⟨s, hs, pendingIo_reachable ⟨∅, ∅, run_of_runActions hs⟩, hval⟩

end AowisMap.Maps
