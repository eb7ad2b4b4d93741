/-
The accounts of decoded blocks: every cache knows its bytes, and the
budget those of all caches, between any two steps of any of them
(`decodedBlocks_exact`).

# Half-done inserts

An insert gives memory back before it asks for more, and others may take
it meanwhile. What holds of a cache while it evicts (`Evicted`) is said
against the cache the insert found: the oldest keys are gone, the others
are as they were, and every key that is gone had to go.
-/
import AowisMap.Terrain.DecodedBlocks

namespace AowisMap.Terrain

open Lib

-- ================================================================ cache

namespace CopernicusDecodedBlockCache

/-- The bytes of the blocks at some keys. -/
def bytesAt (cache : CopernicusDecodedBlockCache) (keys : List UInt32) :
    Nat :=
  (keys.map fun key => ((cache.find key).getD []).length).sum

/-- The accounts of a cache. -/
structure Sound (cache : CopernicusDecodedBlockCache) : Prop where
  stored : cache.storedBytes
    = QHash.total (fun _ block => block.length) cache.blocks
  stored_le : cache.storedBytes ≤ cache.maximumBytes
  nodup : cache.insertionOrder.Nodup
  listed : ∀ key,
    key ∈ cache.insertionOrder ↔ (cache.find key).isSome = true

/-- A cache after some rounds of eviction for a block of a size. -/
structure Evicted (before : CopernicusDecodedBlockCache) (size : Nat)
    (evicted : List UInt32) (cache : CopernicusDecodedBlockCache) :
    Prop where
  maximumBytes : cache.maximumBytes = before.maximumBytes
  order : before.insertionOrder = evicted ++ cache.insertionOrder
  find : ∀ key,
    cache.find key = if key ∈ evicted then none else before.find key
  /-- With fewer evictions there was no room. -/
  needed : ∀ n < evicted.length,
    before.maximumBytes - size
      < before.bytesAt (before.insertionOrder.drop n)

variable {cache before : CopernicusDecodedBlockCache} {size : Nat}
  {evicted rest : List UInt32} {oldest : UInt32}

theorem sound_ofMaximum (maximumBytes : Int) :
    (ofMaximum maximumBytes).Sound where
  stored := rfl
  stored_le := Nat.zero_le _
  nodup := List.nodup_nil
  listed key := by
    show key ∈ [] ↔ _
    simp [find, ofMaximum]

/-- The bytes of a hash, by its keys. -/
theorem total_eq_bytesAt (cache : CopernicusDecodedBlockCache) :
    QHash.total (fun _ block => block.length) cache.blocks
      = cache.bytesAt cache.blocks.keys := by
  unfold QHash.total bytesAt AList.keys List.keys
  rw [List.map_map]
  congr 1
  refine List.map_congr_left fun entry hentry => ?_
  have hlookup : cache.blocks.lookup entry.1 = some entry.2 :=
    AList.mem_lookup_iff.2 hentry
  show entry.2.length = ((cache.blocks.lookup entry.1).getD []).length
  rw [hlookup, Option.getD_some]

/-- The bytes of a cache are those of the keys in its order. -/
theorem Sound.stored_eq (h : cache.Sound) :
    cache.storedBytes = cache.bytesAt cache.insertionOrder := by
  rw [h.stored, total_eq_bytesAt]
  have hperm : cache.blocks.keys.Perm cache.insertionOrder := by
    refine (List.perm_ext_iff_of_nodup cache.blocks.nodupKeys h.nodup).2 ?_
    intro key
    rw [h.listed key]
    unfold find
    rw [AList.lookup_isSome]
    rfl
  exact (hperm.map _).sum_eq

/-- An empty cache has room for every block it may hold. -/
theorem Sound.room_of_empty (h : cache.Sound)
    (hempty : cache.insertionOrder = []) :
    cache.lacksRoom size = false := by
  have hstored := h.stored_eq
  rw [hempty] at hstored
  have hzero : cache.storedBytes = 0 := hstored
  unfold lacksRoom
  rw [hzero]
  exact decide_eq_false (Nat.not_lt_zero _)

/-- One round of eviction takes the oldest block. -/
theorem evictOldest_spec (h : cache.Sound)
    (horder : cache.insertionOrder = oldest :: rest) :
    ∃ block, cache.find oldest = some block ∧
      block.length ≤ cache.storedBytes ∧
      cache.evictOldest oldest rest = (some block.length,
        { cache with
          insertionOrder := rest
          storedBytes := cache.storedBytes - block.length
          blocks := cache.blocks.erase oldest }) := by
  have hmem : oldest ∈ cache.insertionOrder := by
    rw [horder]
    exact List.mem_cons_self
  obtain ⟨block, hblock⟩ := Option.isSome_iff_exists.1 ((h.listed oldest).1 hmem)
  refine ⟨block, hblock, ?_, ?_⟩
  · rw [h.stored]
    exact QHash.measure_le_total (f := fun _ block => block.length) hblock
  · unfold evictOldest
    rw [hblock]

/-- The lookup after the oldest block is gone. -/
theorem find_erase (cache : CopernicusDecodedBlockCache)
    (oldest key : UInt32) :
    (cache.blocks.erase oldest).lookup key
      = if key = oldest then none else cache.find key := by
  by_cases hkey : key = oldest
  · rw [if_pos hkey, hkey, AList.lookup_erase]
  · rw [if_neg hkey, AList.lookup_erase_ne hkey]
    rfl

/-- The cache without its oldest block. -/
theorem Sound.dequeue {block : Bytes} (h : cache.Sound)
    (horder : cache.insertionOrder = oldest :: rest)
    (hblock : cache.find oldest = some block) :
    Sound { cache with
      insertionOrder := rest
      storedBytes := cache.storedBytes - block.length
      blocks := cache.blocks.erase oldest } where
  stored := by
    have htotal := QHash.total_erase (fun _ block => block.length) oldest
      cache.blocks
    rw [QHash.measureAt_some hblock, ← h.stored] at htotal
    show cache.storedBytes - block.length
      = QHash.total (fun _ block => block.length) (cache.blocks.erase oldest)
    omega
  stored_le := (Nat.sub_le _ _).trans h.stored_le
  nodup := by
    have hnodup := h.nodup
    rw [horder] at hnodup
    exact (List.nodup_cons.1 hnodup).2
  listed key := by
    have hnodup := h.nodup
    have hlisted := h.listed key
    rw [horder] at hnodup hlisted
    show key ∈ rest ↔ ((cache.blocks.erase oldest).lookup key).isSome = true
    rw [find_erase]
    by_cases hkey : key = oldest
    · rw [if_pos hkey, hkey]
      exact iff_of_false (List.nodup_cons.1 hnodup).1 Bool.false_ne_true
    · rw [if_neg hkey, ← hlisted, List.mem_cons, or_iff_right hkey]

/-- A cache that is not full keeps its accounts with one more block. -/
theorem Sound.store {key : UInt32} {block : Bytes} (h : cache.Sound)
    (hkey : cache.find key = none)
    (hroom : cache.storedBytes + block.length ≤ cache.maximumBytes) :
    (cache.store key block).Sound where
  stored := by
    have htotal := QHash.total_insert (fun _ block => block.length) key block
      cache.blocks
    rw [QHash.measureAt_none hkey, ← h.stored] at htotal
    exact htotal.symm
  stored_le := hroom
  nodup := by
    have hnew : key ∉ cache.insertionOrder := by
      intro hmem
      rw [h.listed, hkey] at hmem
      cases hmem
    exact List.nodup_append.2 ⟨h.nodup, List.nodup_singleton key,
      fun other hother last hlast heq =>
        hnew (List.mem_singleton.1 hlast ▸ heq ▸ hother)⟩
  listed other := by
    show other ∈ cache.insertionOrder ++ [key]
      ↔ ((cache.blocks.insert key block).lookup other).isSome = true
    rw [List.mem_append, List.mem_singleton, h.listed other]
    by_cases hother : other = key
    · rw [hother, AList.lookup_insert]
      exact iff_of_true (Or.inr rfl) rfl
    · rw [AList.lookup_insert_ne hother, or_iff_left hother]
      rfl

/-- The order of a cache is only written where the loop ends. -/
theorem evict_order (order : List UInt32) :
    ∀ (cache : CopernicusDecodedBlockCache) (other : List UInt32),
      evict size order { cache with insertionOrder := other }
        = evict size order cache := by
  induction order with
  | nil => exact fun cache other => rfl
  | cons oldest rest ih =>
      intro cache other
      rw [evict, evict]
      by_cases hstop : cache.storedBytes ≤ cache.maximumBytes - size
      · rw [if_pos hstop, if_pos hstop]
      · rw [if_neg hstop, if_neg hstop]
        exact ih { cache with
          storedBytes := cache.storedBytes
            - ((cache.find oldest).getD []).length
          blocks := cache.blocks.erase oldest } other

theorem evicted_refl (cache : CopernicusDecodedBlockCache) (size : Nat) :
    Evicted cache size [] cache where
  maximumBytes := rfl
  order := rfl
  find _ := (if_neg List.not_mem_nil).symm
  needed n hn := absurd hn (Nat.not_lt_zero n)

/-- The keys that are left have the blocks they had. -/
theorem Evicted.bytesAt_eq (h : Evicted before size evicted cache)
    (hbefore : before.Sound) :
    cache.bytesAt cache.insertionOrder
      = before.bytesAt cache.insertionOrder := by
  unfold bytesAt
  congr 1
  refine List.map_congr_left fun key hkey => ?_
  have hnodup := hbefore.nodup
  rw [h.order] at hnodup
  have hkept : key ∉ evicted := fun hmem =>
    (List.nodup_append.1 hnodup).2.2 key hmem key hkey rfl
  rw [h.find key, if_neg hkept]

/-- A round of eviction that was needed. -/
theorem Evicted.dequeue {block : Bytes}
    (h : Evicted before size evicted cache) (hbefore : before.Sound)
    (hsound : cache.Sound)
    (horder : cache.insertionOrder = oldest :: rest)
    (hroom : cache.lacksRoom size = true) :
    Evicted before size (evicted ++ [oldest])
      { cache with
        insertionOrder := rest
        storedBytes := cache.storedBytes - block.length
        blocks := cache.blocks.erase oldest } where
  maximumBytes := h.maximumBytes
  order := by
    rw [h.order, horder, List.append_assoc]
    rfl
  find key := by
    show (cache.blocks.erase oldest).lookup key = _
    rw [find_erase, h.find key]
    simp only [List.mem_append, List.mem_singleton]
    by_cases hkey : key = oldest
    · rw [if_pos hkey, if_pos (Or.inr hkey)]
    · rw [if_neg hkey]
      simp only [hkey, or_false]
  needed n hn := by
    rw [List.length_append, List.length_singleton,
      Nat.lt_succ_iff_lt_or_eq] at hn
    rcases hn with hbefore' | hlast
    · exact h.needed n hbefore'
    · have hdrop : before.insertionOrder.drop n = cache.insertionOrder := by
        rw [h.order, hlast, List.drop_left]
      rw [hdrop, ← h.bytesAt_eq hbefore, ← hsound.stored_eq,
        ← h.maximumBytes]
      exact of_decide_eq_true hroom

end CopernicusDecodedBlockCache

-- ================================================================ calls

open CopernicusDecodedBlockCache

/-- A call that has passed its first checks. -/
structure BlockInsertion.Running (insertion : BlockInsertion)
    (cache : CopernicusDecodedBlockCache) : Prop where
  before : insertion.before.Sound
  block_ne : insertion.block ≠ []
  fits : insertion.block.length ≤ insertion.before.maximumBytes
  absent : insertion.before.find insertion.key = none
  progress : ∃ evicted,
    Evicted insertion.before insertion.block.length evicted cache
  /-- What is left of the loop ends as the whole of it. -/
  loop : evict insertion.block.length cache.insertionOrder cache
    = evict insertion.block.length insertion.before.insertionOrder
      insertion.before

/-- A call that stored its block: it is found, and what was evicted are
the oldest blocks, as many as were needed. -/
structure BlockInsertion.Accepted (insertion : BlockInsertion)
    (cache : CopernicusDecodedBlockCache) : Prop where
  found : cache.find insertion.key = some insertion.block
  evicted : ∃ evicted kept,
    Evicted insertion.before insertion.block.length evicted kept ∧
      cache = kept.store insertion.key insertion.block

/-- A call that stored nothing. -/
def BlockInsertion.Refused (insertion : BlockInsertion)
    (cache : CopernicusDecodedBlockCache) : Prop :=
  ∃ evicted, Evicted insertion.before insertion.block.length evicted cache

/-- A call that has returned, and the cache it left. -/
structure BlockInsertion.Returned (insertion : BlockInsertion)
    (stored : Bool) (cache : CopernicusDecodedBlockCache) : Prop where
  accepted : stored = true → insertion.Accepted cache
  refused : stored = false → insertion.Refused cache
  /-- It is the call that is not interrupted, for some answer of the
  budget. -/
  sequential : ∃ granted, insertion.before.insert granted insertion.key
    insertion.block = (stored, cache)

/-- A reader between two steps. -/
structure BlockReaderCache.Sound (reader : BlockReaderCache) : Prop where
  cache : reader.cache.Sound
  /-- The keys are the last that were accepted, oldest first. -/
  oldest_first : reader.cache.insertionOrder <:+ reader.accepted
  inserting : ∀ insertion, reader.inserting = some insertion →
    insertion.Running reader.cache
  returned : ∀ insertion stored, reader.inserting = none →
    reader.returned = some (insertion, stored) →
      insertion.Returned stored reader.cache

variable {reader : BlockReaderCache} {insertion : BlockInsertion}
  {cache : CopernicusDecodedBlockCache}

/-- A call that is refused at once. -/
theorem BlockInsertion.returned_refused (hchecks : insertion.block = [] ∨
      insertion.before.maximumBytes < insertion.block.length ∨
      (insertion.before.find insertion.key).isSome = true) :
    insertion.Returned false insertion.before where
  accepted h := absurd h Bool.false_ne_true
  refused _ := ⟨[], evicted_refl _ _⟩
  sequential := by
    refine ⟨true, ?_⟩
    unfold CopernicusDecodedBlockCache.insert
    by_cases hsize : insertion.block = [] ∨
        insertion.before.maximumBytes < insertion.block.length
    · rw [if_pos hsize]
    · rw [if_neg hsize]
      rcases hchecks with hempty | hlong | hpresent
      · exact absurd (Or.inl hempty) hsize
      · exact absurd (Or.inr hlong) hsize
      · rw [if_pos hpresent]

/-- A call behind its loop. -/
theorem BlockInsertion.Running.insert_eq (h : insertion.Running cache)
    (hroom : cache.lacksRoom insertion.block.length = false)
    (granted : Bool) :
    insertion.before.insert granted insertion.key insertion.block
      = if granted then (true, cache.store insertion.key insertion.block)
        else (false, cache) := by
  have hfits : ¬ (insertion.block = [] ∨
      insertion.before.maximumBytes < insertion.block.length) := by
    rintro (hempty | hlong)
    · exact h.block_ne hempty
    · exact absurd h.fits (Nat.not_le.2 hlong)
  have habsent : ¬ (insertion.before.find insertion.key).isSome = true := by
    rw [h.absent]
    exact Bool.false_ne_true
  have hloop : evict insertion.block.length cache.insertionOrder cache
      = (true, cache) := by
    have hstop : cache.storedBytes
        ≤ cache.maximumBytes - insertion.block.length :=
      Nat.not_lt.1 (of_decide_eq_false hroom)
    cases horder : cache.insertionOrder with
    | nil =>
        unfold evict
        rw [decide_eq_true hstop, ← horder]
    | cons oldest rest =>
        unfold evict
        rw [if_pos hstop, ← horder]
  unfold CopernicusDecodedBlockCache.insert
  rw [if_neg hfits, if_neg habsent, ← h.loop, hloop]
  cases granted with
  | false => rfl
  | true => rfl

/-- A round of the loop. -/
theorem BlockInsertion.Running.dequeue {oldest : UInt32}
    {rest : List UInt32} {block : Bytes} (h : insertion.Running cache)
    (hsound : cache.Sound) (horder : cache.insertionOrder = oldest :: rest)
    (hblock : cache.find oldest = some block)
    (hroom : cache.lacksRoom insertion.block.length = true) :
    insertion.Running { cache with
      insertionOrder := rest
      storedBytes := cache.storedBytes - block.length
      blocks := cache.blocks.erase oldest } where
  before := h.before
  block_ne := h.block_ne
  fits := h.fits
  absent := h.absent
  progress := by
    obtain ⟨evicted, hevicted⟩ := h.progress
    exact ⟨evicted ++ [oldest],
      hevicted.dequeue h.before hsound horder hroom⟩
  loop := by
    rw [← h.loop, horder]
    have hfull : ¬ cache.storedBytes
        ≤ cache.maximumBytes - insertion.block.length :=
      Nat.not_le.2 (of_decide_eq_true hroom)
    have hround : evict insertion.block.length (oldest :: rest) cache
        = evict insertion.block.length rest { cache with
          storedBytes := cache.storedBytes - block.length
          blocks := cache.blocks.erase oldest } := by
      rw [evict, if_neg hfull, hblock, Option.getD_some]
    rw [hround]
    exact evict_order rest { cache with
      storedBytes := cache.storedBytes - block.length
      blocks := cache.blocks.erase oldest } rest

/-- A call whose block the budget refuses. -/
theorem BlockInsertion.Running.refused (h : insertion.Running cache)
    (hroom : cache.lacksRoom insertion.block.length = false) :
    insertion.Returned false cache where
  accepted hstored := absurd hstored Bool.false_ne_true
  refused _ := h.progress
  sequential := ⟨false, h.insert_eq hroom false⟩

/-- A call whose block the budget grants. -/
theorem BlockInsertion.Running.accepted (h : insertion.Running cache)
    (hroom : cache.lacksRoom insertion.block.length = false) :
    insertion.Returned true
      (cache.store insertion.key insertion.block) where
  accepted _ := by
    obtain ⟨evicted, hevicted⟩ := h.progress
    exact ⟨AList.lookup_insert _, evicted, cache, hevicted, rfl⟩
  refused hstored := absurd hstored.symm Bool.false_ne_true
  sequential := ⟨true, h.insert_eq hroom true⟩

-- ================================================================= pool

namespace DecodedBlocks

/-- The accounts of all caches and of their budget. -/
structure Exact (s : DecodedBlocks) : Prop where
  /-- No `release` gave back more than was reserved. -/
  asserted : s.asserted = true
  reserved : s.budget.reservedBytes
    = QHash.total (fun _ reader => reader.cache.storedBytes) s.readers
  reserved_le : s.budget.reservedBytes ≤ s.budget.maximumBytes
  readers : ∀ id reader, s.readers.lookup id = some reader → reader.Sound

variable {s s' : DecodedBlocks} {id : Nat} {reader' : BlockReaderCache}

theorem exact_init (maximumBytes : Int) : (init maximumBytes).Exact where
  asserted := rfl
  reserved := rfl
  reserved_le := Nat.zero_le _
  readers id reader h := by cases h

/-- A cache has reserved what it stores. -/
theorem Exact.stored_le (h : s.Exact)
    (hlookup : s.readers.lookup id = some reader) :
    reader.cache.storedBytes ≤ s.budget.reservedBytes := by
  rw [h.reserved]
  exact QHash.measure_le_total
    (f := fun _ reader => reader.cache.storedBytes) hlookup

/-- One reader changes, and the budget by as much. -/
theorem Exact.set (h : s.Exact)
    (hlookup : s.readers.lookup id = some reader)
    (hreader : reader'.Sound) {budget : CopernicusDecodedBlockBudget}
    (hbudget : budget.reservedBytes + reader.cache.storedBytes
      = s.budget.reservedBytes + reader'.cache.storedBytes)
    (hle : budget.reservedBytes ≤ budget.maximumBytes) :
    Exact
      { budget := budget
        readers := s.readers.insert id reader'
        asserted := true } where
  asserted := rfl
  reserved := by
    have htotal := QHash.total_insert
      (fun _ reader => reader.cache.storedBytes) id reader' s.readers
    rw [QHash.measureAt_some hlookup, ← h.reserved] at htotal
    show budget.reservedBytes
      = QHash.total (fun _ reader => reader.cache.storedBytes)
        (s.readers.insert id reader')
    omega
  reserved_le := hle
  readers other found hfound := by
    by_cases hother : other = id
    · rw [hother, AList.lookup_insert] at hfound
      cases hfound
      exact hreader
    · rw [AList.lookup_insert_ne hother] at hfound
      exact h.readers other found hfound

/-- A reader whose bytes stay. -/
theorem Exact.setReader (h : s.Exact)
    (hlookup : s.readers.lookup id = some reader)
    (hreader : reader'.Sound)
    (hstored : reader'.cache.storedBytes = reader.cache.storedBytes) :
    (s.setReader id reader').Exact := by
  have hset := h.set hlookup hreader
    (congrArg (s.budget.reservedBytes + ·) hstored.symm) h.reserved_le
  unfold DecodedBlocks.setReader
  rw [h.asserted]
  exact hset

theorem exact_create (h : s.Exact) (maximumBytes : Int)
    (hlookup : s.readers.lookup id = none) :
    (s.setReader id { cache := .ofMaximum maximumBytes }).Exact where
  asserted := h.asserted
  reserved := by
    have htotal := QHash.total_insert
      (fun _ reader => reader.cache.storedBytes) id
      { cache := .ofMaximum maximumBytes } s.readers
    rw [QHash.measureAt_none hlookup, ← h.reserved] at htotal
    exact htotal.symm
  reserved_le := h.reserved_le
  readers other found hfound := by
    have hfound : (s.readers.insert id _).lookup other = some found := hfound
    by_cases hother : other = id
    · rw [hother, AList.lookup_insert] at hfound
      cases hfound
      exact
        { cache := sound_ofMaximum maximumBytes
          oldest_first := List.suffix_refl []
          inserting := fun insertion hinserting => by cases hinserting
          returned := fun insertion stored _ hreturned => by
            cases hreturned }
    · rw [AList.lookup_insert_ne hother] at hfound
      exact h.readers other found hfound

/-- A call returns without storing. -/
theorem sound_refused (h : reader.Sound)
    (hreturned : insertion.Returned false reader.cache) :
    (reader.answer insertion false reader.cache).Sound where
  cache := h.cache
  oldest_first := h.oldest_first
  inserting _ hinserting := by cases hinserting
  returned _ _ _ hanswer := by
    cases hanswer
    exact hreturned

/-- A call returns with its block stored. -/
theorem sound_accepted (h : reader.Sound)
    (hrunning : insertion.Running reader.cache)
    (hroom : reader.cache.lacksRoom insertion.block.length = false) :
    (reader.answer insertion true
      (reader.cache.store insertion.key insertion.block)).Sound := by
  obtain ⟨evicted, hevicted⟩ := hrunning.progress
  have habsent : reader.cache.find insertion.key = none := by
    rw [hevicted.find, hrunning.absent, ite_self]
  have hstop : reader.cache.storedBytes
      ≤ reader.cache.maximumBytes - insertion.block.length :=
    Nat.not_lt.1 (of_decide_eq_false hroom)
  have hfits := hrunning.fits
  rw [← hevicted.maximumBytes] at hfits
  refine
    { cache := h.cache.store habsent (by omega)
      oldest_first := ?_
      inserting := fun other hother => by cases hother
      returned := fun other stored _ hanswer => ?_ }
  · obtain ⟨earlier, hearlier⟩ := h.oldest_first
    refine ⟨earlier, ?_⟩
    show earlier ++ (reader.cache.insertionOrder ++ [insertion.key])
      = reader.accepted ++ [insertion.key]
    rw [← List.append_assoc, hearlier]
  · cases hanswer
    exact hrunning.accepted hroom

theorem exact_insertStep (h : s.Exact)
    (hlookup : s.readers.lookup id = some reader) (key : UInt32)
    (block : Bytes) : (insertStep id reader key block s).Exact := by
  have hreader := h.readers id reader hlookup
  unfold insertStep
  by_cases hsize : block = [] ∨ reader.cache.maximumBytes < block.length
  · rw [if_pos hsize]
    refine h.setReader hlookup (sound_refused hreader
      (BlockInsertion.returned_refused ?_)) rfl
    rcases hsize with hempty | hlong
    · exact Or.inl hempty
    · exact Or.inr (Or.inl hlong)
  rw [if_neg hsize]
  by_cases hpresent : (reader.cache.find key).isSome = true
  · rw [if_pos hpresent]
    exact h.setReader hlookup (sound_refused hreader
      (BlockInsertion.returned_refused (Or.inr (Or.inr hpresent)))) rfl
  · rw [if_neg hpresent]
    refine h.setReader hlookup ?_ rfl
    refine
      { cache := hreader.cache
        oldest_first := hreader.oldest_first
        inserting := fun insertion hinserting => ?_
        returned := fun insertion stored hnone => by cases hnone }
    cases hinserting
    push Not at hsize
    exact
      { before := hreader.cache
        block_ne := hsize.1
        fits := hsize.2
        absent := Option.not_isSome_iff_eq_none.1 hpresent
        progress := ⟨[], evicted_refl _ _⟩
        loop := rfl }

theorem exact_evictStep (h : s.Exact)
    (hlookup : s.readers.lookup id = some reader)
    (hinserting : reader.inserting = some insertion)
    (hroom : reader.cache.lacksRoom insertion.block.length = true) :
    (evictStep id reader insertion s).Exact := by
  have hreader := h.readers id reader hlookup
  have hrunning := hreader.inserting insertion hinserting
  unfold evictStep
  cases horder : reader.cache.insertionOrder with
  | nil =>
      rw [hreader.cache.room_of_empty horder] at hroom
      cases hroom
  | cons oldest rest =>
      obtain ⟨block, hblock, hle, hevict⟩ :=
        evictOldest_spec hreader.cache horder
      have hreserved := h.stored_le hlookup
      dsimp only
      rw [hevict]
      dsimp only
      unfold release DecodedBlocks.setReader
      dsimp only
      have hcovers : s.budget.covers block.length = true :=
        decide_eq_true (hle.trans hreserved)
      rw [h.asserted, hcovers]
      refine h.set hlookup ?_ ?_ ?_
      · refine
          { cache := hreader.cache.dequeue horder hblock
            oldest_first := ?_
            inserting := fun other hother => ?_
            returned := fun other stored hnone => ?_ }
        · have hsuffix := hreader.oldest_first
          rw [horder] at hsuffix
          exact (List.suffix_cons oldest rest).trans hsuffix
        · have hsame : other = insertion :=
            Option.some.inj (hother.symm.trans hinserting)
          rw [hsame]
          exact hrunning.dequeue hreader.cache horder hblock hroom
        · have hnone : reader.inserting = none := hnone
          rw [hinserting] at hnone
          cases hnone
      · show s.budget.reservedBytes - block.length + reader.cache.storedBytes
          = s.budget.reservedBytes
            + (reader.cache.storedBytes - block.length)
        omega
      · exact (Nat.sub_le _ _).trans h.reserved_le

theorem exact_reserveStep (h : s.Exact)
    (hlookup : s.readers.lookup id = some reader)
    (hinserting : reader.inserting = some insertion)
    (hroom : reader.cache.lacksRoom insertion.block.length = false) :
    (reserveStep id reader insertion s).Exact := by
  have hreader := h.readers id reader hlookup
  have hrunning := hreader.inserting insertion hinserting
  unfold reserveStep CopernicusDecodedBlockBudget.reserve
  by_cases hfull : insertion.block.length = 0 ∨
      s.budget.maximumBytes - s.budget.reservedBytes
        < insertion.block.length
  · rw [if_pos hfull]
    exact h.setReader hlookup
      (sound_refused hreader (hrunning.refused hroom)) rfl
  · rw [if_neg hfull]
    dsimp only
    unfold DecodedBlocks.setReader
    rw [h.asserted]
    have hle := h.reserved_le
    refine h.set hlookup (sound_accepted hreader hrunning hroom) ?_ ?_
    · show s.budget.reservedBytes + insertion.block.length
          + reader.cache.storedBytes
        = s.budget.reservedBytes
          + (reader.cache.storedBytes + insertion.block.length)
      omega
    · show s.budget.reservedBytes + insertion.block.length
        ≤ s.budget.maximumBytes
      omega

theorem exact_destroyStep (h : s.Exact)
    (hlookup : s.readers.lookup id = some reader) :
    (destroyStep id reader s).Exact := by
  have herase := QHash.total_erase
    (fun _ reader => reader.cache.storedBytes) id s.readers
  rw [QHash.measureAt_some hlookup, ← h.reserved] at herase
  have hothers : ∀ other found,
      (s.readers.erase id).lookup other = some found → found.Sound := by
    intro other found hfound
    by_cases hother : other = id
    · rw [hother, AList.lookup_erase] at hfound
      cases hfound
    · rw [AList.lookup_erase_ne hother] at hfound
      exact h.readers other found hfound
  have hle := h.reserved_le
  unfold destroyStep
  by_cases hstored : reader.cache.storedBytes > 0
  · rw [if_pos hstored]
    refine
      { asserted := ?_
        reserved := ?_
        reserved_le := (Nat.sub_le _ _).trans hle
        readers := hothers }
    · show (s.asserted && s.budget.covers reader.cache.storedBytes) = true
      rw [h.asserted]
      exact decide_eq_true (h.stored_le hlookup)
    · show s.budget.reservedBytes - reader.cache.storedBytes
        = QHash.total (fun _ reader => reader.cache.storedBytes)
          (s.readers.erase id)
      omega
  · rw [if_neg hstored]
    refine
      { asserted := h.asserted
        reserved := ?_
        reserved_le := hle
        readers := hothers }
    show s.budget.reservedBytes
      = QHash.total (fun _ reader => reader.cache.storedBytes)
        (s.readers.erase id)
    omega

theorem lookup_of_idle (h : s.idle id = some reader) :
    s.readers.lookup id = some reader :=
  (Option.filter_eq_some_iff.1 h).1

theorem lookup_of_running (h : s.running id = some (reader, insertion)) :
    s.readers.lookup id = some reader ∧
      reader.inserting = some insertion := by
  obtain ⟨found, hlookup, hmap⟩ := Option.bind_eq_some_iff.1 h
  obtain ⟨inserting, hinserting, hpair⟩ := Option.map_eq_some_iff.1 hmap
  cases hpair
  exact ⟨hlookup, hinserting⟩

/-- Every step keeps the accounts. -/
theorem exact_step (h : s.Exact) {a : Action} (hnext : next a s = some s') :
    s'.Exact := by
  cases a with
  | create id maximumBytes =>
      simp only [next] at hnext
      by_cases hlookup : (s.readers.lookup id).isSome = true
      · rw [if_pos hlookup] at hnext
        cases hnext
      · rw [if_neg hlookup] at hnext
        cases hnext
        exact exact_create h maximumBytes
          (Option.not_isSome_iff_eq_none.1 hlookup)
  | find id key =>
      obtain ⟨reader, hidle, rfl⟩ := Option.map_eq_some_iff.1 hnext
      exact h
  | insert id key block =>
      obtain ⟨reader, hidle, rfl⟩ := Option.map_eq_some_iff.1 hnext
      exact exact_insertStep h (lookup_of_idle hidle) key block
  | evict id =>
      obtain ⟨⟨reader, insertion⟩, hrunning, hstep⟩ :=
        Option.bind_eq_some_iff.1 hnext
      obtain ⟨hlookup, hinserting⟩ := lookup_of_running hrunning
      dsimp only at hstep
      by_cases hroom : reader.cache.lacksRoom insertion.block.length = true
      · rw [if_pos hroom] at hstep
        cases hstep
        exact exact_evictStep h hlookup hinserting hroom
      · rw [if_neg hroom] at hstep
        cases hstep
  | reserve id =>
      obtain ⟨⟨reader, insertion⟩, hrunning, hstep⟩ :=
        Option.bind_eq_some_iff.1 hnext
      obtain ⟨hlookup, hinserting⟩ := lookup_of_running hrunning
      dsimp only at hstep
      by_cases hroom : reader.cache.lacksRoom insertion.block.length = true
      · rw [if_pos hroom] at hstep
        cases hstep
      · rw [if_neg hroom] at hstep
        cases hstep
        exact exact_reserveStep h hlookup hinserting
          (Bool.eq_false_iff.2 hroom)
  | destroy id =>
      obtain ⟨reader, hidle, rfl⟩ := Option.map_eq_some_iff.1 hnext
      exact exact_destroyStep h (lookup_of_idle hidle)

/-- In every run of any number of caches, whatever they do between each
other's steps: the budget has reserved what the caches store, and their
inserts end as they should. -/
theorem decodedBlocks_exact (maximumBytes : Int)
    (hrun : Run next anyStep (init maximumBytes) s) : s.Exact :=
  hrun.invariant (exact_init maximumBytes)
    fun _ _ _ h _ hnext => exact_step h hnext

/-- Two caches on a budget of 12 bytes: the second is refused, stores a
smaller block, and the first makes room for another of its own. -/
def twoCaches : List Action :=
  [.create 0 12, .create 1 12, .insert 0 1 (List.replicate 8 0), .reserve 0,
    .insert 1 2 (List.replicate 8 1), .reserve 1,
    .insert 1 3 (List.replicate 4 2), .reserve 1,
    .insert 0 4 (List.replicate 8 3), .evict 0, .reserve 0]

/-- In the end the budget is used to the last byte. -/
theorem decodedBlocks_exact_twoCaches :
    ∃ s, runActions next twoCaches (init 12) = some s ∧ s.Exact ∧
      s.budget.reservedBytes = 12 := by
  have hrun : runActions next twoCaches (init 12)
      = some ((runActions next twoCaches (init 12)).getD (init 12)) := rfl
  exact ⟨_, hrun, decodedBlocks_exact 12 (run_of_runActions hrun), rfl⟩

end DecodedBlocks

end AowisMap.Terrain
