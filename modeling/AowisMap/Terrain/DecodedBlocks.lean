/-
Raster readers that share one budget for the decoded blocks they keep
(`CopernicusDecodedBlockBudget` and the caches on it).

# Steps

A cache belongs to one thread; the budget is behind a mutex. So a call of
`insert` is one step for each time it takes the mutex: the checks, every
block it evicts, and the reservation. Between them the other caches may do
anything.

# History

A reader remembers how a running insert found the cache, which keys were
accepted so far, and how the last insert ended. No step looks at that.
-/
import AowisMap.Lib.Run
import AowisMap.Terrain.Raster

namespace AowisMap.Terrain

open Lib

-- =============================================================== budget

structure CopernicusDecodedBlockBudget where
  maximumBytes : Nat
  reservedBytes : Nat := 0

namespace CopernicusDecodedBlockBudget

/-- The constructor. -/
def ofMaximum (maximumBytes : Int) : CopernicusDecodedBlockBudget where
  maximumBytes := if maximumBytes > 0 then maximumBytes.toNat else 0

def reserve (budget : CopernicusDecodedBlockBudget) (bytes : Nat) :
    Bool × CopernicusDecodedBlockBudget :=
  if bytes = 0 ∨ budget.maximumBytes - budget.reservedBytes < bytes then
    (false, budget)
  else
    (true, { budget with reservedBytes := budget.reservedBytes + bytes })

/-- Whether the assertion of `release` holds. -/
def covers (budget : CopernicusDecodedBlockBudget) (bytes : Nat) : Bool :=
  decide (bytes ≤ budget.reservedBytes)

def release (budget : CopernicusDecodedBlockBudget) (bytes : Nat) :
    CopernicusDecodedBlockBudget :=
  { budget with reservedBytes := budget.reservedBytes - bytes }

end CopernicusDecodedBlockBudget

-- ================================================================ steps

namespace CopernicusDecodedBlockCache

/-- The constructor. -/
def ofMaximum (maximumBytes : Int) : CopernicusDecodedBlockCache where
  maximumBytes := if maximumBytes > 0 then maximumBytes.toNat else 0

/-- The condition of the loop of `insert`. -/
def lacksRoom (cache : CopernicusDecodedBlockCache) (size : Nat) : Bool :=
  decide (cache.maximumBytes - size < cache.storedBytes)

/-- The body of the loop of `insert` for the oldest key: the bytes that
were evicted, if it has a block, and the cache. -/
def evictOldest (oldest : UInt32) (rest : List UInt32)
    (cache : CopernicusDecodedBlockCache) :
    Option Nat × CopernicusDecodedBlockCache :=
  match cache.find oldest with
  | none => (none, { cache with insertionOrder := rest })
  | some existing =>
      (some existing.length,
        { cache with
          insertionOrder := rest
          storedBytes := cache.storedBytes - existing.length
          blocks := cache.blocks.erase oldest })

/-- The end of `insert`, once the budget has granted the block. -/
def store (key : UInt32) (block : Bytes)
    (cache : CopernicusDecodedBlockCache) : CopernicusDecodedBlockCache :=
  { cache with
    blocks := cache.blocks.insert key block
    insertionOrder := cache.insertionOrder ++ [key]
    storedBytes := cache.storedBytes + block.length }

end CopernicusDecodedBlockCache

/-- A call of `insert`, and the cache it found. -/
structure BlockInsertion where
  key : UInt32
  block : Bytes
  before : CopernicusDecodedBlockCache

/-- A cache with the call it is in. -/
structure BlockReaderCache where
  cache : CopernicusDecodedBlockCache
  inserting : Option BlockInsertion := none
  accepted : List UInt32 := []
  returned : Option (BlockInsertion × Bool) := none

/-- The end of a call. -/
def BlockReaderCache.answer (reader : BlockReaderCache)
    (insertion : BlockInsertion) (stored : Bool)
    (cache : CopernicusDecodedBlockCache) : BlockReaderCache where
  cache := cache
  inserting := none
  accepted :=
    if stored then reader.accepted ++ [insertion.key] else reader.accepted
  returned := some (insertion, stored)

/-- The caches that live, by an identity, and their budget. -/
structure DecodedBlocks where
  budget : CopernicusDecodedBlockBudget
  readers : QHash Nat BlockReaderCache
  /-- Whether every `release` so far met its assertion. -/
  asserted : Bool

namespace DecodedBlocks

def init (maximumBytes : Int) : DecodedBlocks where
  budget := .ofMaximum maximumBytes
  readers := ∅
  asserted := true

inductive Action
  | create (id : Nat) (maximumBytes : Int)
  | find (id : Nat) (key : UInt32)
  | insert (id : Nat) (key : UInt32) (block : Bytes)
  | evict (id : Nat)
  | reserve (id : Nat)
  | destroy (id : Nat)

def setReader (s : DecodedBlocks) (id : Nat) (reader : BlockReaderCache) :
    DecodedBlocks :=
  { s with readers := s.readers.insert id reader }

def release (s : DecodedBlocks) (bytes : Nat) : DecodedBlocks :=
  { s with
    budget := s.budget.release bytes
    asserted := s.asserted && s.budget.covers bytes }

/-- The checks at the beginning of `insert`. -/
def insertStep (id : Nat) (reader : BlockReaderCache) (key : UInt32)
    (block : Bytes) (s : DecodedBlocks) : DecodedBlocks :=
  let insertion : BlockInsertion := ⟨key, block, reader.cache⟩
  if block = [] ∨ reader.cache.maximumBytes < block.length then
    s.setReader id (reader.answer insertion false reader.cache)
  else if (reader.cache.find key).isSome then
    s.setReader id (reader.answer insertion false reader.cache)
  else s.setReader id { reader with inserting := some insertion }

/-- One round of the loop of `insert`. -/
def evictStep (id : Nat) (reader : BlockReaderCache)
    (insertion : BlockInsertion) (s : DecodedBlocks) : DecodedBlocks :=
  match reader.cache.insertionOrder with
  | [] => s.setReader id (reader.answer insertion false reader.cache)
  | oldest :: rest =>
      match reader.cache.evictOldest oldest rest with
      | (none, cache) => s.setReader id { reader with cache := cache }
      | (some evictedBytes, cache) =>
          (s.release evictedBytes).setReader id { reader with cache := cache }

/-- What `insert` does behind its loop. -/
def reserveStep (id : Nat) (reader : BlockReaderCache)
    (insertion : BlockInsertion) (s : DecodedBlocks) : DecodedBlocks :=
  match s.budget.reserve insertion.block.length with
  | (false, budget) =>
      { s with budget := budget }.setReader id
        (reader.answer insertion false reader.cache)
  | (true, budget) =>
      { s with budget := budget }.setReader id
        (reader.answer insertion true
          (reader.cache.store insertion.key insertion.block))

/-- The destructor. -/
def destroyStep (id : Nat) (reader : BlockReaderCache) (s : DecodedBlocks) :
    DecodedBlocks :=
  let s :=
    if reader.cache.storedBytes > 0 then s.release reader.cache.storedBytes
    else s
  { s with readers := s.readers.erase id }

/-- A cache that no call is in. -/
def idle (s : DecodedBlocks) (id : Nat) : Option BlockReaderCache :=
  (s.readers.lookup id).filter fun reader => reader.inserting.isNone

/-- A cache with the call of `insert` it is in. -/
def running (s : DecodedBlocks) (id : Nat) :
    Option (BlockReaderCache × BlockInsertion) :=
  (s.readers.lookup id).bind fun reader =>
    reader.inserting.map fun insertion => (reader, insertion)

def next : Action → DecodedBlocks → Option DecodedBlocks
  | .create id maximumBytes, s =>
      if (s.readers.lookup id).isSome then none
      else some (s.setReader id { cache := .ofMaximum maximumBytes })
  | .find id _, s => (s.idle id).map fun _ => s
  | .insert id key block, s =>
      (s.idle id).map fun reader => insertStep id reader key block s
  | .evict id, s =>
      (s.running id).bind fun (reader, insertion) =>
        if reader.cache.lacksRoom insertion.block.length then
          some (evictStep id reader insertion s)
        else none
  | .reserve id, s =>
      (s.running id).bind fun (reader, insertion) =>
        if reader.cache.lacksRoom insertion.block.length then none
        else some (reserveStep id reader insertion s)
  | .destroy id, s =>
      (s.idle id).map fun reader => destroyStep id reader s

end DecodedBlocks

end AowisMap.Terrain
