/-
The admission counters as the threads of the server share them:
`TerrainAdmission` over an atomic `int`, `TerrainByteAdmission` over an
atomic `std::uint64_t`.

The loops of both `tryAcquire` are calls of `Lib/Atomic.lean`, and
`release` is one operation. The terrain endpoints take the two for single
steps (`TerrainByteAdmission.tryAcquire`); that they may is a result
(Proofs/AdmissionCounters.lean).
-/
import AowisMap.Lib.Atomic
import AowisMap.Server.Terrain

namespace AowisMap.Server

open Lib

/-- `TerrainAdmission`: the bound of the loop leaves room for the next
`int`. -/
def TerrainAdmission.loop (maximumJobs : Int) : Atomic.Grants Unit Int where
  initial := 0
  refused _ := false
  update _ current :=
    if current < maximumJobs then some (current + 1) else none
  release _ current := current - 1

/-- `TerrainByteAdmission`, in the arithmetic of its type. -/
def TerrainByteAdmission.loop (maximumBytes : UInt64) :
    Atomic.Grants UInt64 UInt64 where
  initial := 0
  refused bytes := decide (maximumBytes < bytes)
  update bytes current :=
    if current ≤ maximumBytes - bytes then some (current + bytes) else none
  release bytes current := current - bytes

/-- What any number of threads do with one counter. -/
abbrev AdmissionRun {T R V : Type} [DecidableEq T] [DecidableEq R]
    [DecidableEq V] (g : Atomic.Grants R V) (s : Atomic.State T R V) : Prop :=
  Run (Atomic.next g) anyStep (Atomic.State.init g) s

end AowisMap.Server
