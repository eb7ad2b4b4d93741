/-
The admission counters in every interleaving of the threads that share
them.

The loops are linear whatever they do (`Atomic.linear_reachable`), and
what they compute is what the endpoints take for a single step
(`Agrees`). So the counter of a run is one that single steps lead to, it
is the sum of what is admitted, and it stays between zero and the limit:
no arithmetic of its type ever wraps.
-/
import AowisMap.Server.AdmissionCounters

namespace AowisMap.Server

open Lib Lib.Atomic

-- ============================================================ the contract

section

variable {T R V : Type}

/-- An admission counter by its single steps. -/
structure SingleSteps (R : Type) where
  tryAcquire : R → Int → Option Int
  release : R → Int → Int

/-- The counter and what is admitted, step by step. -/
def SingleSteps.next [DecidableEq R] (ops : SingleSteps R)
    (a : AtomicAction R) (s : Int × List R) : Option (Int × List R) :=
  match a with
  | .grant request =>
      (ops.tryAcquire request s.1).map fun count => (count, request :: s.2)
  | .giveBack request =>
      if request ∈ s.2 then
        some (ops.release request s.1, s.2.erase request)
      else none

/-- What the endpoints rely on, of a counter that many threads share. -/
structure AdmissionContract [DecidableEq R] (ops : SingleSteps R)
    (count : V → Int) (amount : R → Nat) (limit : Nat)
    (s : Atomic.State T R V) : Prop where
  /-- The counter is one that single steps lead to, and what is admitted
  is what they admit. -/
  single : ∃ current, s.order.getLast? = some current ∧
    Run ops.next anyStep (0, []) (count current, s.granted) ∧
    count current = (s.granted.map amount).sum
  /-- It has been within its limit all along. -/
  bounds : ∀ current ∈ s.order, 0 ≤ count current ∧ count current ≤ limit
  /-- Who is admitted made a step of his own. -/
  admitted : ∀ a ∈ s.answers, a.granted = true → a.since ≤ a.position ∧
    ∃ current after, s.order[a.position]? = some current ∧
      s.order[a.position + 1]? = some after ∧
      ops.tryAcquire a.request (count current) = some (count after)
  once : ((s.answers.filter (·.granted)).map (·.position)).Pairwise (· < ·)
  /-- Who is refused is so by the counter at some time after his call. -/
  refused : ∀ a ∈ s.answers, a.granted = false → a.since ≤ a.position ∧
    ∃ current, s.order[a.position]? = some current ∧
      ops.tryAcquire a.request (count current) = none

/-- The loops compute the single steps, within the limit. -/
structure Agrees (g : Grants R V) (ops : SingleSteps R) (count : V → Int)
    (amount : R → Nat) (limit : Nat) : Prop where
  counts : Counts g count amount limit
  refused : ∀ request count, g.refused request = true →
    ops.tryAcquire request count = none
  update : ∀ request current, g.refused request = false →
    0 ≤ count current → count current ≤ limit →
    ops.tryAcquire request (count current)
      = (g.update request current).map count
  release : ∀ request count, ops.release request count
    = count - amount request

variable [DecidableEq T] [DecidableEq R] [DecidableEq V] {g : Grants R V}
  {ops : SingleSteps R} {count : V → Int} {amount : R → Nat} {limit : Nat}

omit [DecidableEq V] in
/-- Single steps over values are single steps over counts. -/
theorem single_of_atomic (hagrees : Agrees g ops count amount limit)
    {s : List V × List R}
    (h : Run (atomicNext g) anyStep ([g.initial], []) s) :
    ∃ current, s.1.getLast? = some current ∧
      Run ops.next anyStep (0, []) (count current, s.2) := by
  have hboth : Counted count amount limit s ∧
      ∃ current, s.1.getLast? = some current ∧
        Run ops.next anyStep (0, []) (count current, s.2) := by
    refine h.invariant (P := fun s => Counted count amount limit s ∧
      ∃ current, s.1.getLast? = some current ∧
        Run ops.next anyStep (0, []) (count current, s.2)) ?_ ?_
    · refine ⟨counted_init hagrees.counts, g.initial, rfl, ?_⟩
      rw [hagrees.counts.initial]
      exact .refl
    · intro a s u hinv _ hstep
      obtain ⟨hcounted, current, hlast, hrun⟩ := hinv
      refine ⟨counted_step hagrees.counts hcounted hstep, ?_⟩
      obtain ⟨hlow, hhigh⟩ :=
        hcounted.bounds current (List.mem_of_getLast? hlast)
      cases a with
      | grant request =>
          simp only [atomicNext] at hstep
          split at hstep
          · cases hstep
          · rename_i hadmitted
            rw [hlast, Option.bind_some] at hstep
            obtain ⟨desired, hupdate, rfl⟩ := Option.map_eq_some_iff.1 hstep
            refine ⟨desired, List.getLast?_concat, ?_⟩
            apply hrun.step (.grant request) trivial
            have hagree := hagrees.update request current
              (Bool.eq_false_iff.2 hadmitted) hlow hhigh
            simp only [SingleSteps.next, hagree, hupdate, Option.map_some]
      | giveBack request =>
          simp only [atomicNext] at hstep
          split at hstep
          · rename_i hmem
            rw [hlast, Option.map_some] at hstep
            cases hstep
            refine ⟨_, List.getLast?_concat, ?_⟩
            apply hrun.step (.giveBack request) trivial
            have hsum := hcounted.last current hlast
            have hpart := sum_erase amount hmem
            have hreleased : count (g.release request current)
                = count current - amount request :=
              hagrees.counts.release (by omega) hhigh
            simp only [SingleSteps.next, hmem, if_true, hagrees.release,
              hreleased]
          · cases hstep
  exact hboth.2

/-- What every interleaving of the loops keeps. -/
theorem contract_of_agrees (hagrees : Agrees g ops count amount limit)
    {s : Atomic.State T R V} (h : AdmissionRun g s) :
    AdmissionContract ops count amount limit s := by
  have hlinear := linear_reachable h
  have hcounted := counted_reachable hagrees.counts hlinear.run
  obtain ⟨current, hlast, hrun⟩ := single_of_atomic hagrees hlinear.run
  refine ⟨⟨current, hlast, hrun, hcounted.last current hlast⟩,
    hcounted.bounds, ?_, hlinear.once, ?_⟩
  · intro a ha hgranted
    have hjustified := hlinear.answers a ha
    obtain ⟨hadmitted, value, desired, hvalue, hdesired, hupdate⟩ :=
      hjustified.granted hgranted
    obtain ⟨hlow, hhigh⟩ :=
      hcounted.bounds value (List.mem_of_getElem? hvalue)
    refine ⟨hjustified.since, value, desired, hvalue, hdesired, ?_⟩
    rw [hagrees.update a.request value hadmitted hlow hhigh, hupdate]
    rfl
  · intro a ha hrefused
    have hjustified := hlinear.answers a ha
    obtain ⟨value, hvalue, hcase⟩ := hjustified.refused hrefused
    obtain ⟨hlow, hhigh⟩ :=
      hcounted.bounds value (List.mem_of_getElem? hvalue)
    refine ⟨hjustified.since, value, hvalue, ?_⟩
    cases hearly : g.refused a.request with
    | true => exact hagrees.refused a.request _ hearly
    | false =>
        rw [hearly] at hcase
        rw [hagrees.update a.request value hearly hlow hhigh,
          hcase.resolve_left (by simp)]
        rfl

end

-- ======================================================= the two counters

/-- `TerrainAdmission` as the endpoints use it. -/
def TerrainAdmission.single (maximumJobs : Nat) : SingleSteps Unit where
  tryAcquire _ outstanding :=
    TerrainAdmission.tryAcquire maximumJobs outstanding
  release _ outstanding := TerrainAdmission.release outstanding

/-- `TerrainByteAdmission` as the endpoints use it. -/
def TerrainByteAdmission.single (maximumBytes : Nat) :
    SingleSteps UInt64 where
  tryAcquire bytes reserved :=
    TerrainByteAdmission.tryAcquire maximumBytes bytes.toNat reserved
  release bytes reserved := TerrainByteAdmission.release bytes.toNat reserved

theorem TerrainAdmission.agrees (maximumJobs : Nat) :
    Agrees (TerrainAdmission.loop maximumJobs)
      (TerrainAdmission.single maximumJobs) id (fun _ => 1) maximumJobs where
  counts := by
    refine ⟨rfl, ?_, ?_⟩
    · intro request current desired _ hupdate _ _
      simp only [TerrainAdmission.loop] at hupdate
      split at hupdate
      · cases hupdate
        refine ⟨rfl, ?_⟩
        show current + 1 ≤ maximumJobs
        omega
      · cases hupdate
    · intro request current _ _
      rfl
  refused request count h := by cases h
  update request current _ _ _ := by
    simp only [TerrainAdmission.single, TerrainAdmission.tryAcquire,
      TerrainAdmission.loop, id]
    split
    · rfl
    · rfl
  release request count := rfl

theorem TerrainByteAdmission.agrees (maximumBytes : UInt64) :
    Agrees (TerrainByteAdmission.loop maximumBytes)
      (TerrainByteAdmission.single maximumBytes.toNat)
      (fun current => (current.toNat : Int)) UInt64.toNat
      maximumBytes.toNat where
  counts := by
    refine ⟨rfl, ?_, ?_⟩
    · intro bytes current desired hadmitted hupdate _ _
      have hfits := of_decide_eq_false hadmitted
      rw [UInt64.not_lt, UInt64.le_iff_toNat_le] at hfits
      simp only [TerrainByteAdmission.loop] at hupdate
      split at hupdate
      · rename_i hroom
        cases hupdate
        rw [UInt64.le_iff_toNat_le, UInt64.toNat_sub_of_le _ _
          (UInt64.le_iff_toNat_le.2 hfits)] at hroom
        have hsize := UInt64.toNat_lt maximumBytes
        have hsum : (current + bytes).toNat
            = current.toNat + bytes.toNat := by
          rw [UInt64.toNat_add]
          exact Nat.mod_eq_of_lt (by omega)
        rw [hsum]
        push_cast
        omega
      · cases hupdate
    · intro bytes current hle _
      have hle : bytes ≤ current := by
        rw [UInt64.le_iff_toNat_le]
        exact_mod_cast hle
      simp only [TerrainByteAdmission.loop]
      rw [UInt64.toNat_sub_of_le _ _ hle]
      exact Int.ofNat_sub (UInt64.le_iff_toNat_le.1 hle)
  refused bytes count h := by
    have hlarge := UInt64.lt_iff_toNat_lt.1 (of_decide_eq_true h)
    simp only [TerrainByteAdmission.single, TerrainByteAdmission.tryAcquire,
      hlarge, if_true]
  update bytes current hadmitted _ _ := by
    have hfits := of_decide_eq_false hadmitted
    rw [UInt64.not_lt, UInt64.le_iff_toNat_le] at hfits
    simp only [TerrainByteAdmission.single, TerrainByteAdmission.tryAcquire,
      TerrainByteAdmission.loop, not_lt.2 hfits, if_false,
      UInt64.le_iff_toNat_le, UInt64.toNat_sub_of_le _ _
        (UInt64.le_iff_toNat_le.2 hfits)]
    split
    · rename_i hroom
      have hsize := UInt64.toNat_lt maximumBytes
      rw [if_pos (by omega), Option.map_some, UInt64.toNat_add,
        Nat.mod_eq_of_lt (by omega)]
      push_cast
      rfl
    · rw [if_neg (by omega)]
      rfl
  release bytes count := rfl

-- =============================================================== results

/-- **The counters are what the endpoints take them for.** However many
threads call `tryAcquire` and `release`, in whatever interleaving, with
exchanges that fail for no reason and loads that are out of date: each
counter is one that single steps lead to and the sum of what is admitted,
it never leaves its limits, each admission is a step of its own, and each
refusal is that of a counter not older than what the caller had seen. -/
theorem admission_linear {T : Type} [DecidableEq T] :
    (∀ (maximumJobs : Nat) (s : Atomic.State T Unit Int),
      AdmissionRun (TerrainAdmission.loop maximumJobs) s →
      AdmissionContract (TerrainAdmission.single maximumJobs) id (fun _ => 1)
        maximumJobs s) ∧
    ∀ (maximumBytes : UInt64) (s : Atomic.State T UInt64 UInt64),
      AdmissionRun (TerrainByteAdmission.loop maximumBytes) s →
      AdmissionContract (TerrainByteAdmission.single maximumBytes.toNat)
        (fun current => (current.toNat : Int)) UInt64.toNat
        maximumBytes.toNat s :=
  ⟨fun maximumJobs _ h =>
      contract_of_agrees (TerrainAdmission.agrees maximumJobs) h,
    fun maximumBytes _ h =>
      contract_of_agrees (TerrainByteAdmission.agrees maximumBytes) h⟩

/-- Two threads want 60 of 100 bytes each. The second one has read an old
value: its exchange fails, and it is refused. -/
def twoGrids : List (Atomic.Action Bool UInt64) :=
  [ .call false 60, .load false 0, .call true 60, .load true 0,
    .exchange false, .fail true 1, .giveUp true, .giveBack true 60 ]

/-- The counter goes up by the grant and down again; the refusal leaves no
trace. -/
theorem admission_linear_twoGrids :
    ∃ s : Atomic.State Bool UInt64 UInt64,
      AdmissionContract (TerrainByteAdmission.single (100 : UInt64).toNat)
        (fun current => (current.toNat : Int)) UInt64.toNat
        (100 : UInt64).toNat s ∧
      s.order = [0, 60, 0] ∧
      s.answers.map (·.granted) = [true, false] := by
  have hrun : (runActions (Atomic.next (TerrainByteAdmission.loop 100))
      twoGrids (Atomic.State.init (TerrainByteAdmission.loop 100))).map
        (fun s => (s.order, s.answers.map (·.granted)))
      = some ([0, 60, 0], [true, false]) := by
    decide +kernel
  obtain ⟨s, hs, hval⟩ := Option.map_eq_some_iff.1 hrun
  simp only [Prod.mk.injEq] at hval
  exact ⟨s, admission_linear.2 100 s (run_of_runActions hs), hval⟩

end AowisMap.Server
