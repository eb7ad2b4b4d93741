/-
Unit cells of a line and of a ring: which cells a stretch between two
bounds meets, by floor and ceiling.

# Open stretches

A stretch meets a cell if the two share an interior point, so a bound on
a cell's border does not take the neighbour. The cells met are the
integers from the floor of the lower bound up to, but not including, the
ceiling of the upper one (`meets_iff`). On a ring of `period` cells a
cell is met if one of its unwrapped copies is (`ringMeets_iff`).
-/
import Mathlib.Algebra.Order.Floor.Ring
import Mathlib.Order.Interval.Set.Basic
import Mathlib.Tactic.Linarith
import Mathlib.Tactic.Ring
import AowisMap.Lib.Rounding

namespace AowisMap.Lib.UnitCells

variable {K : Type*} [Field K] [LinearOrder K]

/-- The stretch shares an interior point with the unit cell from an
integer on. -/
def Meets (low high : K) (cell : Int) : Prop :=
  ∃ t : K, low < t ∧ t < high ∧ (cell : K) < t ∧ t < cell + 1

/-- A stretch that is none meets no cell. -/
theorem not_meets_of_le {low high : K} (hle : high ≤ low) (cell : Int) :
    ¬ Meets low high cell := by
  rintro ⟨t, hlow, hhigh, -⟩
  exact absurd (hlow.trans hhigh) (not_lt.2 hle)

variable [IsStrictOrderedRing K]

/-- Moving stretch and cell together. -/
theorem meets_add {low high : K} {cell : Int} (k : Int) :
    Meets (low + k) (high + k) (cell + k) ↔ Meets low high cell := by
  constructor
  · rintro ⟨t, h₁, h₂, h₃, h₄⟩
    push_cast at h₃ h₄
    exact ⟨t - k, by linarith, by linarith, by linarith, by linarith⟩
  · rintro ⟨t, h₁, h₂, h₃, h₄⟩
    refine ⟨t + k, by linarith, by linarith, ?_, ?_⟩
    · push_cast
      linarith
    · push_cast
      linarith

omit [IsStrictOrderedRing K] in
/-- A longer stretch meets more. -/
theorem Meets.mono {low high low' high' : K} {cell : Int}
    (h : Meets low high cell) (hlow : low' ≤ low) (hhigh : high ≤ high') :
    Meets low' high' cell := by
  obtain ⟨t, hlt, hgt, hcell, hnext⟩ := h
  exact ⟨t, hlow.trans_lt hlt, hgt.trans_le hhigh, hcell, hnext⟩

/-- The first cell of a stretch and the one behind its last. -/
theorem meets_iff [FloorRing K] {low high : K} (hlt : low < high) {cell : Int} :
    Meets low high cell ↔ ⌊low⌋ ≤ cell ∧ cell < ⌈high⌉ := by
  constructor
  · rintro ⟨t, hlow, hhigh, hcell, hnext⟩
    constructor
    · have hfloor : low < ((cell + 1 : Int) : K) := by
        push_cast
        exact hlow.trans hnext
      have hlt := Int.floor_lt.2 hfloor
      omega
    · exact Int.lt_ceil.2 (hcell.trans hhigh)
  · rintro ⟨hfloor, hceil⟩
    have hcell : (cell : K) < high := Int.lt_ceil.1 hceil
    have hnext : low < (cell : K) + 1 := by
      have hle : (⌊low⌋ : K) ≤ cell := by exact_mod_cast hfloor
      have hlow := Int.lt_floor_add_one low
      linarith
    have hgap : max low (cell : K) < min high ((cell : K) + 1) := by
      rw [max_lt_iff, lt_min_iff, lt_min_iff]
      exact ⟨⟨hlt, hnext⟩, hcell, by linarith⟩
    obtain ⟨t, hmax, hmin⟩ := exists_between hgap
    rw [max_lt_iff] at hmax
    rw [lt_min_iff] at hmin
    exact ⟨t, hmax.1, hmin.1, hmax.2, hmin.2⟩

/-- The stretch meets an unwrapped copy of a cell of the ring. -/
def RingMeets (period : Int) (low high : K) (cell : Int) : Prop :=
  ∃ k : Int, Meets low high (cell + period * k)

omit [IsStrictOrderedRing K] in
theorem RingMeets.mono {period : Int} {low high low' high' : K} {cell : Int}
    (h : RingMeets period low high cell) (hlow : low' ≤ low)
    (hhigh : high ≤ high') : RingMeets period low' high' cell := by
  obtain ⟨k, hk⟩ := h
  exact ⟨k, hk.mono hlow hhigh⟩

/-- On a ring the bounds count up to whole turns. -/
theorem ringMeets_add {period : Int} {low high : K} {cell : Int} (k : Int) :
    RingMeets period (low + (period * k : Int)) (high + (period * k : Int))
      cell ↔ RingMeets period low high cell := by
  constructor
  · rintro ⟨j, hmeets⟩
    refine ⟨j - k, (meets_add (period * k)).1 ?_⟩
    rw [show cell + period * (j - k) + period * k = cell + period * j by ring]
    exact hmeets
  · rintro ⟨j, hmeets⟩
    refine ⟨j + k, ?_⟩
    rw [show cell + period * (j + k) = cell + period * j + period * k by ring]
    exact (meets_add (period * k)).2 hmeets

/-- The cells of a ring a stretch meets: those an integer from the floor
on to before the ceiling folds to. -/
theorem ringMeets_iff [FloorRing K] {period : Int} {low high : K}
    (hlt : low < high) {cell : Int} :
    RingMeets period low high cell ↔
      ∃ unwrapped, (⌊low⌋ ≤ unwrapped ∧ unwrapped < ⌈high⌉) ∧
        unwrapped % period = cell % period := by
  constructor
  · rintro ⟨k, hmeets⟩
    refine ⟨cell + period * k, (meets_iff hlt).1 hmeets, ?_⟩
    exact Int.add_mul_emod_self_left cell period k
  · rintro ⟨unwrapped, hbounds, hmod⟩
    obtain ⟨k, hk⟩ := Int.emod_eq_emod_iff_emod_sub_eq_zero.1 hmod
      |> Int.dvd_of_emod_eq_zero
    refine ⟨k, (meets_iff hlt).2 ?_⟩
    rw [show cell + period * k = unwrapped by omega]
    exact hbounds

/-- A stretch of at least a whole turn meets every cell. -/
theorem ringMeets_of_turn [FloorRing K] {period : Int} (hpos : 0 < period)
    {low high : K} (hlt : low < high) (hturn : ⌊low⌋ + period ≤ ⌈high⌉)
    (cell : Int) : RingMeets period low high cell := by
  -- The copy of the cell in the first turn of the stretch.
  have hnonneg := Int.emod_nonneg (cell - ⌊low⌋) (Int.ne_of_gt hpos)
  have hbound := Int.emod_lt_of_pos (cell - ⌊low⌋) hpos
  have hdivision := Int.mul_ediv_add_emod (cell - ⌊low⌋) period
  refine ⟨-((cell - ⌊low⌋) / period), (meets_iff hlt).2 ?_⟩
  rw [Int.mul_neg]
  omega

end AowisMap.Lib.UnitCells
