/-
Rounding to the nearest integer, halves away from zero.

# Nearest

An integer is nearest to a value if no other is nearer and, of two at the
same distance, it is the greater one. There is exactly one, the floor of
the value and a half (`nearest_iff`), and of a value that is not negative
it is what rounding away from zero gives.
-/
import Mathlib.Algebra.Order.AbsoluteValue.Basic
import Mathlib.Algebra.Order.Floor.Ring
import Mathlib.Tactic.Linarith
import Mathlib.Data.Nat.Cast.Defs

namespace AowisMap.Lib

-- ============================================================ numerals

-- A numeral stands in a field because it is at least two. For the numbers
-- of degrees and seconds that fact has a name, so that all who read a
-- definition with one read the same term.

instance atLeastTwo_two : Nat.AtLeastTwo 2 := ⟨by decide⟩

instance atLeastTwo_quarterTurn : Nat.AtLeastTwo 90 := ⟨by decide⟩

instance atLeastTwo_halfTurn : Nat.AtLeastTwo 180 := ⟨by decide⟩

instance atLeastTwo_fullTurn : Nat.AtLeastTwo 360 := ⟨by decide⟩

instance atLeastTwo_secondsPerDegree : Nat.AtLeastTwo 3600 := ⟨by decide⟩

end AowisMap.Lib

namespace AowisMap.Lib.Rounding

variable {K : Type*} [Field K] [LinearOrder K]

/-- No integer is nearer, and none as near is greater. -/
def Nearest (value : K) (n : Int) : Prop :=
  ∀ m : Int, |(n : K) - value| ≤ |(m : K) - value| ∧
    (|(m : K) - value| = |(n : K) - value| → m ≤ n)

/-- There is at most one nearest integer. -/
theorem nearest_unique {value : K} {n m : Int} (hn : Nearest value n)
    (hm : Nearest value m) : n = m := by
  have hsame : |(m : K) - value| = |(n : K) - value| :=
    le_antisymm (hm n).1 (hn m).1
  have hle := (hn m).2 hsame
  have hge := (hm n).2 hsame.symm
  omega

variable [IsStrictOrderedRing K] [FloorRing K]

theorem nearest_floor (value : K) : Nearest value ⌊value + 1 / 2⌋ := by
  have hlow := Int.floor_le (value + 1 / 2)
  have hhigh := Int.lt_floor_add_one (value + 1 / 2)
  generalize ⌊value + 1 / 2⌋ = n at hlow hhigh
  have hnear : |(n : K) - value| ≤ 1 / 2 := by
    rw [abs_le]
    constructor
    · linarith
    · linarith
  intro m
  rcases lt_trichotomy m n with hlt | rfl | hgt
  · have hcast : (m : K) + 1 ≤ n := by exact_mod_cast hlt
    have hfar : |(n : K) - value| ≤ |(m : K) - value| := by
      rw [abs_sub_comm (m : K) value]
      exact hnear.trans ((by linarith : (1 : K) / 2 ≤ value - m).trans
        (le_abs_self _))
    exact ⟨hfar, fun _ => hlt.le⟩
  · exact ⟨le_refl _, fun _ => le_refl _⟩
  · have hcast : (n : K) + 1 ≤ m := by exact_mod_cast hgt
    have hfar : 1 / 2 < |(m : K) - value| :=
      (by linarith : (1 : K) / 2 < m - value).trans_le (le_abs_self _)
    refine ⟨(hnear.trans_lt hfar).le, fun hsame => ?_⟩
    rw [hsame] at hfar
    exact absurd hnear (not_le.2 hfar)

/-- The nearest integer. -/
theorem nearest_iff {value : K} {n : Int} :
    Nearest value n ↔ n = ⌊value + 1 / 2⌋ := by
  constructor
  · intro h
    exact nearest_unique h (nearest_floor value)
  · rintro rfl
    exact nearest_floor value

/-- Half away from zero. -/
def roundAway (value : K) : Int :=
  if 0 ≤ value then ⌊value + 1 / 2⌋ else -⌊-value + 1 / 2⌋

omit [IsStrictOrderedRing K] in
theorem roundAway_of_nonneg {value : K} (h : 0 ≤ value) :
    roundAway value = ⌊value + 1 / 2⌋ := if_pos h

/-- Rounding moves a value by at most a half. -/
theorem roundAway_near (value : K) : |(roundAway value : K) - value| ≤ 1 / 2 := by
  unfold roundAway
  by_cases h : 0 ≤ value
  · rw [if_pos h, abs_le]
    have hlow := Int.floor_le (value + 1 / 2)
    have hhigh := Int.lt_floor_add_one (value + 1 / 2)
    constructor
    · linarith
    · linarith
  · rw [if_neg h, abs_le]
    have hlow := Int.floor_le (-value + 1 / 2)
    have hhigh := Int.lt_floor_add_one (-value + 1 / 2)
    push_cast
    constructor
    · linarith
    · linarith

theorem roundAway_intCast (n : Int) : roundAway (n : K) = n := by
  have hnear := roundAway_near (n : K)
  rw [abs_le] at hnear
  have hlow : ((n - 1 : Int) : K) < roundAway (n : K) := by
    push_cast
    linarith
  have hhigh : (roundAway (n : K) : K) < ((n + 1 : Int) : K) := by
    push_cast
    linarith
  have hlow := Int.cast_lt.1 hlow
  have hhigh := Int.cast_lt.1 hhigh
  omega

/-- Values below a half round to zero. -/
theorem roundAway_eq_zero {value : K} (hlow : -(1 / 2) < value)
    (hhigh : value < 1 / 2) : roundAway value = 0 := by
  have hnear := roundAway_near value
  rw [abs_le] at hnear
  have hlow : ((-1 : Int) : K) < roundAway value := by
    push_cast
    linarith
  have hhigh : (roundAway value : K) < ((1 : Int) : K) := by
    push_cast
    linarith
  have hlow := Int.cast_lt.1 hlow
  have hhigh := Int.cast_lt.1 hhigh
  omega

end AowisMap.Lib.Rounding
