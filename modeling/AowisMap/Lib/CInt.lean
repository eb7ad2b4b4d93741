/-
The `int` of C++: 32 bits, and no meaning for a value that does not fit.

# Undefined results

An operation whose exact result leaves the range has undefined behaviour,
and so has a conversion of a floating point value whose whole part leaves
it. The operations here return `none` then, so a computation in `Option`
that returns a value has used no undefined operation.
-/
import Mathlib.Algebra.Group.Int.Defs
import Mathlib.Algebra.Group.Nat.Defs
import Mathlib.Order.Basic

namespace AowisMap.Lib.CInt

/-- The values of an `int`. -/
def Fits (value : Int) : Prop := -2147483648 ≤ value ∧ value ≤ 2147483647

instance (value : Int) : Decidable (Fits value) :=
  inferInstanceAs (Decidable (_ ∧ _))

/-- The `int` of an exact result. -/
def ofInt (value : Int) : Option Int :=
  if Fits value then some value else none

def add (a b : Int) : Option Int := ofInt (a + b)

def sub (a b : Int) : Option Int := ofInt (a - b)

/-- The `int` of a 32-bit unsigned value, modulo `2 ^ 32`. -/
def ofUnsigned (value : Nat) : Int := Int.bmod value (2 ^ 32)

theorem ofUnsigned_of_lt {value : Nat} (h : value < 2 ^ 31) :
    ofUnsigned value = value := by
  unfold ofUnsigned
  rw [Int.bmod_def]
  omega

/-- Values from `2 ^ 31` on become negative. -/
theorem ofUnsigned_of_ge {value : Nat} (h : 2 ^ 31 ≤ value)
    (hvalue : value < 2 ^ 32) : ofUnsigned value = value - 2 ^ 32 := by
  unfold ofUnsigned
  rw [Int.bmod_def]
  omega

/-- The `int` of a wider integer, modulo `2 ^ 32`. -/
def narrow (value : Int) : Int := Int.bmod value (2 ^ 32)

theorem narrow_of_fits {value : Int} (h : Fits value) :
    narrow value = value := by
  unfold Fits at h
  unfold narrow
  rw [Int.bmod_def]
  omega

theorem fits_narrow (value : Int) : Fits (narrow value) := by
  unfold Fits narrow
  rw [Int.bmod_def]
  omega

/-- A value above the range becomes smaller. -/
theorem narrow_lt {value : Int} (h : 2 ^ 31 ≤ value) :
    narrow value < value := by
  have hfits := (fits_narrow value).2
  omega

theorem ofInt_of_fits {value : Int} (h : Fits value) :
    ofInt value = some value := if_pos h

theorem ofInt_eq_some {value result : Int} :
    ofInt value = some result ↔ Fits value ∧ result = value := by
  unfold ofInt
  by_cases h : Fits value
  · rw [if_pos h]
    constructor
    · intro heq
      cases heq
      exact ⟨h, rfl⟩
    · rintro ⟨-, rfl⟩
      rfl
  · rw [if_neg h]
    constructor
    · intro heq
      cases heq
    · rintro ⟨hfits, -⟩
      exact absurd hfits h

theorem add_of_fits {a b : Int} (h : Fits (a + b)) : add a b = some (a + b) :=
  ofInt_of_fits h

theorem add_eq_some {a b result : Int} :
    add a b = some result ↔ Fits (a + b) ∧ result = a + b := ofInt_eq_some

theorem add_eq_none {a b : Int} : add a b = none ↔ ¬Fits (a + b) := by
  unfold add ofInt
  by_cases h : Fits (a + b)
  · simp [h]
  · simp [h]

theorem sub_of_fits {a b : Int} (h : Fits (a - b)) : sub a b = some (a - b) :=
  ofInt_of_fits h

theorem sub_eq_some {a b result : Int} :
    sub a b = some result ↔ Fits (a - b) ∧ result = a - b := ofInt_eq_some

end AowisMap.Lib.CInt
