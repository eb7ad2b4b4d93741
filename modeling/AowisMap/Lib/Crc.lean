/-
Cyclic redundancy checks, as remainders of polynomials over two elements.

# Bits

A list of bits is the polynomial whose highest coefficient is the first of
them (`polynomial`). A register stands for the list of its bits from the
lowest up, so its lowest bit is the highest coefficient: the reflected
form, in which registers shift to the right.

# Rules

- `polynomial_step`: a shift multiplies by `X`, modulo the generator.
- `polynomial_run`: the register after some input is the remainder of the
  input behind the first register.
- `run_ne_of_burst`: inputs that differ within one width of bits leave
  different registers.
-/
import Mathlib.Algebra.Field.ZMod
import Mathlib.Algebra.CharP.Two
import Mathlib.Algebra.Polynomial.FieldDivision
import Mathlib.RingTheory.PrincipalIdealDomain
import Mathlib.Tactic.LinearCombination

namespace AowisMap.Lib.Crc

open Polynomial

-- ========================================================== polynomials

def coefficient (bit : Bool) : ZMod 2 := if bit then 1 else 0

/-- In characteristic two, exclusive or is addition. -/
theorem coefficient_xor (a b : Bool) :
    coefficient (a ^^ b) = coefficient a + coefficient b := by
  cases a <;> cases b <;> decide

/-- Only the bit that is not set has coefficient zero. -/
theorem coefficient_eq_zero {bit : Bool} :
    coefficient bit = 0 ↔ bit = false := by
  cases bit <;> decide

/-- The polynomial of a list of bits, the first one the highest. -/
noncomputable def polynomial : List Bool → (ZMod 2)[X]
  | [] => 0
  | bit :: bits => C (coefficient bit) * X ^ bits.length + polynomial bits

variable {bits bits' : List Bool}

/-- Bits that follow shift those in front. -/
theorem polynomial_append (bits bits' : List Bool) :
    polynomial (bits ++ bits')
      = polynomial bits * X ^ bits'.length + polynomial bits' := by
  induction bits with
  | nil => simp [polynomial]
  | cons bit bits ih =>
      show C (coefficient bit) * X ^ (bits ++ bits').length
        + polynomial (bits ++ bits') = _
      rw [ih, List.length_append, pow_add]
      show _ = (C (coefficient bit) * X ^ bits.length + polynomial bits)
        * X ^ bits'.length + polynomial bits'
      ring

/-- Without a bit that is set the polynomial is zero. -/
theorem polynomial_of_false (h : ∀ bit ∈ bits, bit = false) :
    polynomial bits = 0 := by
  induction bits with
  | nil => rfl
  | cons bit bits ih =>
      have hbit := h bit List.mem_cons_self
      show C (coefficient bit) * X ^ bits.length + polynomial bits = 0
      rw [ih fun b hb => h b (List.mem_cons_of_mem _ hb),
        coefficient_eq_zero.2 hbit, C_0, zero_mul, add_zero]

/-- The degree is below the number of bits. -/
theorem degree_polynomial_lt (bits : List Bool) :
    (polynomial bits).degree < bits.length := by
  induction bits with
  | nil =>
      show (0 : (ZMod 2)[X]).degree < _
      rw [degree_zero]
      exact WithBot.bot_lt_coe 0
  | cons bit bits ih =>
      have hlast : (bits.length : WithBot Nat) < ((bit :: bits).length : Nat) :=
        WithBot.coe_lt_coe.2 (Nat.lt_succ_self _)
      refine lt_of_le_of_lt (degree_add_le _ _) (max_lt ?_ (ih.trans hlast))
      exact lt_of_le_of_lt (degree_C_mul_X_pow_le _ _) hlast

/-- Only bits that are all clear are zero. -/
theorem polynomial_eq_zero (h : polynomial bits = 0) :
    ∀ bit ∈ bits, bit = false := by
  induction bits with
  | nil => exact fun bit hbit => absurd hbit List.not_mem_nil
  | cons first bits ih =>
      have hcoeff : (polynomial bits).coeff bits.length = 0 :=
        coeff_eq_zero_of_degree_lt (degree_polynomial_lt bits)
      have hlead : (polynomial (first :: bits)).coeff bits.length
          = coefficient first := by
        show (C (coefficient first) * X ^ bits.length
          + polynomial bits).coeff bits.length = _
        rw [coeff_add, coeff_C_mul_X_pow, if_pos rfl, hcoeff, add_zero]
      rw [h, coeff_zero] at hlead
      have hfirst := hlead.symm
      have hrest : polynomial bits = 0 := by
        have hcons : C (coefficient first) * X ^ bits.length
          + polynomial bits = 0 := h
        rw [hfirst, C_0, zero_mul, zero_add] at hcons
        exact hcons
      intro bit hbit
      rcases List.mem_cons.1 hbit with rfl | hmem
      · exact coefficient_eq_zero.1 hfirst
      · exact ih hrest bit hmem

/-- The difference of two inputs. -/
def difference (bits bits' : List Bool) : List Bool :=
  List.zipWith xor bits bits'

/-- The bits in which two texts differ are their sum. -/
theorem polynomial_difference :
    ∀ {bits bits' : List Bool}, bits.length = bits'.length →
      polynomial (difference bits bits')
        = polynomial bits + polynomial bits' := by
  intro bits
  induction bits with
  | nil =>
      intro bits' h
      rw [List.eq_nil_of_length_eq_zero h.symm]
      simp [difference, polynomial]
  | cons bit bits ih =>
      intro bits' h
      cases bits' with
      | nil => cases h
      | cons bit' bits' =>
          have hlength : bits.length = bits'.length := Nat.succ.inj h
          have hzip : (difference bits bits').length = bits.length := by
            unfold difference
            rw [List.length_zipWith, hlength, Nat.min_self]
          show C (coefficient (bit ^^ bit'))
              * X ^ (difference bits bits').length
              + polynomial (difference bits bits')
            = (C (coefficient bit) * X ^ bits.length + polynomial bits)
              + (C (coefficient bit') * X ^ bits'.length + polynomial bits')
          rw [ih hlength, hzip, ← hlength, coefficient_xor, C_add]
          ring

/-- Texts that differ in none are one. -/
theorem eq_of_difference :
    ∀ {bits bits' : List Bool}, bits.length = bits'.length →
      (∀ bit ∈ difference bits bits', bit = false) → bits = bits' := by
  intro bits
  induction bits with
  | nil => exact fun h _ => (List.eq_nil_of_length_eq_zero h.symm).symm
  | cons bit bits ih =>
      intro bits' h hfalse
      cases bits' with
      | nil => cases h
      | cons bit' bits' =>
          have hbit := hfalse (bit ^^ bit') List.mem_cons_self
          have hrest := ih (Nat.succ.inj h) fun b hb =>
            hfalse b (List.mem_cons_of_mem _ hb)
          have hsame : bit = bit' := by
            revert hbit
            cases bit <;> cases bit' <;> decide
          rw [hsame, hrest]

-- ============================================================ registers

variable {w : Nat}

/-- The bits of a register from the lowest up. -/
def bitsOf (register : BitVec w) : List Bool :=
  (List.range w).map register.getLsbD

/-- A register of `w` bits. -/
@[simp] theorem length_bitsOf (register : BitVec w) :
    (bitsOf register).length = w := by
  unfold bitsOf
  rw [List.length_map, List.length_range]

/-- Registers are added bit by bit, -/
theorem bitsOf_xor (a b : BitVec w) :
    bitsOf (a ^^^ b) = difference (bitsOf a) (bitsOf b) := by
  unfold bitsOf difference
  rw [List.zipWith_map, List.zipWith_self]
  refine List.map_congr_left fun i _ => ?_
  rw [BitVec.getLsbD_xor]

/-- as their polynomials are. -/
theorem polynomial_xor (a b : BitVec w) :
    polynomial (bitsOf (a ^^^ b))
      = polynomial (bitsOf a) + polynomial (bitsOf b) := by
  rw [bitsOf_xor, polynomial_difference (by simp)]

/-- The empty register. -/
theorem polynomial_bitsOf_zero : polynomial (bitsOf (0#w)) = 0 := by
  refine polynomial_of_false fun bit hbit => ?_
  obtain ⟨i, -, rfl⟩ := List.mem_map.1 hbit
  exact BitVec.getLsbD_zero

/-- A wider register has the same bits, the others are clear. -/
theorem bitsOf_setWidth {k : Nat} (h : k ≤ w) (register : BitVec k) :
    bitsOf (register.setWidth w)
      = bitsOf register ++ List.replicate (w - k) false := by
  have hwidth : w = k + (w - k) := by omega
  unfold bitsOf
  rw [hwidth, List.range_add, List.map_append, List.map_map, ← hwidth]
  congr 1
  · refine List.map_congr_left fun i hi => ?_
    have hlt := List.mem_range.1 hi
    rw [BitVec.getLsbD_setWidth, decide_eq_true (by omega), Bool.true_and]
  · refine List.eq_replicate_iff.2 ⟨by simp, fun bit hbit => ?_⟩
    obtain ⟨i, -, rfl⟩ := List.mem_map.1 hbit
    show (register.setWidth w).getLsbD (k + i) = false
    rw [BitVec.getLsbD_setWidth, BitVec.getLsbD_of_ge register _ (by omega),
      Bool.and_false]

/-- The full one. -/
theorem bitsOf_allOnes :
    bitsOf (BitVec.allOnes w) = List.replicate w true := by
  refine List.eq_replicate_iff.2 ⟨by simp, fun bit hbit => ?_⟩
  obtain ⟨i, hi, rfl⟩ := List.mem_map.1 hbit
  rw [BitVec.getLsbD_allOnes, decide_eq_true (List.mem_range.1 hi)]

/-- The complement adds a one everywhere. -/
theorem polynomial_not (register : BitVec w) :
    polynomial (bitsOf (~~~register)) = polynomial (bitsOf register)
      + polynomial (List.replicate w true) := by
  rw [← BitVec.xor_allOnes, polynomial_xor, bitsOf_allOnes]

/-- A register is known from its polynomial. -/
theorem eq_of_polynomial_eq {a b : BitVec w}
    (h : polynomial (bitsOf a) = polynomial (bitsOf b)) : a = b := by
  have hzero : polynomial (bitsOf (a ^^^ b)) = 0 := by
    rw [polynomial_xor, h, CharTwo.add_self_eq_zero]
  rw [bitsOf_xor] at hzero
  have hbits := eq_of_difference (by simp) (polynomial_eq_zero hzero)
  refine BitVec.eq_of_getLsbD_eq fun i hi => ?_
  exact List.map_inj_left.1 hbits i (List.mem_range.2 hi)

-- ================================================================ steps

/-- One shift of a register with feedback. -/
def step (feedback register : BitVec w) : BitVec w :=
  (register >>> 1) ^^^ (if register.getLsbD 0 then feedback else 0#w)

/-- The generator of a register of `w` bits. -/
noncomputable def generator (feedback : BitVec w) : (ZMod 2)[X] :=
  X ^ w + polynomial (bitsOf feedback)

/-- The lowest bit goes over the top. -/
theorem polynomial_shift (register : BitVec w) :
    polynomial (bitsOf (register >>> 1))
      = X * polynomial (bitsOf register)
        + C (coefficient (register.getLsbD 0)) * X ^ w := by
  cases w with
  | zero =>
      have hclear : register.getLsbD 0 = false :=
        BitVec.getLsbD_of_ge _ _ (le_refl 0)
      show (0 : (ZMod 2)[X]) = X * 0 + _
      rw [hclear]
      simp [coefficient]
  | succ n =>
      have hregister : bitsOf register = register.getLsbD 0
          :: (List.range n).map fun i => register.getLsbD (i + 1) := by
        unfold bitsOf
        rw [List.range_succ_eq_map, List.map_cons, List.map_map]
        rfl
      have hshifted : bitsOf (register >>> 1)
          = ((List.range n).map fun i => register.getLsbD (i + 1))
            ++ [false] := by
        unfold bitsOf
        rw [List.range_succ, List.map_append]
        congr 1
        · refine List.map_congr_left fun i _ => ?_
          rw [BitVec.getLsbD_ushiftRight]
          exact congrArg register.getLsbD (Nat.add_comm 1 i)
        · rw [List.map_singleton, BitVec.getLsbD_ushiftRight,
            BitVec.getLsbD_of_ge _ _ (by omega)]
      have hclear : polynomial [false] = 0 :=
        polynomial_of_false fun bit hbit => List.mem_singleton.1 hbit
      rw [hshifted, polynomial_append, hclear, hregister]
      show _ * X ^ 1 + 0 = X * (C (coefficient (register.getLsbD 0))
        * X ^ ((List.range n).map _).length + polynomial _) + _
      rw [List.length_map, List.length_range, add_zero, pow_one, pow_succ]
      generalize C (coefficient (register.getLsbD 0)) = c
      have htwice : X * (c * X ^ n) + c * (X ^ n * X)
          = (0 : (ZMod 2)[X]) := by
        rw [← CharTwo.add_self_eq_zero (c * (X ^ n * X))]
        ring
      rw [mul_add, add_right_comm, htwice, zero_add, mul_comm]

/-- A shift multiplies by `X`, modulo the generator. -/
theorem polynomial_step (feedback register : BitVec w) :
    polynomial (bitsOf (step feedback register))
      = X * polynomial (bitsOf register)
        + C (coefficient (register.getLsbD 0)) * generator feedback := by
  unfold step generator
  rw [polynomial_xor, polynomial_shift]
  cases register.getLsbD 0 with
  | false =>
      rw [if_neg Bool.false_ne_true, polynomial_bitsOf_zero]
      simp [coefficient]
  | true =>
      rw [if_pos rfl]
      show _ + C 1 * _ + _ = _ + C 1 * _
      rw [C_1]
      ring

/-- The generator has the leading bit that its register leaves out, -/
theorem generator_monic (feedback : BitVec w) :
    (generator feedback).Monic := by
  have hdegree := degree_polynomial_lt (bitsOf feedback)
  rw [length_bitsOf] at hdegree
  exact monic_X_pow_add hdegree

/-- so that its degree is the width of the register. -/
theorem degree_generator (feedback : BitVec w) :
    (generator feedback).degree = w := by
  have hdegree := degree_polynomial_lt (bitsOf feedback)
  rw [length_bitsOf] at hdegree
  unfold generator
  rw [degree_add_eq_left_of_degree_lt, degree_X_pow]
  rw [degree_X_pow]
  exact hdegree

/-- The constant term of a generator is its highest feedback bit. -/
theorem coeff_zero_generator {n : Nat} (feedback : BitVec (n + 1)) :
    (generator feedback).coeff 0 = coefficient (feedback.getLsbD n) := by
  have hbits : bitsOf feedback = ((List.range n).map feedback.getLsbD)
      ++ [feedback.getLsbD n] := by
    unfold bitsOf
    rw [List.range_succ, List.map_append, List.map_singleton]
  unfold generator
  rw [hbits, polynomial_append, pow_succ]
  show (X ^ n * X + (_ * X ^ 1 + (C (coefficient _) * X ^ 0 + 0))).coeff 0 = _
  rw [pow_one, pow_zero, mul_one, add_zero, coeff_add, coeff_add,
    coeff_mul_X_zero, coeff_mul_X_zero, coeff_C_zero, zero_add, zero_add]

/-- Shifts multiply by powers of `X`, modulo the generator. -/
theorem polynomial_steps (feedback : BitVec w) (n : Nat) :
    ∀ register : BitVec w, generator feedback
      ∣ polynomial (bitsOf ((step feedback)^[n] register))
        - X ^ n * polynomial (bitsOf register) := by
  induction n with
  | zero =>
      intro register
      rw [pow_zero, one_mul, Function.iterate_zero, id, sub_self]
      exact dvd_zero _
  | succ n ih =>
      intro register
      obtain ⟨quotient, hquotient⟩ := ih (step feedback register)
      rw [polynomial_step] at hquotient
      refine ⟨quotient
        + X ^ n * C (coefficient (register.getLsbD 0)), ?_⟩
      rw [Function.iterate_succ_apply, mul_add, ← hquotient]
      ring

-- ================================================================= runs

section

variable {B : Type*} (feedback : BitVec w) (chunk : B → List Bool)
  (load : B → BitVec w) (k : Nat)

/-- The register after some input, `k` bits at a time: they are added at
its lower end and shifted through. -/
def run (first : BitVec w) (data : List B) : BitVec w :=
  data.foldl (fun register b => (step feedback)^[k] (register ^^^ load b))
    first

/-- The register that is loaded for a piece of input has its bits, the
other ones are clear. -/
structure Loads : Prop where
  le : k ≤ w
  length : ∀ b, (chunk b).length = k
  bits : ∀ b, bitsOf (load b) = chunk b ++ List.replicate (w - k) false

variable {feedback chunk load k}

/-- Every element loads `k` bits. -/
theorem length_chunks (h : Loads chunk load k) (data : List B) :
    (data.flatMap chunk).length = k * data.length := by
  induction data with
  | nil => rfl
  | cons b rest ih =>
      rw [List.flatMap_cons, List.length_append, ih, h.length,
        List.length_cons, Nat.mul_succ, Nat.add_comm]

/-- They are loaded at the upper end of the register. -/
theorem polynomial_load (h : Loads chunk load k) (b : B) :
    polynomial (bitsOf (load b))
      = polynomial (chunk b) * X ^ (w - k) := by
  rw [h.bits, polynomial_append, List.length_replicate,
    polynomial_of_false fun bit hbit => (List.mem_replicate.1 hbit).2,
    add_zero]

/-- A run keeps the remainder of the input so far. -/
theorem generator_dvd_run (h : Loads chunk load k) (data : List B) :
    ∀ first : BitVec w, generator feedback
      ∣ polynomial (bitsOf (run feedback load k first data))
        - (X ^ (k * data.length) * polynomial (bitsOf first)
          + X ^ w * polynomial (data.flatMap chunk)) := by
  induction data with
  | nil =>
      intro first
      have hnil : polynomial (([] : List B).flatMap chunk) = 0 := rfl
      rw [hnil, List.length_nil, Nat.mul_zero, pow_zero, one_mul, mul_zero,
        add_zero]
      show _ ∣ polynomial (bitsOf first) - _
      rw [sub_self]
      exact dvd_zero _
  | cons b rest ih =>
      intro first
      obtain ⟨later, hlater⟩ :=
        ih ((step feedback)^[k] (first ^^^ load b))
      obtain ⟨shifted, hshifted⟩ :=
        polynomial_steps feedback k (first ^^^ load b)
      rw [polynomial_xor, polynomial_load h] at hshifted
      have hwidth : (X : (ZMod 2)[X]) ^ w = X ^ k * X ^ (w - k) := by
        rw [← pow_add, Nat.add_sub_cancel' h.le]
      rw [hwidth] at hlater
      refine ⟨later + X ^ (k * rest.length) * shifted, ?_⟩
      rw [List.flatMap_cons, polynomial_append, length_chunks h,
        List.length_cons, Nat.mul_succ, pow_add, hwidth]
      show polynomial (bitsOf (run feedback load k
        ((step feedback)^[k] (first ^^^ load b)) rest)) - _ = _
      linear_combination hlater + X ^ (k * rest.length) * hshifted

/-- **The register is the remainder** of the input, shifted by its width,
behind the first register. -/
theorem polynomial_run (h : Loads chunk load k) (first : BitVec w)
    (data : List B) :
    polynomial (bitsOf (run feedback load k first data))
      = (X ^ w * polynomial (data.flatMap chunk)
        + X ^ (k * data.length) * polynomial (bitsOf first))
          %ₘ generator feedback := by
  have hmonic := generator_monic feedback
  have hdegree : (polynomial (bitsOf (run feedback load k first data))).degree
      < (generator feedback).degree := by
    have hlt := degree_polynomial_lt
      (bitsOf (run feedback load k first data))
    rw [length_bitsOf] at hlt
    rw [degree_generator]
    exact hlt
  rw [← (modByMonic_eq_self_iff hmonic).2 hdegree, add_comm]
  exact modByMonic_eq_of_dvd_sub hmonic (generator_dvd_run h data first)

-- =============================================================== bursts

/-- Two inputs of one length that differ, but only within `width` bits. -/
structure Burst (width : Nat) (bits bits' : List Bool) : Prop where
  length : bits.length = bits'.length
  ne : bits ≠ bits'
  within : ∃ first, ∀ i, i < first ∨ first + width ≤ i →
    bits[i]? = bits'[i]?

/-- Where two inputs agree their difference is clear. -/
theorem getElem?_difference {i : Nat} {bit : Bool}
    (hbit : (difference bits bits')[i]? = some bit)
    (h : bits[i]? = bits'[i]?) : bit = false := by
  unfold difference at hbit
  obtain ⟨a, b, ha, hb, rfl⟩ := List.getElem?_zipWith_eq_some.1 hbit
  rw [ha, hb] at h
  rw [Option.some.inj h, Bool.xor_self]

/-- The difference of a burst is a short polynomial and a power of `X`. -/
theorem Burst.difference_eq (h : Burst w bits bits') :
    ∃ (error : List Bool) (n : Nat), error.length ≤ w ∧
      polynomial error ≠ 0 ∧
      polynomial (difference bits bits') = polynomial error * X ^ n := by
  obtain ⟨first, hfirst⟩ := h.within
  have hbefore : polynomial ((difference bits bits').take first) = 0 := by
    refine polynomial_of_false fun bit hbit => ?_
    obtain ⟨i, hi⟩ := List.getElem?_of_mem hbit
    rw [List.getElem?_take] at hi
    by_cases hless : i < first
    · rw [if_pos hless] at hi
      exact getElem?_difference hi (hfirst i (Or.inl hless))
    · rw [if_neg hless] at hi
      cases hi
  have hbehind : polynomial (((difference bits bits').drop first).drop w)
      = 0 := by
    refine polynomial_of_false fun bit hbit => ?_
    obtain ⟨i, hi⟩ := List.getElem?_of_mem hbit
    rw [List.getElem?_drop, List.getElem?_drop] at hi
    exact getElem?_difference hi (hfirst _ (Or.inr (by omega)))
  have hparts : polynomial (difference bits bits')
      = polynomial (((difference bits bits').drop first).take w)
        * X ^ (((difference bits bits').drop first).drop w).length := by
    rw [← List.take_append_drop first (difference bits bits'),
      polynomial_append, hbefore, List.take_append_drop,
      ← List.take_append_drop w ((difference bits bits').drop first),
      polynomial_append, hbehind, List.take_append_drop]
    ring
  refine ⟨_, _, List.length_take_le _ _, fun hzero => h.ne ?_, hparts⟩
  rw [hzero, zero_mul] at hparts
  exact eq_of_difference h.length (polynomial_eq_zero hparts)

/-- **Bursts are detected**: inputs that differ within one width leave
different registers, if the generator has a constant term. -/
theorem run_ne_of_burst (h : Loads chunk load k)
    (hconstant : (generator feedback).coeff 0 ≠ 0) (first : BitVec w)
    {data data' : List B} (hlength : data.length = data'.length)
    (hburst : Burst w (data.flatMap chunk) (data'.flatMap chunk)) :
    run feedback load k first data ≠ run feedback load k first data' := by
  intro heq
  obtain ⟨error, n, herror, hne, hdifference⟩ := hburst.difference_eq
  have hboth : generator feedback
      ∣ X ^ (w + n) * polynomial error := by
    have hremainder : generator feedback ∣ _ :=
      generator_dvd_run h data first
    have hremainder' : generator feedback ∣ _ :=
      generator_dvd_run h data' first
    rw [← heq, ← hlength] at hremainder'
    have hsum := dvd_sub hremainder' hremainder
    rw [sub_sub_sub_cancel_left, add_sub_add_left_eq_sub, ← mul_sub,
      CharTwo.sub_eq_add, ← polynomial_difference hburst.length,
      hdifference] at hsum
    rw [pow_add, mul_assoc, mul_comm (X ^ n)]
    exact hsum
  have hcoprime : IsCoprime (generator feedback) (X ^ (w + n)) := by
    refine IsCoprime.pow_right (IsCoprime.symm ?_)
    have hprime : Irreducible (X : (ZMod 2)[X]) := irreducible_X
    rw [hprime.coprime_iff_not_dvd, X_dvd_iff]
    exact hconstant
  have hdvd := hcoprime.dvd_of_dvd_mul_left hboth
  refine hne (eq_zero_of_dvd_of_degree_lt hdvd ?_)
  rw [degree_generator]
  exact (degree_polynomial_lt error).trans_le (WithBot.coe_le_coe.2 herror)

end

end AowisMap.Lib.Crc
