/-
Weights of the nodes around a point of a line, as a linear interpolation
gives them.

# Tents

A node has weight one at its own place, down to none at a distance of one
(`tent`). Of the nodes from zero to `last`, a point between them weighs the
one below it and the next one, and no other. So what is summed or asked
over all nodes is summed or asked over these two (`sum_tent`,
`forall_tent`); at the last node the second of them is the first again,
with weight none.
-/
import Mathlib.Algebra.BigOperators.Intervals
import Mathlib.Algebra.Order.Floor.Ring
import Mathlib.Tactic.Linarith

namespace AowisMap.Lib.Tent

variable {K : Type*} [Field K] [LinearOrder K]

/-- The weight of a node for a point. -/
def tent (point : K) (node : Nat) : K := max 0 (1 - |point - node|)

variable [FloorRing K]

/-- The node at or below a point. -/
def below (point : K) (last : Nat) : Nat := min ⌊point⌋.toNat last

/-- The next node, if there is one. -/
def above (point : K) (last : Nat) : Nat := min (below point last + 1) last

/-- How far the point is behind the node below it. -/
def fraction (point : K) (last : Nat) : K := point - below point last

variable [IsStrictOrderedRing K] {point : K} {last : Nat}

/-- The point lies between the node below it and the next one. -/
theorem fraction_bounds (hlow : 0 ≤ point) (hhigh : point ≤ last) :
    0 ≤ fraction point last ∧ fraction point last < 1 ∧
      (below point last = last → fraction point last = 0) := by
  have hfloor : 0 ≤ ⌊point⌋ := Int.floor_nonneg.2 hlow
  have hle := Int.floor_le point
  have hlt := Int.lt_floor_add_one point
  have hcast : ((⌊point⌋.toNat : Nat) : K) = ⌊point⌋ := by
    rw [← Int.cast_natCast, Int.toNat_of_nonneg hfloor]
  have htop : ⌊point⌋.toNat ≤ last := by
    have hfloor_le : (⌊point⌋ : K) ≤ last := hle.trans hhigh
    have hint : ⌊point⌋ ≤ (last : Int) := by exact_mod_cast hfloor_le
    omega
  have hbelow : ((below point last : Nat) : K) = ⌊point⌋ := by
    rw [below, Nat.min_eq_left htop, hcast]
  unfold fraction
  refine ⟨by rw [hbelow]; linarith, by rw [hbelow]; linarith, ?_⟩
  intro hlast
  rw [hlast] at hbelow ⊢
  rw [← hbelow] at hle
  linarith

variable (hlow : 0 ≤ point) (hhigh : point ≤ last)

include hlow hhigh in
theorem tent_below :
    tent point (below point last) = 1 - fraction point last := by
  obtain ⟨hnonneg, hlt, -⟩ := fraction_bounds hlow hhigh
  have habs : |point - below point last| = fraction point last :=
    abs_of_nonneg hnonneg
  rw [tent, habs]
  exact max_eq_right (by linarith)

include hlow hhigh in
theorem tent_next :
    tent point (below point last + 1) = fraction point last := by
  obtain ⟨hnonneg, hlt, -⟩ := fraction_bounds hlow hhigh
  have hdistance : point - ((below point last + 1 : Nat) : K)
      = fraction point last - 1 := by
    rw [fraction, Nat.cast_add, Nat.cast_one, sub_sub]
  rw [tent, hdistance, abs_of_neg (by linarith)]
  rw [max_eq_right (by linarith)]
  linarith

include hlow hhigh in
/-- Every other node is a distance of one away at least. -/
theorem tent_far {node : Nat} (hbelow : node ≠ below point last)
    (hnext : node ≠ below point last + 1) : tent point node = 0 := by
  obtain ⟨hnonneg, hlt, -⟩ := fraction_bounds hlow hhigh
  have hpoint : point = below point last + fraction point last := by
    rw [fraction, add_sub_cancel]
  refine max_eq_left ?_
  rcases Nat.lt_or_gt_of_ne hbelow with hless | hmore
  · have hcast : (node : K) + 1 ≤ below point last := by
      exact_mod_cast hless
    have habs := le_abs_self (point - node)
    linarith
  · have hcast : (below point last : K) + 1 + 1 ≤ node := by
      have htwo : below point last + 1 + 1 ≤ node := by omega
      exact_mod_cast htwo
    have habs := neg_le_abs (point - node)
    linarith

include hlow hhigh in
/-- What is asked of all nodes, if it holds of weight none. -/
theorem forall_tent {p : K → Nat → Prop} (hzero : ∀ node, p 0 node) :
    (∀ node ∈ Finset.range (last + 1), p (tent point node) node) ↔
      p (1 - fraction point last) (below point last) ∧
        p (fraction point last) (above point last) := by
  obtain ⟨-, -, hlast⟩ := fraction_bounds hlow hhigh
  have hle : below point last ≤ last := Nat.min_le_right _ _
  have hweight := tent_below hlow hhigh
  have hnext := tent_next hlow hhigh
  constructor
  · intro h
    refine ⟨hweight ▸ h _ (Finset.mem_range.2 (Nat.lt_succ_of_le hle)), ?_⟩
    by_cases hend : below point last = last
    · rw [hlast hend]
      exact hzero _
    · have habove : above point last = below point last + 1 :=
        Nat.min_eq_left (by omega)
      rw [habove]
      exact hnext ▸ h _ (Finset.mem_range.2 (by omega))
  · rintro ⟨hbelow, habove⟩ node hnode
    rw [Finset.mem_range] at hnode
    by_cases hat : node = below point last
    · rw [hat, hweight]
      exact hbelow
    · by_cases hatNext : node = below point last + 1
      · have hsame : above point last = node := by
          rw [hatNext]
          exact Nat.min_eq_left (by omega)
        rw [hsame] at habove
        rw [hatNext, hnext, ← hatNext]
        exact habove
      · rw [tent_far hlow hhigh hat hatNext]
        exact hzero node

include hlow hhigh in
/-- What is summed over all nodes, if weight none adds nothing. -/
theorem sum_tent {M : Type*} [AddCommMonoid M] {f : K → Nat → M}
    (hzero : ∀ node, f 0 node = 0) :
    ∑ node ∈ Finset.range (last + 1), f (tent point node) node
      = f (1 - fraction point last) (below point last)
        + f (fraction point last) (above point last) := by
  obtain ⟨-, -, hlast⟩ := fraction_bounds hlow hhigh
  have hle : below point last ≤ last := Nat.min_le_right _ _
  have hmem : below point last ∈ Finset.range (last + 1) :=
    Finset.mem_range.2 (Nat.lt_succ_of_le hle)
  rw [← Finset.add_sum_erase _ _ hmem, tent_below hlow hhigh]
  congr 1
  by_cases hend : below point last = last
  · rw [hlast hend, hzero]
    refine Finset.sum_eq_zero fun node hnode => ?_
    obtain ⟨hne, hrange⟩ := Finset.mem_erase.1 hnode
    rw [Finset.mem_range] at hrange
    rw [tent_far hlow hhigh hne (by omega)]
    exact hzero node
  · have habove : above point last = below point last + 1 :=
      Nat.min_eq_left (by omega)
    rw [Finset.sum_eq_single (below point last + 1), tent_next hlow hhigh,
      habove]
    · intro node hnode hnext
      rw [tent_far hlow hhigh (Finset.mem_erase.1 hnode).1 hnext]
      exact hzero node
    · intro hnot
      refine absurd (Finset.mem_erase.2 ⟨by omega, ?_⟩) hnot
      exact Finset.mem_range.2 (by omega)

end AowisMap.Lib.Tent
