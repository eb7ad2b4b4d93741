/-
Sums that loops gather, and how much intervals share.

# Gains

Each round of a loop adds something to what is observed of its state, if
the state is as it should be. Then the loop adds the sum (`foldl_gain`).

# Boxes

A scan over numbered boxes takes those that are wanted, up to the first
that is not, and notes for each how much of it is covered, if anything is.
If only boxes without cover are left out, what is noted for a box is its
cover (`under_scan`).
-/
import Mathlib.Algebra.BigOperators.Group.List.Basic
import Mathlib.Algebra.Order.Field.Basic
import Mathlib.Data.Finset.Dedup
import Mathlib.Order.MinMax
import Mathlib.Tactic.Linarith
import AowisMap.Lib.Rounding
import AowisMap.Lib.Steps

namespace AowisMap.Lib.Tally

-- =============================================================== ranges

/-- The integers from one to another, as a set. -/
def between (first last : Int) : Finset Int :=
  (Steps.values first last 1).toFinset

theorem mem_between {first last value : Int} :
    value ∈ between first last ↔ first ≤ value ∧ value ≤ last := by
  unfold between
  rw [List.mem_toFinset, Steps.mem_values_one]

-- ================================================================ gains

/-- What the rounds of a loop add. -/
theorem foldl_gain {S A M : Type*} [AddMonoid M] {step : S → A → S}
    (kept : S → Prop) (value : S → M) (gain : A → M) :
    ∀ {l : List A} {state : S}, (∀ state, kept state → ∀ a ∈ l,
        kept (step state a) ∧ value (step state a) = value state + gain a) →
      kept state → kept (l.foldl step state) ∧
        value (l.foldl step state) = value state + (l.map gain).sum := by
  intro l
  induction l with
  | nil => exact fun _ hstate => ⟨hstate, (add_zero _).symm⟩
  | cons a rest ih =>
      intro state hstep hstate
      obtain ⟨hkept, hvalue⟩ := hstep state hstate a List.mem_cons_self
      obtain ⟨hkept', hvalue'⟩ := ih
        (fun state hstate a ha => hstep state hstate a
          (List.mem_cons_of_mem _ ha)) hkept
      refine ⟨hkept', ?_⟩
      rw [List.foldl_cons, hvalue', hvalue, List.map_cons, List.sum_cons,
        add_assoc]

-- =============================================================== shares

section

variable {K : Type*} [Field K] [LinearOrder K] [IsStrictOrderedRing K]
  {low high low' high' : K}

/-- The length two intervals share. -/
def shared (low high low' high' : K) : K :=
  max 0 (min high high' - max low low')

theorem shared_eq_zero (h : min high high' ≤ max low low') :
    shared low high low' high' = 0 := by
  unfold shared
  rw [max_eq_left (sub_nonpos.2 h)]

/-- An interval that ends before the other one. -/
theorem shared_before (h : high ≤ low') : shared low high low' high' = 0 :=
  shared_eq_zero ((min_le_left _ _).trans (h.trans (le_max_right _ _)))

/-- An interval that starts after the other one. -/
theorem shared_after (h : high' ≤ low) : shared low high low' high' = 0 :=
  shared_eq_zero ((min_le_right _ _).trans (h.trans (le_max_left _ _)))

/-- Two intervals moved by as much. -/
theorem shared_add (shift : K) :
    shared (low + shift) (high + shift) (low' + shift) (high' + shift)
      = shared low high low' high' := by
  unfold shared
  rw [min_add_add_right, max_add_add_right, add_sub_add_right_eq_sub]

end

-- ================================================================ scans

/-- What a list of numbered amounts holds under a number. -/
def under {M : Type*} [Zero M] [Add M] (entries : List (Nat × M))
    (number : Nat) : M :=
  (entries.map fun entry => if entry.1 = number then entry.2 else 0).sum

/-- A scan ends at the first box that is not wanted, and no later one is.
-/
theorem mem_takeWhile_range' {wanted : Nat → Bool} {number : Nat} :
    ∀ {count first : Nat}, (∀ box, first ≤ box → box + 1 < first + count →
        wanted (box + 1) = true → wanted box = true) →
      (number ∈ (List.range' first count).takeWhile wanted ↔
        (first ≤ number ∧ number < first + count) ∧
          wanted number = true) := by
  intro count
  induction count with
  | zero =>
      intro first _
      simp only [List.range'_zero, List.takeWhile_nil, List.not_mem_nil,
        false_iff]
      omega
  | succ count ih =>
      intro first hdown
      have hrest : ∀ box, first + 1 ≤ box → box + 1 < first + 1 + count →
          wanted (box + 1) = true → wanted box = true :=
        fun box hfirst hlast => hdown box (by omega) (by omega)
      -- what is wanted later is wanted from the first box on
      have hstart : ∀ later, first + later < first + (count + 1) →
          wanted (first + later) = true → wanted first = true := by
        intro later
        induction later with
        | zero => exact fun _ h => h
        | succ later ih' =>
            intro hlast h
            exact ih' (by omega) (hdown (first + later) (by omega)
              (by omega) h)
      rw [List.range'_succ, List.takeWhile_cons]
      cases hwanted : wanted first with
      | false =>
          simp only [Bool.false_eq_true, if_false, List.not_mem_nil,
            false_iff]
          intro hmem
          obtain ⟨⟨hlow, hhigh⟩, hnumber⟩ := hmem
          obtain ⟨later, rfl⟩ := Nat.exists_eq_add_of_le hlow
          rw [hstart later hhigh hnumber] at hwanted
          cases hwanted
      | true =>
          rw [if_pos rfl, List.mem_cons, ih hrest]
          constructor
          · intro h
            rcases h with rfl | ⟨hrange, hnumber⟩
            · exact ⟨by omega, hwanted⟩
            · exact ⟨by omega, hnumber⟩
          · intro h
            obtain ⟨hrange, hnumber⟩ := h
            by_cases hfirst : number = first
            · exact Or.inl hfirst
            · exact Or.inr ⟨by omega, hnumber⟩

variable {K : Type*} [Field K] [LinearOrder K] {cover : Nat → K}

/-- What is noted of the boxes of a scan. -/
def noted (cover : Nat → K) (boxes : List Nat) : List (Nat × K) :=
  boxes.filterMap fun box =>
    if 0 < cover box then some (box, cover box) else none

theorem under_noted {number : Nat} :
    ∀ {boxes : List Nat}, boxes.Nodup → under (noted cover boxes) number
      = if number ∈ boxes then max 0 (cover number) else 0 := by
  intro boxes
  induction boxes with
  | nil => exact fun _ => rfl
  | cons box rest ih =>
      intro hnodup
      obtain ⟨hbox, hrest⟩ := List.nodup_cons.1 hnodup
      have hnote : under (noted cover (box :: rest)) number
          = (if box = number then max 0 (cover box) else 0)
            + under (noted cover rest) number := by
        unfold under noted
        rw [List.filterMap_cons]
        by_cases hcover : 0 < cover box
        · rw [if_pos hcover, max_eq_right hcover.le]
          rfl
        · rw [if_neg hcover, max_eq_left (not_lt.1 hcover), ite_self,
            zero_add]
      rw [hnote, ih hrest]
      by_cases hnumber : box = number
      · subst hnumber
        rw [if_pos rfl, if_neg hbox, if_pos List.mem_cons_self, add_zero]
      · rw [if_neg hnumber, zero_add]
        have hmem : number ∈ box :: rest ↔ number ∈ rest := by
          rw [List.mem_cons]
          exact or_iff_right fun h => hnumber h.symm
        simp only [hmem]

/-- What a scan notes for a box is its cover. -/
theorem under_scan {wanted : Nat → Bool} {first count number : Nat}
    (hdown : ∀ box, first ≤ box → box + 1 < first + count →
      wanted (box + 1) = true → wanted box = true)
    (hnumber : number < first + count)
    (hbefore : number < first → cover number ≤ 0)
    (hunwanted : wanted number = false → cover number ≤ 0) :
    under (noted cover ((List.range' first count).takeWhile wanted)) number
      = max 0 (cover number) := by
  have hnodup : ((List.range' first count).takeWhile wanted).Nodup :=
    List.Nodup.sublist (List.takeWhile_sublist _) List.nodup_range'
  rw [under_noted hnodup]
  simp only [mem_takeWhile_range' hdown]
  split
  · rfl
  · rename_i hout
    refine (max_eq_left ?_).symm
    by_cases hearly : number < first
    · exact hbefore hearly
    · cases hwanted : wanted number with
      | false => exact hunwanted hwanted
      | true => exact absurd ⟨⟨by omega, hnumber⟩, hwanted⟩ hout

/-- What is noted is of scanned boxes. -/
theorem noted_range {wanted : Nat → Bool} {first count : Nat}
    {entry : Nat × K} (h : entry ∈ noted cover
      ((List.range' first count).takeWhile wanted)) :
    first ≤ entry.1 ∧ entry.1 < first + count := by
  obtain ⟨box, hbox, hnote⟩ := List.mem_filterMap.1 h
  have hmem := (List.takeWhile_sublist _).subset hbox
  rw [List.mem_range'_1] at hmem
  split at hnote
  · cases hnote
    exact hmem
  · cases hnote

end AowisMap.Lib.Tally
