/-
The values of counting loops, and ranges of integers cut into blocks.

# Cutting

Blocks of one length start at the multiples of that length. A loop over
the starts of the blocks from the one that holds the first value of a
range, and in each round a loop over the part of the range that lies in
the block, run through the range once and in order (`flatMap_part`).

# Order

Two nested loops visit the same pairs whichever of them is the outer one
(`flatMap_swap`).
-/
import Mathlib.Data.Multiset.Bind
import Mathlib.Tactic.Ring
import Mathlib.Tactic.Positivity

namespace AowisMap.Lib.Steps

/-- The values of `for (i = first; i <= last; i += step)`, for a step
that is positive. -/
def values (first last step : Int) : List Int :=
  (List.range ((last - first) / step + 1).toNat).map
    fun round : Nat => first + round * step

variable {first last step start : Int}

theorem values_of_lt (hstep : 0 < step) (h : last < first) :
    values first last step = [] := by
  have hdiv : (last - first) / step < 0 :=
    Int.ediv_neg_of_neg_of_pos (by omega) hstep
  have hcount : ((last - first) / step + 1).toNat = 0 := by omega
  unfold values
  rw [hcount]
  rfl

theorem values_cons (hstep : 0 < step) (h : first ≤ last) :
    values first last step = first :: values (first + step) last step := by
  have hshift : (last - (first + step)) / step = (last - first) / step - 1 := by
    have hsub : last - (first + step) = last - first + step * (-1) := by ring
    rw [hsub, Int.add_mul_ediv_left _ _ hstep.ne']
    ring
  have hdiv : 0 ≤ (last - first) / step := Int.ediv_nonneg (by omega) hstep.le
  have hcount : ((last - first) / step + 1).toNat
      = ((last - first) / step - 1 + 1).toNat + 1 := by omega
  unfold values
  rw [hshift, hcount, List.range_succ_eq_map, List.map_cons, List.map_map]
  have hzero : first + ((0 : Nat) : Int) * step = first := by
    rw [Int.natCast_zero, Int.zero_mul, Int.add_zero]
  rw [hzero]
  refine congrArg (first :: ·) (List.map_congr_left fun round _ => ?_)
  show first + ((round + 1 : Nat) : Int) * step = first + step + round * step
  push_cast
  ring

theorem mem_values (hstep : 0 < step) {value : Int} :
    value ∈ values first last step
      ↔ first ≤ value ∧ value ≤ last ∧ step ∣ value - first := by
  unfold values
  rw [List.mem_map]
  constructor
  · intro h
    obtain ⟨round, hround, rfl⟩ := h
    rw [List.mem_range] at hround
    have hle : (round : Int) ≤ (last - first) / step := by omega
    have hmul := Int.mul_le_of_le_ediv hstep hle
    have hnonneg : 0 ≤ (round : Int) * step := by positivity
    refine ⟨by omega, by omega, ?_⟩
    rw [add_sub_cancel_left]
    exact Int.dvd_mul_left _ _
  · intro h
    obtain ⟨hfirst, hlast, rounds, hrounds⟩ := h
    have hnonneg : 0 ≤ rounds := by
      by_contra hneg
      have hmul : step * rounds < 0 :=
        Int.mul_neg_of_pos_of_neg hstep (by omega)
      omega
    have hle : rounds ≤ (last - first) / step := by
      rw [Int.le_ediv_iff_mul_le hstep, Int.mul_comm]
      omega
    refine ⟨rounds.toNat, ?_, ?_⟩
    · rw [List.mem_range]
      omega
    · rw [Int.toNat_of_nonneg hnonneg, Int.mul_comm]
      omega

theorem mem_values_one {value : Int} :
    value ∈ values first last 1 ↔ first ≤ value ∧ value ≤ last := by
  rw [mem_values (by decide)]
  exact ⟨fun h => ⟨h.1, h.2.1⟩, fun h => ⟨h.1, h.2, one_dvd _⟩⟩

/-- A loop has no value twice. -/
theorem nodup_values_one : (values first last 1).Nodup := by
  unfold values
  refine List.Nodup.map ?_ List.nodup_range
  intro a b hab
  dsimp only at hab
  omega

/-- A range is its front and its rest. -/
theorem values_append {middle : Int} (hmiddle : middle ≤ last) :
    ∀ {first : Int}, first ≤ middle + 1 →
      values first middle 1 ++ values (middle + 1) last 1
        = values first last 1 := by
  intro first
  induction hlength : (middle + 1 - first).toNat generalizing first with
  | zero =>
      intro hfirst
      obtain rfl : first = middle + 1 := by omega
      rw [values_of_lt (by decide) (by omega), List.nil_append]
  | succ length ih =>
      intro hfirst
      rw [values_cons (by decide) (by omega),
        values_cons (by decide) (by omega : first ≤ last), List.cons_append,
        ih (by omega) (by omega)]

/-- An element of a grid that is listed row by row. -/
theorem getElem?_rows {A : Type*} (f : Nat → Nat → A) {columns column : Nat}
    (hcolumn : column < columns) :
    ∀ {rows row : Nat}, row < rows →
      ((List.range rows).flatMap fun row =>
        (List.range columns).map (f row))[row * columns + column]?
        = some (f row column) := by
  intro rows
  induction rows with
  | zero => exact fun hrow => absurd hrow (Nat.not_lt_zero _)
  | succ rows ih =>
      intro row hrow
      have hlength : ((List.range rows).flatMap fun row =>
          (List.range columns).map (f row)).length = rows * columns := by
        simp
      rw [List.range_succ, List.flatMap_append, List.flatMap_singleton]
      rcases Nat.lt_succ_iff_lt_or_eq.1 hrow with hlt | rfl
      · have hindex : row * columns + column < rows * columns := by
          calc row * columns + column < row * columns + columns := by omega
            _ = (row + 1) * columns := (Nat.succ_mul _ _).symm
            _ ≤ rows * columns := Nat.mul_le_mul_right _ hlt
        rw [List.getElem?_append_left (by rw [hlength]; exact hindex)]
        exact ih hlt
      · rw [List.getElem?_append_right (by rw [hlength]; omega), hlength,
          Nat.add_sub_cancel_left, List.getElem?_map,
          List.getElem?_range hcolumn]
        rfl

-- ============================================================ cutting

/-- The part of a range in the block from `start`. -/
def part (first last step start : Int) : List Int :=
  values (max first start) (min last (start + step - 1)) 1

/-- The parts in the blocks from one on that starts after the range. -/
theorem flatMap_part_after (hstep : 0 < step) :
    ∀ {start : Int}, first ≤ start →
      (values start last step).flatMap (part first last step)
        = values start last 1 := by
  intro start
  induction hlength : (last + 1 - start).toNat using Nat.strong_induction_on
    generalizing start with
  | _ length ih =>
      intro hstart
      rcases lt_or_ge last start with hend | hmore
      · rw [values_of_lt hstep hend, values_of_lt (by decide) hend]
        rfl
      · rw [values_cons hstep hmore, List.flatMap_cons,
          ih _ (by omega) rfl (by omega)]
        unfold part
        rw [max_eq_right hstart]
        rcases le_total last (start + step - 1) with hwhole | hcut
        · have hrest : values (start + step) last 1 = [] :=
            values_of_lt (by decide) (by omega)
          rw [min_eq_left hwhole, hrest, List.append_nil]
        · have happend : values start (start + step - 1) 1
              ++ values (start + step - 1 + 1) last 1
              = values start last 1 := values_append hcut (by omega)
          rw [Int.sub_add_cancel] at happend
          rw [min_eq_right hcut, happend]

/-- The parts of a range in its blocks are the range. -/
theorem flatMap_part (hstep : 0 < step) (hfirst : 0 ≤ first)
    (hlast : first ≤ last) :
    (values (first.tdiv step * step) last step).flatMap
        (part first last step)
      = values first last 1 := by
  have hdiv : first.tdiv step = first / step :=
    Int.tdiv_eq_ediv_of_nonneg hfirst
  have hlow : first / step * step ≤ first := Int.ediv_mul_le _ hstep.ne'
  have hhigh := Int.lt_ediv_add_one_mul_self first hstep
  rw [Int.add_mul, Int.one_mul] at hhigh
  rw [hdiv]
  generalize first / step * step = start at hlow hhigh
  rw [values_cons hstep (by omega), List.flatMap_cons,
    flatMap_part_after hstep (by omega)]
  unfold part
  rw [max_eq_left hlow]
  rcases le_total last (start + step - 1) with hwhole | hcut
  · have hrest : values (start + step) last 1 = [] :=
      values_of_lt (by decide) (by omega)
    rw [min_eq_left hwhole, hrest, List.append_nil]
  · have happend : values first (start + step - 1) 1
        ++ values (start + step - 1 + 1) last 1
        = values first last 1 := values_append hcut (by omega)
    rw [Int.sub_add_cancel] at happend
    rw [min_eq_right hcut, happend]

-- ============================================================== order

variable {A B C : Type*}

/-- Nested loops can be exchanged. -/
theorem flatMap_swap (outer : List A) (inner : List B) (f : A → B → List C) :
    (outer.flatMap fun a => inner.flatMap fun b => f a b).Perm
      (inner.flatMap fun b => outer.flatMap fun a => f a b) := by
  have hswap := Multiset.bind_bind (outer : Multiset A) (inner : Multiset B)
    (f := fun a b => (f a b : Multiset C))
  simp only [Multiset.coe_bind] at hswap
  exact Multiset.coe_eq_coe.1 hswap

end AowisMap.Lib.Steps
