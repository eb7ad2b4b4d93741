/-
Segments and chains of segments in the plane, and boxes they leave.

# Points

Vertices have any type with two coordinates, so that a program's own
points can be the vertices. What lies between them is a pair of numbers.

# Leaving a box

A segment from a point of a box to one that is not inside it passes the
border (`exists_border`): of all sides it is moving towards, it meets one
first (`exists_first_zero`). So a chain of segments that stays off the
border is inside as a whole, or has no point in the box (`chain_free`).
-/
import Mathlib.Algebra.Order.Field.Basic
import Mathlib.Tactic.FieldSimp
import Mathlib.Tactic.Linarith
import Mathlib.Tactic.Ring

namespace AowisMap.Lib.Segments

variable {K P : Type*} [Field K] [LinearOrder K]

-- ============================================================ the points

/-- A point of the segment between two vertices. -/
def On (x y : P → K) (a b : P) (u v : K) : Prop :=
  ∃ t, 0 ≤ t ∧ t ≤ 1 ∧ u = x a + t * (x b - x a) ∧ v = y a + t * (y b - y a)

/-- A box, by its sides. -/
structure Box (K : Type*) where
  west : K
  south : K
  east : K
  north : K

/-- A point of the box. -/
structure Box.Has (box : Box K) (u v : K) : Prop where
  west_le : box.west ≤ u
  le_east : u ≤ box.east
  south_le : box.south ≤ v
  le_north : v ≤ box.north

/-- A point inside the box. -/
structure Box.Inside (box : Box K) (u v : K) : Prop where
  west_lt : box.west < u
  lt_east : u < box.east
  south_lt : box.south < v
  lt_north : v < box.north

/-- A point of the box's border. -/
def Box.Border (box : Box K) (u v : K) : Prop :=
  box.Has u v ∧ ¬ box.Inside u v

variable {x y : P → K} {a b : P} {u v : K} {box : Box K}

omit [Field K] in
theorem Box.Inside.has (h : box.Inside u v) : box.Has u v :=
  ⟨h.west_lt.le, h.lt_east.le, h.south_lt.le, h.lt_north.le⟩

omit [Field K] in
/-- A point of the border is on one of the sides. -/
theorem Box.Border.side (h : box.Border u v) :
    u = box.west ∨ u = box.east ∨ v = box.south ∨ v = box.north := by
  obtain ⟨⟨hwest, heast, hsouth, hnorth⟩, hinside⟩ := h
  by_contra hnone
  rw [not_or, not_or, not_or] at hnone
  obtain ⟨hw, he, hs, hn⟩ := hnone
  exact hinside ⟨lt_of_le_of_ne hwest (Ne.symm hw), lt_of_le_of_ne heast he,
    lt_of_le_of_ne hsouth (Ne.symm hs), lt_of_le_of_ne hnorth hn⟩

variable [IsStrictOrderedRing K]

theorem on_left : On x y a b (x a) (y a) :=
  ⟨0, le_refl _, zero_le_one, by ring, by ring⟩

theorem on_right : On x y a b (x b) (y b) :=
  ⟨1, zero_le_one, le_refl _, by ring, by ring⟩

theorem On.symm (h : On x y a b u v) : On x y b a u v := by
  obtain ⟨t, hlow, hhigh, hu, hv⟩ := h
  exact ⟨1 - t, by linarith, by linarith, by rw [hu]; ring, by rw [hv]; ring⟩

/-- A point between a point of a segment and one of its ends. -/
theorem On.towards (h : On x y a b u v) {s : K} (hlow : 0 ≤ s)
    (hhigh : s ≤ 1) :
    On x y a b (u + s * (x b - u)) (v + s * (y b - v)) := by
  obtain ⟨t, htlow, hthigh, hu, hv⟩ := h
  refine ⟨t + s * (1 - t), ?_, ?_, by rw [hu]; ring, by rw [hv]; ring⟩
  · have hstep : 0 ≤ s * (1 - t) := mul_nonneg hlow (by linarith)
    linarith
  · have hstep : s * (1 - t) ≤ 1 * (1 - t) :=
      mul_le_mul_of_nonneg_right hhigh (by linarith)
    linarith

-- ========================================================= leaving a box

/-- Quantities that are linear in time and none of which is negative at
first: if one is not positive in the end, there is a moment at which one
is zero and none is negative. -/
theorem exists_first_zero :
    ∀ {lines : List (K × K)}, (∀ line ∈ lines, 0 ≤ line.1) →
      (∃ line ∈ lines, line.1 + line.2 ≤ 0) →
      ∃ t, 0 ≤ t ∧ t ≤ 1 ∧ (∀ line ∈ lines, 0 ≤ line.1 + t * line.2) ∧
        ∃ line ∈ lines, line.1 + t * line.2 = 0 := by
  intro lines
  induction lines with
  | nil =>
      rintro - ⟨line, hmem, -⟩
      cases hmem
  | cons first rest ih =>
      intro hstart hend
      obtain ⟨α, β⟩ := first
      have hα : 0 ≤ α := hstart _ List.mem_cons_self
      have hstart' := fun line hmem => hstart line (List.mem_cons_of_mem _ hmem)
      -- up to a moment at which none of the rest is negative, and at
      -- which the first one is not positive
      have hbefore : ∀ {s : K}, 0 ≤ s → s ≤ 1 →
          (∀ line ∈ rest, 0 ≤ line.1 + s * line.2) → α + s * β ≤ 0 →
          ∃ t, 0 ≤ t ∧ t ≤ 1 ∧
            (∀ line ∈ (α, β) :: rest, 0 ≤ line.1 + t * line.2) ∧
            ∃ line ∈ (α, β) :: rest, line.1 + t * line.2 = 0 := by
        intro s hlow hhigh hrest hcrossed
        by_cases hfall : β < 0
        · have hzero : α + α / -β * β = 0 := by
            have hne : β ≠ 0 := hfall.ne
            field_simp
            ring
          have hnonneg : 0 ≤ α / -β := div_nonneg hα (by linarith)
          have hle : α / -β ≤ s := by
            rw [div_le_iff₀ (by linarith)]
            linarith
          refine ⟨α / -β, hnonneg, hle.trans hhigh, ?_, (α, β),
            List.mem_cons_self, hzero⟩
          intro line hmem
          rcases List.mem_cons.1 hmem with rfl | hlater
          · exact hzero.ge
          · have hfirst := hstart' line hlater
            have hlast := hrest line hlater
            rcases le_or_gt 0 line.2 with hrise | hdrop
            · exact add_nonneg hfirst (mul_nonneg hnonneg hrise)
            · have hmore : s * line.2 ≤ α / -β * line.2 :=
                mul_le_mul_of_nonpos_right hle hdrop.le
              linarith
        · have hβ : 0 ≤ β := not_lt.1 hfall
          have hα : α = 0 := by
            have hprod := mul_nonneg hlow hβ
            linarith
          refine ⟨0, le_refl _, zero_le_one, ?_, (α, β), List.mem_cons_self,
            by rw [hα]; ring⟩
          intro line hmem
          rw [zero_mul, add_zero]
          exact hstart line hmem
      by_cases hrest : ∃ line ∈ rest, line.1 + line.2 ≤ 0
      · obtain ⟨t, hlow, hhigh, hnonneg, line, hmem, hzero⟩ :=
          ih hstart' hrest
        rcases le_or_gt 0 (α + t * β) with hfine | hcrossed
        · refine ⟨t, hlow, hhigh, ?_, line, List.mem_cons_of_mem _ hmem,
            hzero⟩
          intro other hother
          rcases List.mem_cons.1 hother with rfl | hlater
          · exact hfine
          · exact hnonneg other hlater
        · exact hbefore hlow hhigh hnonneg hcrossed.le
      · refine hbefore zero_le_one (le_refl _) ?_ ?_
        · intro line hmem
          rw [one_mul]
          exact (not_le.1 fun hle => hrest ⟨line, hmem, hle⟩).le
        · obtain ⟨line, hmem, hle⟩ := hend
          rcases List.mem_cons.1 hmem with rfl | hlater
          · rw [one_mul]
            exact hle
          · exact absurd ⟨line, hlater, hle⟩ hrest

/-- From a point of a box to one that is not inside it, there is a point
of the border. -/
theorem exists_border {u' v' : K} (h : box.Has u v)
    (hleaves : ¬ box.Inside u' v') :
    ∃ s, 0 ≤ s ∧ s ≤ 1 ∧
      box.Border (u + s * (u' - u)) (v + s * (v' - v)) := by
  have hend : ∃ line ∈ [(u - box.west, u' - u), (box.east - u, u - u'),
      (v - box.south, v' - v), (box.north - v, v - v')],
      line.1 + line.2 ≤ 0 := by
    by_contra hnone
    have hpositive := fun line hmem =>
      not_le.1 fun hle => hnone ⟨line, hmem, hle⟩
    have hw := hpositive (u - box.west, u' - u) (by simp)
    have he := hpositive (box.east - u, u - u') (by simp)
    have hs := hpositive (v - box.south, v' - v) (by simp)
    have hn := hpositive (box.north - v, v - v') (by simp)
    dsimp only at hw he hs hn
    exact hleaves ⟨by linarith, by linarith, by linarith, by linarith⟩
  have hstart : ∀ line ∈ [(u - box.west, u' - u), (box.east - u, u - u'),
      (v - box.south, v' - v), (box.north - v, v - v')], 0 ≤ line.1 := by
    intro line hmem
    have hw := h.west_le
    have he := h.le_east
    have hs := h.south_le
    have hn := h.le_north
    simp only [List.mem_cons, List.not_mem_nil, or_false] at hmem
    rcases hmem with rfl | rfl | rfl | rfl
    · exact sub_nonneg.2 hw
    · exact sub_nonneg.2 he
    · exact sub_nonneg.2 hs
    · exact sub_nonneg.2 hn
  obtain ⟨s, hlow, hhigh, hnonneg, line, hmem, hzero⟩ :=
    exists_first_zero hstart hend
  have hw := hnonneg (u - box.west, u' - u) (by simp)
  have he := hnonneg (box.east - u, u - u') (by simp)
  have hs := hnonneg (v - box.south, v' - v) (by simp)
  have hn := hnonneg (box.north - v, v - v') (by simp)
  dsimp only at hw he hs hn
  refine ⟨s, hlow, hhigh, ⟨by linarith, by linarith, by linarith,
    by linarith⟩, ?_⟩
  rintro ⟨hwest, heast, hsouth, hnorth⟩
  simp only [List.mem_cons, List.not_mem_nil, or_false] at hmem
  rcases hmem with rfl | rfl | rfl | rfl
  · dsimp only at hzero
    linarith
  · dsimp only at hzero
    linarith
  · dsimp only at hzero
    linarith
  · dsimp only at hzero
    linarith

-- ================================================================ chains

/-- A segment that stays off the border of a box. -/
def OffBorder (x y : P → K) (box : Box K) (a b : P) : Prop :=
  ∀ u v, On x y a b u v → ¬ box.Border u v

/-- A segment without a point in a box. -/
def Free (x y : P → K) (box : Box K) (a b : P) : Prop :=
  ∀ u v, On x y a b u v → ¬ box.Has u v

/-- A segment off the border does not leave the inside. -/
theorem OffBorder.inside (h : OffBorder x y box a b)
    (hin : box.Inside (x a) (y a)) : box.Inside (x b) (y b) := by
  by_contra hout
  obtain ⟨s, hlow, hhigh, hborder⟩ := exists_border hin.has hout
  exact h _ _ ⟨s, hlow, hhigh, rfl, rfl⟩ hborder

theorem OffBorder.symm (h : OffBorder x y box a b) :
    OffBorder x y box b a := fun u v hon => h u v hon.symm

/-- A segment off the border whose end is not inside has no point in the
box. -/
theorem OffBorder.free (h : OffBorder x y box a b)
    (hout : ¬ box.Inside (x b) (y b)) : Free x y box a b := by
  intro u v hon hhas
  obtain ⟨s, hlow, hhigh, hborder⟩ := exists_border hhas hout
  exact h _ _ (hon.towards hlow hhigh) hborder

/-- The segments of a chain. -/
def sides (chain : List P) : List (P × P) := chain.zip chain.tail

/-- A chain off the border has all its vertices inside, or none. -/
theorem chain_inside_iff :
    ∀ {first : P} {rest : List P}, (∀ side ∈ sides (first :: rest),
        OffBorder x y box side.1 side.2) →
      ∀ p ∈ first :: rest,
        box.Inside (x p) (y p) ↔ box.Inside (x first) (y first) := by
  intro first rest
  induction rest generalizing first with
  | nil =>
      intro _ p hmem
      rw [List.mem_singleton.1 hmem]
  | cons second rest ih =>
      intro hsides p hmem
      have hside := hsides (first, second) List.mem_cons_self
      have hnext : box.Inside (x second) (y second)
          ↔ box.Inside (x first) (y first) :=
        ⟨hside.symm.inside, hside.inside⟩
      rcases List.mem_cons.1 hmem with rfl | hlater
      · exact Iff.rfl
      · exact (ih (fun side hmem => hsides side
          (List.mem_cons_of_mem _ hmem)) p hlater).trans hnext

/-- A chain off the border is inside as a whole, or has no point in the
box (but for a single vertex). -/
theorem chain_free {chain : List P}
    (hsides : ∀ side ∈ sides chain, OffBorder x y box side.1 side.2) :
    (∀ p ∈ chain, box.Inside (x p) (y p)) ∨
      ∀ side ∈ sides chain, Free x y box side.1 side.2 := by
  cases chain with
  | nil => exact Or.inl fun p hmem => absurd hmem List.not_mem_nil
  | cons first rest =>
      by_cases hfirst : box.Inside (x first) (y first)
      · exact Or.inl fun p hmem =>
          (chain_inside_iff hsides p hmem).2 hfirst
      · right
        intro side hside
        have hmem : side.2 ∈ first :: rest :=
          List.mem_of_mem_tail (List.of_mem_zip hside).2
        exact (hsides side hside).free fun hin =>
          hfirst ((chain_inside_iff hsides _ hmem).1 hin)

end AowisMap.Lib.Segments
