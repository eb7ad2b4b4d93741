/-
Which source cell a coordinate lies in.

# Borders

A cell has the latitudes above its southern border up to its northern
one, give or take the tolerance (`InCell`). For whole ranges the cell is
given by its borders: `sourceSouthForLatitude_eq` and
`sourceWestForLongitude_eq`.
-/
import Mathlib.Tactic.Positivity
import AowisMap.Terrain.SourceCells

namespace AowisMap.Terrain

open Lib Lib.Rounding

variable {K : Type*} [Field K] [LinearOrder K] [FloorRing K]
  {base : CopernicusSourceAddress} {latitude longitude : K}

/-- A point of a grid and the cell the code takes it to lie in. -/
structure InCell (base : CopernicusSourceAddress)
    (latitude longitude : K) : Prop where
  south_lt : (base.southDeg : K) < latitude
  le_north : latitude ≤ base.southDeg + 1 + 1 / 10 ^ 12
  west_le : (base.westDeg : K) ≤ longitude
  lt_east : longitude < base.westDeg + 1
  southDeg_ge : -86 ≤ base.southDeg
  southDeg_le : base.southDeg ≤ 84
  westDeg_ge : -180 ≤ base.westDeg
  westDeg_le : base.westDeg ≤ 179

variable [IsStrictOrderedRing K]

theorem llround_near (value : K) : |(llround value : K) - value| ≤ 1 / 2 :=
  roundAway_near value

theorem llround_intCast (n : Int) : llround (n : K) = n :=
  roundAway_intCast n

omit [IsStrictOrderedRing K] in
theorem llround_of_nonneg {value : K} (h : 0 ≤ value) :
    llround value = ⌊value + 1 / 2⌋ := roundAway_of_nonneg h

/-- Latitudes up to the northern border lie in a cell, but not those next
to the southern one. -/
theorem sourceSouthForLatitude_eq {south : Int}
    (hlow : (south : K) + 1 / 10 ^ 12 < latitude)
    (hhigh : latitude ≤ south + 1) (hsouth : -90 ≤ south)
    (hnorth : south < 89) : sourceSouthForLatitude latitude = south := by
  have hsouth : (-90 : K) ≤ south := by exact_mod_cast hsouth
  have hnorth : (south : K) + 1 ≤ 89 := by exact_mod_cast hnorth
  unfold sourceSouthForLatitude
  rw [if_neg (by linarith), if_neg (by linarith)]
  have hnear := llround_near latitude
  rw [abs_le] at hnear
  by_cases htie : |latitude - llround latitude| ≤ 1 / 10 ^ 12
  · -- next to the northern border
    have hclose := abs_le.1 htie
    have habove : ((south : Int) : K) < llround latitude := by linarith
    have hbelow : (llround latitude : K) < ((south + 2 : Int) : K) := by
      push_cast
      linarith
    have habove := Int.cast_lt.1 habove
    have hbelow := Int.cast_lt.1 hbelow
    rw [if_pos htie]
    omega
  · rw [if_neg htie, Int.floor_eq_iff]
    refine ⟨by linarith, lt_of_le_of_ne hhigh fun hborder => htie ?_⟩
    have hround : llround latitude = south + 1 := by
      rw [hborder]
      exact_mod_cast llround_intCast (south + 1)
    rw [hround, hborder]
    push_cast
    rw [sub_self, abs_zero]
    positivity

/-- Longitudes inside the ring lie in the cell of their floor. -/
theorem sourceWestForLongitude_eq {west : Int}
    (hlow : (west : K) ≤ longitude) (hhigh : longitude < west + 1)
    (hwest : -180 ≤ west) (heast : west ≤ 179) :
    sourceWestForLongitude longitude = west := by
  have heast : (west : K) ≤ 179 := by exact_mod_cast heast
  unfold sourceWestForLongitude
  rw [if_neg (by linarith)]
  by_cases hborder : longitude ≤ -180
  · have hwest : (west : K) ≤ ((-180 : Int) : K) := by
      push_cast
      linarith
    have hwest := Int.cast_le.1 hwest
    rw [if_pos hborder]
    omega
  · rw [if_neg hborder, Int.floor_eq_iff]
    exact ⟨hlow, hhigh⟩

/-- The latitudes of a cell: from next to its southern border to next to its
northern one. -/
theorem sourceSouthForLatitude_spec (hlow : -90 < latitude)
    (hhigh : latitude < 90) :
    (sourceSouthForLatitude latitude : K) + 1 / 10 ^ 12 < latitude ∧
      latitude ≤ sourceSouthForLatitude latitude + 1 + 1 / 10 ^ 12 := by
  have hnear := abs_le.1 (llround_near latitude)
  unfold sourceSouthForLatitude
  rw [if_neg (by linarith), if_neg (by linarith)]
  by_cases htie : |latitude - llround latitude| ≤ 1 / 10 ^ 12
  · have hclose := abs_le.1 htie
    rw [if_pos htie]
    push_cast
    constructor
    · linarith
    · linarith
  · have hfloor := Int.floor_le latitude
    have hnext := Int.lt_floor_add_one latitude
    rw [if_neg htie]
    refine ⟨?_, by linarith⟩
    by_contra hborder
    -- so close to its floor, a latitude is rounded to it
    have hround : llround latitude = ⌊latitude⌋ := by
      have hbelow : (llround latitude : K) < ((⌊latitude⌋ + 1 : Int) : K) := by
        push_cast
        linarith
      have habove : ((⌊latitude⌋ - 1 : Int) : K) < llround latitude := by
        push_cast
        linarith
      have hbelow := Int.cast_lt.1 hbelow
      have habove := Int.cast_lt.1 habove
      omega
    apply htie
    rw [hround, abs_le]
    constructor
    · linarith
    · linarith

/-- No latitude above the southern border lies in a cell farther south. -/
theorem le_sourceSouthForLatitude {south : Int}
    (h : (south : K) + 1 / 10 ^ 12 < latitude) (hsouth : south ≤ 89) :
    south ≤ sourceSouthForLatitude latitude := by
  by_cases hpole : latitude ≤ -90
  · have hless : (south : K) < ((-90 : Int) : K) := by
      push_cast
      linarith
    have hless := Int.cast_lt.1 hless
    unfold sourceSouthForLatitude
    rw [if_pos hpole]
    omega
  by_cases hnorth : 90 ≤ latitude
  · unfold sourceSouthForLatitude
    rw [if_neg hpole, if_pos hnorth]
    exact hsouth
  · have hspec := (sourceSouthForLatitude_spec (not_le.1 hpole)
      (not_le.1 hnorth)).2
    have hless : (south : K)
        < ((sourceSouthForLatitude latitude + 1 : Int) : K) := by
      push_cast
      linarith
    have hless := Int.cast_lt.1 hless
    omega

/-- No latitude up to the northern border lies in a cell farther north. -/
theorem sourceSouthForLatitude_le {south : Int}
    (h : latitude ≤ south + 1 + 1 / 10 ^ 12) (hsouth : -90 ≤ south) :
    sourceSouthForLatitude latitude ≤ south := by
  by_cases hpole : latitude ≤ -90
  · unfold sourceSouthForLatitude
    rw [if_pos hpole]
    exact hsouth
  by_cases hnorth : 90 ≤ latitude
  · have hless : ((88 : Int) : K) < south := by
      push_cast
      linarith
    have hless := Int.cast_lt.1 hless
    unfold sourceSouthForLatitude
    rw [if_neg hpole, if_pos hnorth]
    omega
  · have hspec := (sourceSouthForLatitude_spec (not_le.1 hpole)
      (not_le.1 hnorth)).1
    have hless : (sourceSouthForLatitude latitude : K)
        < ((south + 1 : Int) : K) := by
      push_cast
      linarith
    have hless := Int.cast_lt.1 hless
    omega

/-- A point of a grid lies in the cell of its coordinates. -/
theorem inCell (hsouth : -85 < latitude) (hnorth : latitude < 85)
    (hwest : -180 < longitude) (heast : longitude < 180) :
    InCell (sourceAddressForCoordinate latitude longitude)
      latitude longitude := by
  have hwestDeg : sourceWestForLongitude longitude = ⌊longitude⌋ := by
    unfold sourceWestForLongitude
    rw [if_neg (by linarith), if_neg (by linarith)]
  have hrows := @sourceSouthForLatitude_spec K _ _ _ latitude _
    (by linarith) (by linarith)
  have hfloor := Int.floor_le longitude
  have hnext := Int.lt_floor_add_one longitude
  have hsouthLow : ((-87 : Int) : K) < sourceSouthForLatitude latitude := by
    push_cast
    linarith
  have hsouthHigh : (sourceSouthForLatitude latitude : K)
      < ((85 : Int) : K) := by
    push_cast
    linarith
  have hwestLow : ((-181 : Int) : K) < ⌊longitude⌋ := by
    push_cast
    linarith
  have hwestHigh : (⌊longitude⌋ : K) < ((180 : Int) : K) := by
    push_cast
    linarith
  have hsouthLow := Int.cast_lt.1 hsouthLow
  have hsouthHigh := Int.cast_lt.1 hsouthHigh
  have hwestLow := Int.cast_lt.1 hwestLow
  have hwestHigh := Int.cast_lt.1 hwestHigh
  unfold sourceAddressForCoordinate
  rw [hwestDeg]
  exact
    { south_lt := by linarith [hrows.1]
      le_north := hrows.2
      west_le := hfloor
      lt_east := hnext
      southDeg_ge := Int.add_one_le_iff.2 hsouthLow
      southDeg_le := Int.lt_add_one_iff.1 hsouthHigh
      westDeg_ge := Int.add_one_le_iff.2 hwestLow
      westDeg_le := Int.lt_add_one_iff.1 hwestHigh }

omit [IsStrictOrderedRing K] in
theorem InCell.floor_longitude (h : InCell base latitude longitude) :
    ⌊longitude⌋ = base.westDeg :=
  Int.floor_eq_iff.2 ⟨h.west_le, h.lt_east⟩

end AowisMap.Terrain
