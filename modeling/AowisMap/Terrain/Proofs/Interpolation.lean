/-
`bilinearElevation` is the bilinear interpolation of the samples of a tile.

# All nodes and four of them

The nodes of a tile's grid weigh for a position what the tents of its row
and its column do (`nodeWeight`). The interpolated elevation is the weighted
sum over all nodes that count, and there is one if all of them have a finite
sample (`Interpolates`). The code looks at the four nodes around the
position. Every other node weighs nothing (`Tent.sum_tent`), so the two are
the same (`bilinearElevation_iff`).
-/
import AowisMap.Lib.Tent
import AowisMap.Terrain.Elevation

namespace AowisMap.Terrain

open Lib Tent

-- ======================================================== what is claimed

/-- The nodes of the grid, by row and column. -/
def gridNodes : Finset (Nat × Nat) :=
  Finset.range (terrainTileCellCount + 1)
    ×ˢ Finset.range (terrainTileCellCount + 1)

theorem forall_nodes {rows columns : Finset Nat} {p : Nat × Nat → Prop} :
    (∀ node ∈ rows ×ˢ columns, p node) ↔
      ∀ r ∈ rows, ∀ c ∈ columns, p (r, c) := by
  constructor
  · intro h r hr c hc
    exact h (r, c) (Finset.mem_product.2 ⟨hr, hc⟩)
  · rintro h ⟨r, c⟩ hnode
    obtain ⟨hr, hc⟩ := Finset.mem_product.1 hnode
    exact h r hr c hc

/-- The weight of a node for a position. -/
def nodeWeight (column row : Rat) (node : Nat × Nat) : Rat :=
  tent column node.2 * tent row node.1

/-- The sample of a node. -/
def TerrainTile.sampleAt (tile : TerrainTile) (node : Nat × Nat) :
    FloatValue :=
  tile.elevationsM.getD (node.1 * terrainTileGridSize + node.2) .nan

/-- The height of a sample that is finite. -/
def heightOf : FloatValue → Rat
  | .finite elevationM => elevationM
  | _ => 0

/-- The elevation is the weighted sum of the samples that count, and those
are all finite. -/
structure Interpolates (tile : TerrainTile) (column row elevationM : Rat) :
    Prop where
  samples : tile.elevationsM.length = terrainTileSampleCount
  inColumns : 0 ≤ column ∧ column ≤ terrainTileCellCount
  inRows : 0 ≤ row ∧ row ≤ terrainTileCellCount
  finite : ∀ node ∈ gridNodes, epsilon < nodeWeight column row node →
    ∃ sampleM, tile.sampleAt node = .finite sampleM
  value : elevationM = ∑ node ∈ gridNodes with
      epsilon < nodeWeight column row node,
    nodeWeight column row node * heightOf (tile.sampleAt node)

-- =========================================================== the summation

/-- What a weighted sample asks for. -/
def CountsFinite (weight : Rat) (sample : FloatValue) : Prop :=
  epsilon < weight → ∃ sampleM, sample = .finite sampleM

/-- What it adds. -/
def contribution (weight : Rat) (sample : FloatValue) : Rat :=
  if epsilon < weight then weight * heightOf sample else 0

theorem countsFinite_zero (sample : FloatValue) : CountsFinite 0 sample :=
  fun hpositive => absurd hpositive (by unfold epsilon; norm_num)

theorem contribution_zero (sample : FloatValue) :
    contribution 0 sample = 0 := if_neg (by unfold epsilon; norm_num)

/-- One sample is added, or undoes the sum. -/
theorem addWeighted_some {start sum weight : Rat} {sample : FloatValue} :
    addWeighted (some start) (weight, sample) = some sum ↔
      CountsFinite weight sample ∧ sum = start + contribution weight sample := by
  unfold addWeighted CountsFinite contribution
  by_cases hweight : weight ≤ epsilon
  · rw [if_pos hweight, if_neg (not_lt.2 hweight), add_zero, Option.some.injEq]
    exact ⟨fun h => ⟨fun hlt => absurd hlt (not_lt.2 hweight), h.symm⟩,
      fun h => h.2.symm⟩
  · rw [if_neg hweight, if_pos (not_le.1 hweight)]
    cases sample with
    | finite sampleM =>
        show some (start + weight * sampleM) = some sum ↔ _
        rw [Option.some.injEq]
        exact ⟨fun h => ⟨fun _ => ⟨sampleM, rfl⟩, h.symm⟩, fun h => h.2.symm⟩
    | nan =>
        refine iff_of_false nofun fun h => ?_
        obtain ⟨_, hnone⟩ := h.1 (not_le.1 hweight)
        cases hnone
    | infinity negative =>
        refine iff_of_false nofun fun h => ?_
        obtain ⟨_, hnone⟩ := h.1 (not_le.1 hweight)
        cases hnone

/-- The loop over the samples. -/
theorem foldl_addWeighted {items : List (Rat × FloatValue)}
    {start sum : Rat} :
    items.foldl addWeighted (some start) = some sum ↔
      (∀ item ∈ items, CountsFinite item.1 item.2) ∧
        sum = start + (items.map fun item =>
          contribution item.1 item.2).sum := by
  have hnone : ∀ items : List (Rat × FloatValue),
      items.foldl addWeighted none = none := by
    intro items
    induction items with
    | nil => rfl
    | cons item items ih =>
        have hstep : addWeighted none item = none := by
          unfold addWeighted
          exact ite_self none
        rw [List.foldl_cons, hstep]
        exact ih
  induction items generalizing start with
  | nil =>
      simp only [List.foldl_nil, List.not_mem_nil, List.map_nil,
        List.sum_nil, add_zero, Option.some.injEq]
      exact ⟨fun h => ⟨nofun, h.symm⟩, fun h => h.2.symm⟩
  | cons item items ih =>
      rw [List.foldl_cons]
      cases hstep : addWeighted (some start) item with
      | none =>
          rw [hnone]
          refine iff_of_false nofun fun h => ?_
          have hsome : addWeighted (some start) (item.1, item.2)
              = some (start + contribution item.1 item.2) :=
            addWeighted_some.2 ⟨h.1 item List.mem_cons_self, rfl⟩
          rw [hstep] at hsome
          cases hsome
      | some next =>
          obtain ⟨hfinite, rfl⟩ := addWeighted_some.1 hstep
          refine ih.trans ?_
          rw [List.forall_mem_cons, List.map_cons, List.sum_cons, ← add_assoc]
          exact ⟨fun h => ⟨⟨hfinite, h.1⟩, h.2⟩, fun h => ⟨h.1.2, h.2⟩⟩

-- ============================================================== four nodes

section

variable (tile : TerrainTile) {column row : Rat}
  (hcolumn : 0 ≤ column ∧ column ≤ terrainTileCellCount)
  (hrow : 0 ≤ row ∧ row ≤ terrainTileCellCount)

/-- The samples the code looks at, with their weights. -/
def cornerSamples (column row : Rat) : List (Rat × FloatValue) :=
  let column0 := below column terrainTileCellCount
  let column1 := above column terrainTileCellCount
  let row0 := below row terrainTileCellCount
  let row1 := above row terrainTileCellCount
  let columnFraction := fraction column terrainTileCellCount
  let rowFraction := fraction row terrainTileCellCount
  [((1 - columnFraction) * (1 - rowFraction), tile.sampleAt (row0, column0)),
    (columnFraction * (1 - rowFraction), tile.sampleAt (row0, column1)),
    ((1 - columnFraction) * rowFraction, tile.sampleAt (row1, column0)),
    (columnFraction * rowFraction, tile.sampleAt (row1, column1))]

include hcolumn hrow in
/-- All nodes that count are finite exactly if the corners are. -/
theorem finite_corners :
    (∀ node ∈ gridNodes, CountsFinite (nodeWeight column row node)
      (tile.sampleAt node)) ↔
      ∀ item ∈ cornerSamples tile column row,
        CountsFinite item.1 item.2 := by
  have hinner : ∀ (weight : Rat) (r : Nat),
      (∀ c ∈ Finset.range (terrainTileCellCount + 1),
        CountsFinite (tent column c * weight) (tile.sampleAt (r, c))) ↔ _ :=
    fun weight r => forall_tent hcolumn.1 hcolumn.2
      (p := fun w c => CountsFinite (w * weight) (tile.sampleAt (r, c)))
      fun c => by rw [zero_mul]; exact countsFinite_zero _
  have houter := forall_tent hrow.1 hrow.2
    (p := fun w r => ∀ c ∈ Finset.range (terrainTileCellCount + 1),
      CountsFinite (tent column c * w) (tile.sampleAt (r, c)))
    fun r c _ => by rw [mul_zero]; exact countsFinite_zero _
  rw [gridNodes, forall_nodes]
  refine houter.trans ?_
  rw [hinner, hinner]
  simp only [cornerSamples, List.forall_mem_cons, List.not_mem_nil,
    false_imp_iff, implies_true, and_true, and_assoc]

include hcolumn hrow in
/-- And their sum is that of the corners. -/
theorem sum_corners :
    (∑ node ∈ gridNodes with epsilon < nodeWeight column row node,
        nodeWeight column row node * heightOf (tile.sampleAt node))
      = ((cornerSamples tile column row).map fun item =>
        contribution item.1 item.2).sum := by
  have hinner : ∀ (weight : Rat) (r : Nat),
      ∑ c ∈ Finset.range (terrainTileCellCount + 1),
        contribution (tent column c * weight) (tile.sampleAt (r, c)) = _ :=
    fun weight r => sum_tent hcolumn.1 hcolumn.2
      (f := fun w c => contribution (w * weight) (tile.sampleAt (r, c)))
      fun c => by rw [zero_mul]; exact contribution_zero _
  have houter := sum_tent hrow.1 hrow.2
    (f := fun w r => ∑ c ∈ Finset.range (terrainTileCellCount + 1),
      contribution (tent column c * w) (tile.sampleAt (r, c)))
    fun r => Finset.sum_eq_zero fun c _ => by
      rw [mul_zero]
      exact contribution_zero _
  rw [Finset.sum_filter, gridNodes, Finset.sum_product]
  refine Eq.trans houter ?_
  rw [hinner, hinner]
  simp only [cornerSamples, List.map_cons, List.map_nil, List.sum_cons,
    List.sum_nil, add_zero, add_assoc]

end

/-- **The bilinear elevation of a tile.** -/
theorem bilinearElevation_iff {tile : TerrainTile}
    {column row elevationM : Rat} :
    bilinearElevation tile column row = some elevationM ↔
      Interpolates tile column row elevationM := by
  unfold bilinearElevation
  by_cases hguard : tile.elevationsM.length ≠ terrainTileSampleCount ∨
      column < 0 ∨ column > terrainTileCellCount ∨
      row < 0 ∨ row > terrainTileCellCount
  · rw [if_pos hguard]
    refine iff_of_false nofun fun h => ?_
    rcases hguard with hsamples | hcolumn | hcolumn | hrow | hrow
    · exact hsamples h.samples
    · exact absurd h.inColumns.1 (not_le.2 hcolumn)
    · exact absurd h.inColumns.2 (not_le.2 hcolumn)
    · exact absurd h.inRows.1 (not_le.2 hrow)
    · exact absurd h.inRows.2 (not_le.2 hrow)
  rw [if_neg hguard]
  simp only [not_or, not_lt, ne_eq, not_not, gt_iff_lt] at hguard
  obtain ⟨hsamples, hcolumn0, hcolumn, hrow0, hrow⟩ := hguard
  show (cornerSamples tile column row).foldl addWeighted (some 0)
    = some elevationM ↔ _
  rw [foldl_addWeighted, zero_add,
    ← finite_corners tile ⟨hcolumn0, hcolumn⟩ ⟨hrow0, hrow⟩,
    ← sum_corners tile ⟨hcolumn0, hcolumn⟩ ⟨hrow0, hrow⟩]
  exact ⟨fun h => ⟨hsamples, ⟨hcolumn0, hcolumn⟩, ⟨hrow0, hrow⟩, h.1, h.2⟩,
    fun h => ⟨h.finite, h.value⟩⟩

end AowisMap.Terrain
