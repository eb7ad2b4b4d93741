/-
The plan of an analysis grid holds every cell that is read for it, and what
that means for a stage that does not use the network.

# Rounds

Each round of the plan only adds cells (`insertCellAddresses_subset`), and
adds those that the centre of its cell reaches (`reaches_inserted`), so at
the end of the rounds the cells of all centres are there.
-/
import AowisMap.Terrain.LocalSources
import AowisMap.Terrain.Proofs.TilePlan

namespace AowisMap.Terrain

open Lib

-- ================================================================ rounds

section

variable {latitude longitude : Rat}
  {addresses inserted : List CopernicusSourceAddress}
  {cell : CopernicusSourceAddress}

theorem mem_insertSourceAddress {address : CopernicusSourceAddress} :
    cell ∈ insertSourceAddress addresses address ↔
      cell = address ∨ cell ∈ addresses :=
  List.mem_insert_iff

theorem mem_ite_insertSourceAddress {wanted : Bool}
    {address : CopernicusSourceAddress} :
    cell ∈ (if wanted then insertSourceAddress addresses address
        else addresses) ↔
      (wanted = true ∧ cell = address) ∨ cell ∈ addresses := by
  cases wanted with
  | true =>
      rw [if_pos rfl, mem_insertSourceAddress]
      simp only [true_and]
  | false =>
      rw [if_neg Bool.false_ne_true]
      simp only [Bool.false_eq_true, false_and, false_or]

/-- A centre the plan gives the eastern neighbours of its cell. -/
def NextToEast (base : CopernicusSourceAddress) (longitude : Rat) : Prop :=
  base.westDeg < 179 ∧
    longitude - base.westDeg ≥ 1 - sourceNeighbourLongitudeMarginDeg

/-- A centre the plan gives the southern neighbours of its cell. -/
def NextToSouth (base : CopernicusSourceAddress) (latitude : Rat) : Prop :=
  base.southDeg > -90 ∧
    latitude - base.southDeg ≤ sourceNeighbourLatitudeMarginDeg

/-- What a round leaves: the addresses before it, the cell of the centre,
and the neighbours next to it. -/
theorem mem_insertCellAddresses
    (h : insertCellAddresses latitude longitude addresses = some inserted)
    {base : CopernicusSourceAddress}
    (hbase : sourceAddressForCoordinate latitude longitude = base) :
    cell ∈ inserted ↔ cell ∈ addresses ∨ cell = base ∨
      (NextToEast base longitude ∧
        cell = ⟨base.southDeg, base.westDeg + 1⟩) ∨
      (NextToSouth base latitude ∧
        cell = ⟨base.southDeg - 1, base.westDeg⟩) ∨
      ((NextToEast base longitude ∧ NextToSouth base latitude) ∧
        cell = ⟨base.southDeg - 1, base.westDeg + 1⟩) := by
  unfold insertCellAddresses at h
  dsimp only at h
  obtain ⟨-, hinserted⟩ := Option.ite_none_left_eq_some.1 h
  rw [← Option.some.inj hinserted, hbase]
  simp only [mem_ite_insertSourceAddress, mem_insertSourceAddress]
  simp only [Bool.and_eq_true, decide_eq_true_eq]
  unfold NextToEast NextToSouth
  tauto

/-- A round adds what its centre reaches. -/
theorem reaches_inserted
    (h : insertCellAddresses latitude longitude addresses = some inserted)
    (hcell : InCell (sourceAddressForCoordinate latitude longitude)
      latitude longitude)
    (hreach : Reaches (sourceAddressForCoordinate latitude longitude)
      latitude longitude cell) : cell ∈ inserted := by
  generalize hbase : sourceAddressForCoordinate latitude longitude = base
    at hcell hreach
  rw [mem_insertCellAddresses h hbase]
  obtain ⟨southDeg, westDeg⟩ := cell
  obtain ⟨hrow, hcolumn⟩ := hreach
  have hlow := hcell.southDeg_ge
  have heast : westDeg = base.westDeg + 1 → NextToEast base longitude := by
    intro hnext
    rcases hcolumn with hsame | ⟨-, hlast, hclose⟩
    · have hsame : westDeg = base.westDeg := hsame
      omega
    · exact ⟨hlast, by linarith⟩
  have hsouth : southDeg = base.southDeg - 1 →
      NextToSouth base latitude := by
    intro hnext
    rcases hrow with hsame | ⟨-, hclose⟩
    · have hsame : southDeg = base.southDeg := hsame
      omega
    · exact ⟨by omega, by linarith⟩
  refine Or.inr ?_
  rcases hrow with rfl | ⟨rfl, -⟩
  · rcases hcolumn with rfl | ⟨rfl, -⟩
    · exact Or.inl rfl
    · exact Or.inr (Or.inl ⟨heast rfl, rfl⟩)
  · rcases hcolumn with rfl | ⟨rfl, -⟩
    · exact Or.inr (Or.inr (Or.inl ⟨hsouth rfl, rfl⟩))
    · exact Or.inr (Or.inr (Or.inr ⟨⟨heast rfl, hsouth rfl⟩, rfl⟩))

end

variable {request : TerrainAnalysisGridRequest}

/-- The rounds keep what is there, and add what their centres reach. -/
theorem rounds_spec {planned : List CopernicusSourceAddress} :
    ∀ {cells : List (Nat × Nat)} {addresses : List CopernicusSourceAddress},
      cells.foldlM (fun addresses cell => insertCellAddresses
        (request.latitude cell.1) (request.longitude cell.2) addresses)
        addresses = some planned →
      (∀ cell ∈ cells, InCell (request.sourceCell cell.1 cell.2)
        (request.latitude cell.1) (request.longitude cell.2)) →
      addresses ⊆ planned ∧ ∀ cell ∈ cells, ∀ reached,
        Reaches (request.sourceCell cell.1 cell.2) (request.latitude cell.1)
          (request.longitude cell.2) reached → reached ∈ planned := by
  intro cells
  induction cells with
  | nil =>
      intro addresses h _
      rw [List.foldlM_nil] at h
      cases h
      exact ⟨List.Subset.refl _, fun cell hmem => absurd hmem
        List.not_mem_nil⟩
  | cons first rest ih =>
      intro addresses h hcells
      rw [List.foldlM_cons] at h
      obtain ⟨inserted, hround, hrest⟩ := Option.bind_eq_some_iff.1 h
      have hfirst := hcells first List.mem_cons_self
      obtain ⟨hkept, hreached⟩ := ih hrest
        fun cell hmem => hcells cell (List.mem_cons_of_mem _ hmem)
      refine ⟨fun cell hcell => hkept
        ((mem_insertCellAddresses hround rfl).2 (Or.inl hcell)), ?_⟩
      intro cell hmem reached hreach
      rcases List.mem_cons.1 hmem with rfl | hlater
      · exact hkept (reaches_inserted hround hfirst hreach)
      · exact hreached cell hlater reached hreach

-- =============================================================== reading

namespace CopernicusRasterSet

variable {load : CopernicusSourceAddress → SourceLoad}
  {planned : List CopernicusSourceAddress}

/-- The loops ask for cells that their centres reach. -/
theorem sampleCells_subset (hsizes : PlannedSizes load) :
    ∀ {cells : List (Nat × Nat)} {rasters : CopernicusRasterSet},
      (∀ cell ∈ cells, InCell (request.sourceCell cell.1 cell.2)
        (request.latitude cell.1) (request.longitude cell.2)) →
      (∀ cell ∈ cells, ∀ reached,
        Reaches (request.sourceCell cell.1 cell.2) (request.latitude cell.1)
          (request.longitude cell.2) reached → reached ∈ planned) →
      rasters.asked ⊆ planned →
      (sampleCells load request rasters cells).2.asked ⊆ planned := by
  intro cells
  induction cells with
  | nil => exact fun _ _ hasked => hasked
  | cons cell rest ih =>
      intro rasters hcells hreached hasked
      obtain ⟨row, column⟩ := cell
      have hsample := sampleNative_subset load hsizes
        (hcells _ List.mem_cons_self).onCell
        (hreached _ List.mem_cons_self) hasked
      unfold sampleCells
      dsimp only at hsample
      generalize rasters.sampleNative load (request.latitude row)
        (request.longitude column) = result at hsample ⊢
      obtain ⟨elevation, rasters'⟩ := result
      dsimp only at hsample ⊢
      split
      · exact hsample
      · exact ih (fun cell hmem => hcells cell (List.mem_cons_of_mem _ hmem))
          (fun cell hmem => hreached cell (List.mem_cons_of_mem _ hmem))
          hsample

/-- Whatever is read for a grid was planned. -/
theorem sampleGrid_subset (hsizes : PlannedSizes load)
    (hvalid : request.valid = true)
    (hplanned : analysisGridSourceAddresses request = some planned) :
    (sampleCells load request {} request.cells).2.asked ⊆ planned := by
  have hcells : ∀ cell ∈ request.cells,
      InCell (request.sourceCell cell.1 cell.2) (request.latitude cell.1)
        (request.longitude cell.2) := by
    intro cell hmem
    obtain ⟨hrow, hcolumn⟩ := mem_cells.1 hmem
    exact centre_inCell hvalid hrow hcolumn
  exact sampleCells_subset hsizes hcells (rounds_spec hplanned hcells).2
    (List.nil_subset _)

end CopernicusRasterSet

end AowisMap.Terrain
