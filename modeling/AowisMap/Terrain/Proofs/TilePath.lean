/-
The paths of normalized tiles: one for each tile, all of them in the
store.

# The template

No value that is put in holds a percent sign, so the places are filled
from the left (`filledTemplate_eq`), and none holds a separator, so the
path has the components of the template (`tileParts`). A dataset
identifier begins with a letter or a digit: it is no step back.
-/
import AowisMap.Terrain.Proofs.TileStore
import AowisMap.Terrain.TilePath

namespace AowisMap.Terrain

open Lib

variable {dataset : String} {address : TerrainTileAddress}

-- ============================================================ components

/-- The characters of a dataset identifier. -/
theorem datasetId_chars (h : isValidTerrainDatasetId dataset = true)
    {c : Char} (hc : c ∈ dataset.toList) :
    c ≠ '%' ∧ c ≠ '/' := by
  simp only [isValidTerrainDatasetId, Bool.and_eq_true,
    decide_eq_true_eq] at h
  constructor
  · rintro rfl
    have hbyte := List.all_eq_true.1 h.1.2 37
      (List.mem_flatMap.2 ⟨'%', hc, by decide⟩)
    exact absurd hbyte (by decide)
  · rintro rfl
    have hbyte := List.all_eq_true.1 h.1.2 47
      (List.mem_flatMap.2 ⟨'/', hc, by decide⟩)
    exact absurd hbyte (by decide)

/-- A dataset identifier begins with no dot. -/
theorem datasetId_head (h : isValidTerrainDatasetId dataset = true)
    {rest : List Char} : dataset.toList ≠ '.' :: rest := by
  intro hdot
  simp only [isValidTerrainDatasetId, Bool.and_eq_true] at h
  have hfirst := h.2
  have hhead : (Utf8.toUtf8 ('.' :: rest)).head? = some 46 := rfl
  rw [hdot, hhead] at hfirst
  exact absurd hfirst (by decide)

theorem datasetId_ne_nil (h : isValidTerrainDatasetId dataset = true) :
    dataset.toList ≠ [] := by
  intro hempty
  simp only [isValidTerrainDatasetId, Bool.and_eq_true] at h
  have hfirst := h.2
  rw [hempty] at hfirst
  exact absurd hfirst (by decide)

/-- The components of a path. -/
def tileParts (dataset : String) (address : TerrainTileAddress) :
    List (List Char) :=
  ['v' :: QString.number terrainTileFormatVersion,
    'r' :: QString.number TileStore.terrainNormalizationRevision,
    dataset.toList, QString.number address.zoom, QString.number address.x,
    QString.number address.y
      ++ '.' :: TileStore.terrainTileFileExtension.toList]

/-- What holds no separator and begins with no dot is a plain component. -/
theorem plain_of_head {part : List Char} (hsome : part ≠ [])
    (hdot : ∀ rest, part ≠ '.' :: rest) (hslash : '/' ∉ part) :
    Path.Plain part :=
  ⟨hsome, hdot [], hdot ['.'], hslash⟩

theorem plain_number (n : Int) : Path.Plain (QString.number n) := by
  have hmem (c : Char) (hminus : c ≠ '-') (hdigit : c.isDigit = false) :
      c ∉ QString.number n := QString.not_mem_number hminus hdigit n
  refine plain_of_head (QString.number_ne_nil n) ?_ (hmem '/' (by decide) rfl)
  intro rest hdot
  apply hmem '.' (by decide) rfl
  rw [hdot]
  exact List.mem_cons_self

theorem plain_tileParts (h : isValidTerrainDatasetId dataset = true) :
    ∀ part ∈ tileParts dataset address, Path.Plain part := by
  have hnumber (n : Int) : '/' ∉ QString.number n :=
    QString.not_mem_number (by decide) rfl n
  have hfile (n : Int) : Path.Plain (QString.number n
      ++ '.' :: TileStore.terrainTileFileExtension.toList) := by
    have hplain := plain_number n
    refine plain_of_head (List.append_ne_nil_of_left_ne_nil hplain.ne_nil _)
      ?_ ?_
    · intro rest hdot
      obtain ⟨c, cs, hcons⟩ := List.exists_cons_of_ne_nil hplain.ne_nil
      rw [hcons] at hdot
      have hmem : '.' ∈ QString.number n := by
        rw [hcons, (List.cons.inj hdot).1]
        exact List.mem_cons_self
      exact QString.not_mem_number (by decide) rfl n hmem
    · rw [List.mem_append, not_or]
      exact ⟨hnumber n, by decide⟩
  unfold tileParts
  simp only [List.forall_mem_cons]
  refine ⟨?_, ?_, ?_, plain_number _, plain_number _, hfile _, ?_⟩
  · exact plain_of_head (List.cons_ne_nil _ _)
      (fun _ heq => absurd (List.cons.inj heq).1 (by decide)) (by decide)
  · exact plain_of_head (List.cons_ne_nil _ _)
      (fun _ heq => absurd (List.cons.inj heq).1 (by decide)) (by decide)
  · exact plain_of_head (datasetId_ne_nil h) (fun _ => datasetId_head h)
      fun hslash => (datasetId_chars h hslash).2 rfl
  · exact fun part hpart => absurd hpart List.not_mem_nil

-- ============================================================== template

/-- The filled template, its components one after the other. -/
theorem filledTemplate_eq (h : isValidTerrainDatasetId dataset = true) :
    filledTemplate dataset address
      = ['/'].intercalate (tileParts dataset address) := by
  have hnumber (n : Int) : '%' ∉ QString.number n :=
    QString.not_mem_number (by decide) rfl n
  have hdataset : '%' ∉ dataset.toList :=
    fun hmem => (datasetId_chars h hmem).1 rfl
  -- each `arg` fills the first place behind what is already filled
  have h2 : QString.arg (QString.arg tilePathTemplate
        (QString.number terrainTileFormatVersion))
        (QString.number TileStore.terrainNormalizationRevision)
      = "v1/r2/".toList ++ "%3/%4/%5/%6.%7".toList := by decide
  have h3 (value : List Char) : QString.arg "%3/%4/%5/%6.%7".toList value
      = value ++ '/' :: "%4/%5/%6.%7".toList := rfl
  have h4 (value : List Char) : QString.arg ('/' :: "%4/%5/%6.%7".toList)
      value = '/' :: (value ++ '/' :: "%5/%6.%7".toList) := rfl
  have h5 (value : List Char) : QString.arg ('/' :: "%5/%6.%7".toList)
      value = '/' :: (value ++ '/' :: "%6.%7".toList) := rfl
  have h6 (value : List Char) : QString.arg ('/' :: "%6.%7".toList) value
      = '/' :: (value ++ '.' :: "%7".toList) := rfl
  have h7 (value : List Char) : QString.arg ('.' :: "%7".toList) value
      = '.' :: (value ++ []) := rfl
  have hbehind (c : Char) (before value rest : List Char) :
      before ++ c :: (value ++ rest) = (before ++ c :: value) ++ rest := by
    rw [List.append_assoc, List.cons_append]
  have hclear {before value : List Char} (hbefore : '%' ∉ before)
      (hvalue : '%' ∉ value) : '%' ∉ before ++ '/' :: value := by
    rw [List.mem_append, List.mem_cons, not_or, not_or]
    exact ⟨hbefore, by decide, hvalue⟩
  have hp3 : '%' ∉ "v1/r2/".toList ++ dataset.toList := by
    rw [List.mem_append, not_or]
    exact ⟨by decide, hdataset⟩
  have hp4 := hclear hp3 (hnumber address.zoom)
  have hp5 := hclear hp4 (hnumber address.x)
  have hp6 := hclear hp5 (hnumber address.y)
  unfold filledTemplate
  simp only [List.foldl_cons, List.foldl_nil]
  rw [h2, QString.arg_append (by decide), h3, ← List.append_assoc,
    QString.arg_append hp3, h4, hbehind, QString.arg_append hp4, h5, hbehind,
    QString.arg_append hp5, h6, hbehind, QString.arg_append hp6, h7,
    List.append_nil]
  unfold tileParts
  simp only [List.intercalate_cons_cons, List.intercalate_singleton,
    List.append_assoc, List.cons_append, List.nil_append]
  rfl

/-- The path of a valid tile, by its components. -/
theorem path_eq (hdataset : isValidTerrainDatasetId dataset = true)
    (haddress : isValidTerrainTileAddress address = true) :
    (normalizedTerrainTileRelativePath dataset address).toList
      = ['/'].intercalate (tileParts dataset address) := by
  unfold normalizedTerrainTileRelativePath
  rw [if_neg (by simp [hdataset, haddress]), String.toList_ofList,
    filledTemplate_eq hdataset,
    Path.cleanPath_plain (plain_tileParts hdataset) (List.cons_ne_nil _ _)]

/-- The components the store writes out are the path the template makes. -/
theorem tileStore_path (key : TileStore.TileKey) :
    TileStore.tileRelativePath key
      = normalizedTerrainTileRelativePath key.dataset key.address := by
  by_cases h : isValidTerrainDatasetId key.dataset = false ∨
      isValidTerrainTileAddress key.address = false
  · unfold TileStore.tileRelativePath
      normalizedTerrainTileRelativePath
    rw [if_pos h, if_pos h]
  · have hvalid := h
    rw [not_or, Bool.not_eq_false, Bool.not_eq_false] at hvalid
    apply String.toList_inj.1
    rw [path_eq hvalid.1 hvalid.2]
    unfold TileStore.tileRelativePath tileParts
    rw [if_neg h, String.toList_ofList]
    simp only [List.intercalate_cons_cons, List.intercalate_singleton,
      List.append_assoc, List.cons_append, List.nil_append]

/-- **Tile paths are confined and one to one**: the path of a valid tile
has six components, none of them empty or a step on the spot or back, and
is clean, so that it lies below whatever directory it is put behind; tiles
of one path are one tile; and what is not valid has no path. -/
theorem normalizedPath_confined :
    (∀ (dataset : String) (address : TerrainTileAddress),
      isValidTerrainDatasetId dataset = true →
      isValidTerrainTileAddress address = true →
      let path := (normalizedTerrainTileRelativePath dataset address).toList
      (Path.components path).length = 6 ∧
        (∀ part ∈ Path.components path,
          part ≠ [] ∧ part ≠ ['.'] ∧ part ≠ ['.', '.']) ∧
        Path.cleanPath path = path ∧
        ∀ absolute root,
          Path.cleanComponents absolute (root ++ '/' :: path)
            = Path.cleanComponents absolute root ++ Path.components path) ∧
    (∀ (dataset dataset' : String) (address address' : TerrainTileAddress),
      isValidTerrainDatasetId dataset = true →
      isValidTerrainTileAddress address = true →
      isValidTerrainDatasetId dataset' = true →
      isValidTerrainTileAddress address' = true →
      normalizedTerrainTileRelativePath dataset address
        = normalizedTerrainTileRelativePath dataset' address' →
      dataset = dataset' ∧ address = address') ∧
    ∀ (dataset : String) (address : TerrainTileAddress),
      isValidTerrainDatasetId dataset = false ∨
        isValidTerrainTileAddress address = false →
      normalizedTerrainTileRelativePath dataset address = "" := by
  refine ⟨?_, ?_, ?_⟩
  · intro dataset address hdataset haddress
    have hplain : ∀ part ∈ tileParts dataset address, Path.Plain part :=
      plain_tileParts hdataset
    have hsome : tileParts dataset address ≠ [] := List.cons_ne_nil _ _
    simp only [path_eq hdataset haddress]
    rw [Path.components_intercalate hplain hsome]
    refine ⟨rfl, fun part hpart => ?_, Path.cleanPath_plain hplain hsome,
      Path.cleanComponents_append hplain hsome⟩
    have hpart := hplain part hpart
    exact ⟨hpart.ne_nil, hpart.ne_dot, hpart.ne_dots⟩
  · intro dataset dataset' address address' hdataset haddress hdataset'
      haddress' h
    have hsame : TileStore.tileRelativePath
          ⟨dataset, address⟩
        = TileStore.tileRelativePath
          ⟨dataset', address'⟩ := by
      rw [tileStore_path, tileStore_path]
      exact h
    have hkey := @TileStore.tileRelativePath_inj
      ⟨dataset, address⟩ ⟨dataset', address'⟩ ⟨hdataset, haddress⟩
      ⟨hdataset', haddress'⟩ hsame
    exact ⟨congrArg TileStore.TileKey.dataset hkey,
      congrArg TileStore.TileKey.address hkey⟩
  · intro dataset address h
    unfold normalizedTerrainTileRelativePath
    rw [if_pos h]

end AowisMap.Terrain
