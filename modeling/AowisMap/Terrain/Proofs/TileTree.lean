/-
What a lookup leaves of the normalized store: a miss leaves the tile's
directory and nothing else.

# Frames

A call changes at most the file of its tile, the directories on the way
to it and its lock file (`terrainTile_frame`). One that finds no tile
changes no file, gives its lock back and leaves the directory it made for
it (`terrainTile_miss`). The walk of an elevation is one call a zoom, so
it leaves the directories of the tiles it tried.

# The machine

The call is a run of the machine of the tile store in which nobody else
acts: it returns the same and leaves the same files
(`terrainTile_returns`).
-/
import AowisMap.Terrain.TileTree
import AowisMap.Terrain.Proofs.Elevation
import AowisMap.Terrain.Proofs.TileStore

namespace AowisMap.Terrain.TileStore

open Lib

variable {config : Config} {fates : CallFates} {key : TileKey}
  {allowRemoteFetch : Bool} {tree : NormalizedTree}

-- =========================================================== directories

/-- The directories above another one are its beginnings. -/
theorem mem_upwards {above directory : Directory} :
    above ∈ upwards directory ↔ above ≠ [] ∧ above <+: directory := by
  unfold upwards
  rw [List.mem_toFinset, List.mem_filter, List.mem_inits]
  constructor
  · rintro ⟨hbeginning, hnil⟩
    refine ⟨?_, hbeginning⟩
    rintro rfl
    cases hnil
  · rintro ⟨hnil, hbeginning⟩
    refine ⟨hbeginning, ?_⟩
    cases above with
    | nil => exact absurd rfl hnil
    | cons name rest => rfl

/-- What lies above a directory on the way lies on the way. -/
theorem upwards_take (directory : Directory) (made : Nat) :
    upwards (directory.take made) ⊆ upwards directory := by
  intro above hmem
  obtain ⟨hnil, hbeginning⟩ := mem_upwards.1 hmem
  exact mem_upwards.2 ⟨hnil, hbeginning.trans (List.take_prefix _ _)⟩

-- ================================================================= frames

/-- What a call may change: directories on the way to its tile appear, the
file of its tile changes, and no lock file is added. -/
structure Frame (key : TileKey) (before after : NormalizedTree) : Prop where
  kept : before.directories ⊆ after.directories
  added : after.directories ⊆ before.directories ∪ upwards key.directory
  files : ∀ other, other ≠ key → after.files other = before.files other
  lockFiles : after.lockFiles ⊆ before.lockFiles

/-- What a call without a tile changes: its tile's directory appears, with
those on the way, and its lock file is gone. -/
structure Miss (key : TileKey) (before after : NormalizedTree) : Prop where
  directories : after.directories =
    if key.directory ∈ before.directories then before.directories
    else before.directories ∪ upwards key.directory
  files : after.files = before.files
  lockFiles : after.lockFiles = before.lockFiles.erase key

/-- A call that touches nothing. -/
theorem Frame.refl (key : TileKey) (tree : NormalizedTree) :
    Frame key tree tree where
  kept := subset_rfl
  added := Finset.subset_union_left
  files _ _ := rfl
  lockFiles := subset_rfl

/-- The directory of a call. -/
theorem ensure_frame (fate : DirectoryFate) (tree : NormalizedTree) :
    Frame key tree
      (ensureNormalizedTileDirectory config key.directory fate tree).2 := by
  unfold ensureNormalizedTileDirectory
  by_cases hmem : key.directory ∈ tree.directories
  · rw [if_pos hmem]
    exact Frame.refl key tree
  · rw [if_neg hmem]
    cases fate with
    | notDirectory => exact Frame.refl key tree
    | created =>
      exact ⟨Finset.subset_union_left, subset_rfl, fun _ _ => rfl, subset_rfl⟩
    | failed made =>
      refine ⟨Finset.subset_union_left, ?_, fun _ _ => rfl, subset_rfl⟩
      exact Finset.union_subset_union_right (upwards_take _ _)

variable (config key) in
/-- Making the directory of a tile writes no file, -/
theorem ensure_files (fate : DirectoryFate) (tree : NormalizedTree) :
    (ensureNormalizedTileDirectory config key.directory fate tree).2.files
      = tree.files := by
  unfold ensureNormalizedTileDirectory
  by_cases hmem : key.directory ∈ tree.directories
  · rw [if_pos hmem]
  · rw [if_neg hmem]
    cases fate with
    | notDirectory => rfl
    | created => rfl
    | failed made => rfl

variable (config key) in
/-- and takes no lock. -/
theorem ensure_lockFiles (fate : DirectoryFate) (tree : NormalizedTree) :
    (ensureNormalizedTileDirectory config key.directory fate tree).2.lockFiles
      = tree.lockFiles := by
  unfold ensureNormalizedTileDirectory
  by_cases hmem : key.directory ∈ tree.directories
  · rw [if_pos hmem]
  · rw [if_neg hmem]
    cases fate with
    | notDirectory => rfl
    | created => rfl
    | failed made => rfl

/-- A directory that was ensured is there, and nothing else is new. -/
theorem ensure_none {fate : DirectoryFate} {tree tree' : NormalizedTree}
    (h : ensureNormalizedTileDirectory config key.directory fate tree
      = (none, tree')) :
    tree'.directories =
      if key.directory ∈ tree.directories then tree.directories
      else tree.directories ∪ upwards key.directory := by
  unfold ensureNormalizedTileDirectory at h
  by_cases hmem : key.directory ∈ tree.directories
  · rw [if_pos hmem] at h
    rw [if_pos hmem]
    cases h
    rfl
  · rw [if_neg hmem] at h
    rw [if_neg hmem]
    cases fate with
    | notDirectory => cases h
    | created =>
      cases h
      rfl
    | failed made => cases h

/-- The replacement of the file and the answer. -/
theorem storePhase_frame (tree : NormalizedTree) (phase : Phase) :
    Frame key tree (storePhase config fates key tree phase).2 := by
  cases phase with
  | storing corrupt encoded origin =>
    have hframe : Frame key tree (ensureNormalizedTileDirectory config
        key.directory fates.directory tree).2 := ensure_frame _ _
    unfold storePhase
    dsimp only
    generalize ensureNormalizedTileDirectory config key.directory
      fates.directory tree = ensured at hframe
    obtain ⟨errorMessage, made⟩ := ensured
    cases errorMessage with
    | some errorMessage => exact hframe
    | none =>
      dsimp only
      cases fates.store.failure config key with
      | some result => exact hframe
      | none =>
        refine ⟨hframe.kept, hframe.added, fun other hother => ?_,
          hframe.lockFiles⟩
        have hsame : (made.setFile key (.readable encoded)).files other
            = made.files other := Function.update_of_ne hother _ _
        rw [hsame]
        exact hframe.files other hother
  | starting => exact Frame.refl key tree
  | locking corrupt => exact Frame.refl key tree
  | locked corrupt => exact Frame.refl key tree
  | fetching corrupt rest datasetSupported addressSupported =>
    exact Frame.refl key tree
  | returning result => exact Frame.refl key tree
  | returned result => exact Frame.refl key tree
  | died => exact Frame.refl key tree

/-- Under the lock only the tile of the call is written. -/
theorem lockedTile_frame (initial : Option TerrainTileLookupResult)
    (tree : NormalizedTree) :
    Frame key tree
      (lockedTile config fates key allowRemoteFetch initial tree).2 := by
  unfold lockedTile
  dsimp only
  by_cases hsettles :
      settles (readNormalizedTile config key (tree.files key)) = true
  · rw [if_pos hsettles]
    exact Frame.refl key tree
  · rw [if_neg hsettles]
    exact storePhase_frame tree _

/-- The directory of the tile and its lock file are all else that a call
touches. -/
theorem startedTile_frame (tree : NormalizedTree) :
    Frame key tree (startedTile config fates key allowRemoteFetch tree).2 := by
  have hensured : Frame key tree (ensureNormalizedTileDirectory config
      key.directory fates.directory tree).2 := ensure_frame _ _
  unfold startedTile
  dsimp only
  by_cases hsettles :
      settles (readNormalizedTile config key (tree.files key)) = true
  · rw [if_pos hsettles]
    exact Frame.refl key tree
  · rw [if_neg hsettles]
    generalize ensureNormalizedTileDirectory config key.directory
      fates.directory tree = ensured at hensured
    obtain ⟨errorMessage, made⟩ := ensured
    cases errorMessage with
    | some errorMessage => exact hensured
    | none =>
      dsimp only
      cases fates.lockTimesOut with
      | true => exact hensured
      | false =>
        have hlocked : Frame key (made.lock key)
            (lockedTile config fates key allowRemoteFetch
              (corruptOf (readNormalizedTile config key (tree.files key)))
              (made.lock key)).2 := lockedTile_frame _ _
        refine ⟨hensured.kept.trans hlocked.kept, ?_, ?_, ?_⟩
        · -- What the call adds under the lock lies on the same way.
          refine hlocked.added.trans (Finset.union_subset hensured.added ?_)
          exact Finset.subset_union_right
        · intro other hother
          exact (hlocked.files other hother).trans (hensured.files other hother)
        · intro other hmem
          have hother := Finset.mem_erase.1 hmem
          have hinserted := hlocked.lockFiles hother.2
          exact hensured.lockFiles
            ((Finset.mem_insert.1 hinserted).resolve_left hother.1)

/-- A call that is not started answers with what is wrong with it. -/
theorem checkedPhase_cases (config : Config) (key : TileKey) :
    (checkedPhase config key = .starting ∧ Admitted config key) ∨
      ∃ result, checkedPhase config key = .returning result ∧
        result.status ≠ .tileUnavailable := by
  have hinv := checkedPhase_inv config key
  unfold checkedPhase at hinv ⊢
  split_ifs at hinv ⊢ with henabled hinitialized hdataset haddress
  · exact Or.inr ⟨_, rfl, by simp⟩
  · exact Or.inr ⟨_, rfl, by simp⟩
  · exact Or.inr ⟨_, rfl, by simp⟩
  · exact Or.inr ⟨_, rfl, by simp⟩
  · exact Or.inl ⟨rfl, hinv⟩

/-- A call that passes the checks starts. -/
theorem terrainTile_started (h : checkedPhase config key = .starting)
    (tree : NormalizedTree) :
    terrainTile config fates key allowRemoteFetch tree
      = startedTile config fates key allowRemoteFetch tree := by
  unfold terrainTile
  rw [h]

/-- A call that does not returns at once. -/
theorem terrainTile_returning {result : TerrainTileLookupResult}
    (h : checkedPhase config key = .returning result) (tree : NormalizedTree) :
    terrainTile config fates key allowRemoteFetch tree = (result, tree) := by
  unfold terrainTile
  rw [h]

/-- What any call changes. -/
theorem terrainTile_frame (tree : NormalizedTree) :
    Frame key tree (terrainTile config fates key allowRemoteFetch tree).2 := by
  rcases checkedPhase_cases config key with ⟨hstarting, -⟩ | ⟨result, hresult, -⟩
  · rw [terrainTile_started hstarting]
    exact startedTile_frame tree
  · rw [terrainTile_returning hresult]
    exact Frame.refl key tree

-- ================================================================ misses

/-- A repair that failed for another reason is no miss. -/
theorem unrepaired_available {corrupt : Option TerrainTileLookupResult}
    {fetched : TerrainTileLookupResult} (hcorrupt : Corrupt corrupt)
    (hfetched : fetched.status ≠ .tileUnavailable) :
    (unrepaired corrupt fetched).status ≠ .tileUnavailable := by
  cases corrupt with
  | none => exact hfetched
  | some result =>
    have hstatus : (unrepaired (some result) fetched).status
        = result.status := by
      unfold unrepaired
      dsimp only
      by_cases hmessage : fetched.errorMessage = ""
      · rw [if_pos hmessage]
      · rw [if_neg hmessage]
    rw [hstatus, hcorrupt result rfl]
    simp

/-- What is known of a call that asked its providers. -/
theorem fetchPhase_inv (call : Call) {corrupt : Option TerrainTileLookupResult}
    (sampling : Bool → Sampling) (hadmitted : Admitted config call.key)
    (hcorrupt : Corrupt corrupt) :
    ∀ (providers : List TerrainProvider)
      (datasetSupported addressSupported : Bool),
      PhaseInv config call.key (fetchPhase config call corrupt sampling
        providers datasetSupported addressSupported) := by
  intro providers
  induction providers with
  | nil =>
    intro datasetSupported addressSupported hready
    refine absurd hready (unrepaired_status hcorrupt ?_)
    rw [exhausted_status]
    simp
  | cons provider rest ih =>
    intro datasetSupported addressSupported
    have hfetched := afterFetch_inv hadmitted hcorrupt provider rest
      (sampling (call.allows config))
    unfold fetchPhase
    by_cases hdataset : provider.supportsDataset call.key.dataset = false
    · rw [if_pos hdataset]
      exact ih _ _
    · rw [if_neg hdataset]
      by_cases haddress : provider.supportsAddress call.key = false
      · rw [if_pos haddress]
        exact ih _ _
      · rw [if_neg haddress]
        generalize afterFetch corrupt provider rest (provider.fetchTile call.key
          (sampling (call.allows config))) = phase at hfetched
        cases phase with
        | fetching => exact ih _ _
        | starting => exact hfetched
        | locking => exact hfetched
        | locked => exact hfetched
        | storing => exact hfetched
        | returning => exact hfetched
        | returned => exact hfetched
        | died => exact hfetched

/-- A tile that could not be stored is a read error. -/
theorem failure_status {outcome : StoreOutcome}
    {result : TerrainTileLookupResult}
    (h : outcome.failure config key = some result) :
    result.status = .tileReadError := by
  cases outcome with
  | committed => cases h
  | directoryFailed errorMessage =>
    cases h
    rfl
  | notOpened errorString =>
    cases h
    rfl
  | notWritten errorString =>
    cases h
    rfl
  | notCommitted errorString =>
    cases h
    rfl

/-- A miss stores nothing. -/
theorem storePhase_miss {phase : Phase} (hphase : PhaseInv config key phase)
    (h : (storePhase config fates key tree phase).1.status
      = .tileUnavailable) :
    (storePhase config fates key tree phase).2 = tree := by
  cases phase with
  | storing corrupt encoded origin =>
    obtain ⟨-, hcorrupt, -⟩ := hphase
    exfalso
    revert h
    unfold storePhase
    dsimp only
    generalize ensureNormalizedTileDirectory config key.directory
      fates.directory tree = ensured
    obtain ⟨errorMessage, made⟩ := ensured
    cases errorMessage with
    | some errorMessage =>
      exact unrepaired_available hcorrupt (by simp)
    | none =>
      dsimp only
      cases hfailure : fates.store.failure config key with
      | some result =>
        refine unrepaired_available hcorrupt ?_
        rw [failure_status hfailure]
        simp
      | none =>
        intro hready
        cases hready
  | starting => rfl
  | locking corrupt => rfl
  | locked corrupt => rfl
  | fetching corrupt rest datasetSupported addressSupported => rfl
  | returning result => rfl
  | returned result => rfl
  | died => rfl

/-- A read that settles a call is no miss. -/
theorem settles_available {result : TerrainTileLookupResult}
    (h : settles result = true) : result.status ≠ .tileUnavailable := by
  intro hstatus
  unfold settles at h
  rw [hstatus] at h
  cases h

/-- A miss under the lock has written nothing. -/
theorem lockedTile_miss {initial : Option TerrainTileLookupResult}
    (hadmitted : Admitted config key) (hinitial : Corrupt initial)
    (h : (lockedTile config fates key allowRemoteFetch initial tree).1.status
      = .tileUnavailable) :
    (lockedTile config fates key allowRemoteFetch initial tree).2 = tree := by
  unfold lockedTile at h ⊢
  dsimp only at h ⊢
  by_cases hsettles :
      settles (readNormalizedTile config key (tree.files key)) = true
  · rw [if_pos hsettles] at h
    exact absurd h (settles_available hsettles)
  · rw [if_neg hsettles] at h ⊢
    have hcorrupt := (corruptOf_corrupt
      (readNormalizedTile config key (tree.files key))).or hinitial
    exact storePhase_miss (fetchPhase_inv
      { key := key
        allowRemoteFetch := allowRemoteFetch
        phase := .locked initial } _ hadmitted hcorrupt _ _ _) h

/-- A miss leaves the directory it made. -/
theorem startedTile_miss (hadmitted : Admitted config key)
    (h : (startedTile config fates key allowRemoteFetch tree).1.status
      = .tileUnavailable) :
    Miss key tree
      (startedTile config fates key allowRemoteFetch tree).2 := by
  unfold startedTile at h ⊢
  dsimp only at h ⊢
  by_cases hsettles :
      settles (readNormalizedTile config key (tree.files key)) = true
  · rw [if_pos hsettles] at h
    exact absurd h (settles_available hsettles)
  · rw [if_neg hsettles] at h ⊢
    have hfiles := ensure_files config key fates.directory tree
    have hlockFiles := ensure_lockFiles config key fates.directory tree
    cases hensured : ensureNormalizedTileDirectory config key.directory
      fates.directory tree with
    | mk errorMessage made =>
      rw [hensured] at h hfiles hlockFiles
      cases errorMessage with
      | some errorMessage => cases h
      | none =>
        have hdirectories := ensure_none hensured
        dsimp only at h hfiles hlockFiles ⊢
        by_cases htimeout : fates.lockTimesOut = true
        · rw [if_pos htimeout] at h
          cases h
        · rw [if_neg htimeout] at h ⊢
          dsimp only at h ⊢
          rw [lockedTile_miss hadmitted (corruptOf_corrupt _) h]
          refine ⟨hdirectories, hfiles, ?_⟩
          unfold NormalizedTree.unlock NormalizedTree.lock
          dsimp only
          rw [Finset.erase_insert_eq_erase, hlockFiles]

/-- What a call changes that finds no tile. -/
theorem terrainTile_miss
    (h : (terrainTile config fates key allowRemoteFetch tree).1.status
      = .tileUnavailable) :
    Miss key tree (terrainTile config fates key allowRemoteFetch tree).2 := by
  rcases checkedPhase_cases config key with
    ⟨hstarting, hadmitted⟩ | ⟨result, hresult, havailable⟩
  · rw [terrainTile_started hstarting] at h ⊢
    exact startedTile_miss hadmitted h
  · rw [terrainTile_returning hresult] at h
    exact absurd h havailable

-- ============================================================== the walk

section

variable {northing : Rat → Rat} {request : ElevationRequest}
  {requests : List ElevationRequest} {allFates : Nat → CallFates}
  {position : TerrainGridPosition} {lookup : TerrainTileLookupResult}

/-- The store a zoom of a walk is looked up in. -/
def treeBefore (config : Config) (northing : Rat → Rat)
    (fates : Nat → CallFates) (allowRemoteFetch : Bool)
    (request : ElevationRequest) (s : Nat × NormalizedTree) (zoom : Nat) :
    NormalizedTree :=
  (Descent.before (askZoom northing request
    (lookupTile config fates allowRemoteFetch)) (terrainTileMaximumZoom + 1)
    s zoom).2

/-- The store that lookup leaves. -/
def treeAfter (config : Config) (northing : Rat → Rat)
    (fates : Nat → CallFates) (allowRemoteFetch : Bool)
    (request : ElevationRequest) (s : Nat × NormalizedTree) (zoom : Nat) :
    NormalizedTree :=
  (Descent.after (askZoom northing request
    (lookupTile config fates allowRemoteFetch)) (terrainTileMaximumZoom + 1)
    s zoom).2

/-- What a zoom of a walk changes that has no tile. -/
theorem lookedUp_miss {s : Nat × NormalizedTree} {zoom : Nat}
    (hwalked : Walked zoom)
    (hlookedUp : LookedUp northing request
      (lookupTile config allFates allowRemoteFetch) s zoom position lookup)
    (hmiss : lookup.status = .tileUnavailable) :
    Miss ⟨request.dataset, position.address⟩
      (treeBefore config northing allFates allowRemoteFetch request s zoom)
      (treeAfter config northing allFates allowRemoteFetch request s zoom) := by
  obtain ⟨hanswer, hafter⟩ :
      Descent.answer (askZoom northing request
          (lookupTile config allFates allowRemoteFetch))
        (terrainTileMaximumZoom + 1) s zoom = _ ∧
      Descent.after (askZoom northing request
          (lookupTile config allFates allowRemoteFetch))
        (terrainTileMaximumZoom + 1) s zoom = _ :=
    Descent.answer_before s (Nat.lt_succ_of_le hwalked)
  unfold LookedUp at hlookedUp
  rw [hanswer] at hlookedUp
  unfold treeAfter treeBefore
  rw [hafter]
  unfold askZoom at hlookedUp ⊢
  cases hposition : request.position northing zoom with
  | none =>
    rw [hposition] at hlookedUp
    cases hlookedUp
  | some own =>
    rw [hposition] at hlookedUp
    cases hlookedUp
    exact terrainTile_miss hmiss

/-- The tiles elevations try. -/
def Tried (northing : Rat → Rat) (requests : List ElevationRequest)
    (key : TileKey) : Prop :=
  ∃ request ∈ requests, ∃ zoom position, Walked zoom ∧
    request.position northing zoom = some position ∧
    key = ⟨request.dataset, position.address⟩

/-- What calls for some tiles may change. -/
structure WalkFrame (tried : TileKey → Prop)
    (before after : NormalizedTree) : Prop where
  kept : before.directories ⊆ after.directories
  added : ∀ directory ∈ after.directories, directory ∈ before.directories ∨
    ∃ key, tried key ∧ directory ∈ upwards key.directory
  files : ∀ key, ¬ tried key → after.files key = before.files key
  lockFiles : after.lockFiles ⊆ before.lockFiles

/-- A walk that tries nothing. -/
theorem WalkFrame.refl (tried : TileKey → Prop) (tree : NormalizedTree) :
    WalkFrame tried tree tree where
  kept := subset_rfl
  added _ hmem := Or.inl hmem
  files _ _ := rfl
  lockFiles := subset_rfl

/-- One more call. -/
theorem WalkFrame.call {tried : TileKey → Prop}
    {before during after : NormalizedTree} (h : WalkFrame tried before during)
    (htried : tried key) (hframe : Frame key during after) :
    WalkFrame tried before after where
  kept := h.kept.trans hframe.kept
  added directory hmem := by
    rcases Finset.mem_union.1 (hframe.added hmem) with hduring | hnew
    · exact h.added directory hduring
    · exact Or.inr ⟨key, htried, hnew⟩
  files other hother := by
    have hne : other ≠ key := by
      rintro rfl
      exact hother htried
    exact (hframe.files other hne).trans (h.files other hother)
  lockFiles := hframe.lockFiles.trans h.lockFiles

/-- What an elevation changes. -/
theorem sampleElevation_frame {tried : TileKey → Prop}
    {before : NormalizedTree} (s : Nat × NormalizedTree)
    (htried : ∀ zoom position, Walked zoom →
      request.position northing zoom = some position →
      tried ⟨request.dataset, position.address⟩)
    (h : WalkFrame tried before s.2) :
    WalkFrame tried before (sampleElevation config northing
      (lookupTile config allFates allowRemoteFetch) request s).2.2 := by
  unfold sampleElevation
  cases rejectElevation config request with
  | some rejected => exact h
  | none =>
    have hsearch : WalkFrame tried before (Descent.search
        (askZoom northing request
          (lookupTile config allFates allowRemoteFetch))
        (judgeZoom config request) (terrainTileMaximumZoom + 1) none s).2.2 :=
      Descent.search_keeps (P := fun s => WalkFrame tried before s.2)
        (terrainTileMaximumZoom + 1) none s ?_ h
    · dsimp only
      cases (Descent.search (askZoom northing request
        (lookupTile config allFates allowRemoteFetch))
        (judgeZoom config request) (terrainTileMaximumZoom + 1) none s).1 with
      | settled result => exact hsearch
      | remembered zoom => exact hsearch
      | exhausted => exact hsearch
    · intro zoom s hlt hs
      unfold askZoom
      cases hposition : request.position northing zoom with
      | none => exact hs
      | some position =>
        exact hs.call (htried zoom position (Nat.le_of_lt_succ hlt) hposition)
          (terrainTile_frame s.2)

/-- What elevations one after the other change. -/
theorem sampleElevations_frame (s : Nat × NormalizedTree) :
    WalkFrame (Tried northing requests) s.2
      (sampleElevations config northing allFates allowRemoteFetch requests
        s).2 := by
  -- Over all requests at once, induction on those that are left.
  have hrest : ∀ (rest : List ElevationRequest) (before : NormalizedTree)
      (s : Nat × NormalizedTree), (∀ request ∈ rest, request ∈ requests) →
      WalkFrame (Tried northing requests) before s.2 →
      WalkFrame (Tried northing requests) before
        (sampleElevations config northing allFates allowRemoteFetch rest
          s).2 := by
    intro rest
    induction rest with
    | nil =>
      intro before s _ h
      exact h
    | cons request rest ih =>
      intro before s hmem h
      refine ih before _ (fun other hother =>
        hmem other (List.mem_cons_of_mem _ hother)) ?_
      refine sampleElevation_frame s (fun zoom position hwalked hposition => ?_)
        h
      exact ⟨request, hmem request List.mem_cons_self, zoom, position, hwalked,
        hposition, rfl⟩
  exact hrest requests s.2 s (fun _ h => h) (WalkFrame.refl _ _)

end

-- =========================================================== the machine

/-- A call of the machine, the files and the holder of its lock. -/
structure Solo (id : Nat) (files : TileKey → TileFile) (holder : Option Nat)
    (call : Call) (s : Store) : Prop where
  current : s.calls id = some call
  files : s.files = files
  lock : s.locks call.key = holder

/-- Where a call of the machine gets. -/
def Gets (config : Config) (id : Nat) (files : TileKey → TileFile)
    (holder : Option Nat) (call : Call) (s : Store) : Prop :=
  ∃ s', Run (next config) anyStep s s' ∧ Solo id files holder call s'

variable {id : Nat} {files : TileKey → TileFile} {holder : Option Nat}
  {call : Call} {s : Store}

/-- A call that goes on by itself. -/
theorem Solo.move (h : Solo id files holder call s) (phase : Phase) :
    Solo id files holder { call with phase := phase }
      (s.move id call phase) where
  current := Store.setCall_self _ _ _
  files := h.files
  lock := h.lock

/-- The steps of the machine when one call is alone: a read, -/
theorem Solo.next_read (h : Solo id files holder call s) :
    next config (.read id none) s
      = readStep config id call (files call.key) s := by
  show (s.calls id).bind _ = _
  rw [h.current, ← h.files]
  rfl

/-- an attempt at the lock, -/
theorem Solo.next_lock (h : Solo id files holder call s)
    (outcome : LockOutcome) :
    next config (.lock id outcome) s = lockStep config id call outcome s := by
  show (s.calls id).bind _ = _
  rw [h.current]
  rfl

/-- a round of the providers, -/
theorem Solo.next_fetch (h : Solo id files holder call s)
    (sampling : Bool → Sampling) :
    next config (.fetch id sampling) s
      = fetchStep config id call sampling s := by
  show (s.calls id).bind _ = _
  rw [h.current]
  rfl

/-- a write -/
theorem Solo.next_store (h : Solo id files holder call s)
    (outcome : StoreOutcome) :
    next config (.store id outcome) s
      = storeStep config id call outcome s := by
  show (s.calls id).bind _ = _
  rw [h.current]
  rfl

/-- and the return. -/
theorem Solo.next_ret (h : Solo id files holder call s) :
    next config (.ret id) s = retStep id call s := by
  show (s.calls id).bind _ = _
  rw [h.current]
  rfl

/-- A step that moves the call. -/
theorem Solo.gets_move (h : Solo id files holder call s) {a : Action}
    {phase : Phase} (hnext : next config a s = some (s.move id call phase)) :
    Gets config id files holder { call with phase := phase } s :=
  ⟨_, Run.single trivial hnext, h.move phase⟩

/-- Steps of the call, and more of them. -/
theorem Gets.trans {files' : TileKey → TileFile} {holder' : Option Nat}
    {call' : Call} (h : Gets config id files holder call s)
    (hrest : ∀ s', Solo id files holder call s' →
      Gets config id files' holder' call' s') :
    Gets config id files' holder' call' s := by
  obtain ⟨s₁, hrun₁, hs₁⟩ := h
  obtain ⟨s₂, hrun₂, hs₂⟩ := hrest s₁ hs₁
  exact ⟨s₂, hrun₁.trans hrun₂, hs₂⟩

/-- What asking a provider leads to. -/
theorem afterFetch_cases (corrupt : Option TerrainTileLookupResult)
    (provider : TerrainProvider) (rest : List TerrainProvider)
    (fetched : TileFetchResult) :
    afterFetch corrupt provider rest fetched
        = .fetching corrupt rest true true ∨
      (∃ encoded origin, afterFetch corrupt provider rest fetched
        = .storing corrupt encoded origin) ∨
      ∃ result, afterFetch corrupt provider rest fetched
        = .returning result := by
  unfold afterFetch
  split_ifs
  · exact Or.inl rfl
  · exact Or.inr (Or.inr ⟨_, rfl⟩)
  all_goals
    split
    · split
      · exact Or.inr (Or.inl ⟨_, _, rfl⟩)
      · exact Or.inr (Or.inr ⟨_, rfl⟩)
    · exact Or.inr (Or.inr ⟨_, rfl⟩)

/-- The rounds of the machine are the loop over the providers. -/
theorem gets_fetchPhase (corrupt : Option TerrainTileLookupResult)
    (sampling : Bool → Sampling) (allowRemoteFetch : Bool) (first : Call)
    (hfirst : first.key = key ∧ first.allowRemoteFetch = allowRemoteFetch) :
    ∀ (providers : List TerrainProvider)
      (datasetSupported addressSupported : Bool) (asked : Nat) (s : Store),
      Solo id files holder
        ⟨key, allowRemoteFetch,
          .fetching corrupt providers datasetSupported addressSupported, asked⟩
        s →
      ∃ asked', Gets config id files holder
        ⟨key, allowRemoteFetch, fetchPhase config first corrupt sampling
          providers datasetSupported addressSupported, asked'⟩ s := by
  obtain ⟨rfl, rfl⟩ := hfirst
  intro providers
  induction providers with
  | nil =>
    intro datasetSupported addressSupported asked s hs
    exact ⟨asked, _, Run.single trivial (hs.next_fetch sampling), hs.move _⟩
  | cons provider rest ih =>
    intro datasetSupported addressSupported asked s hs
    have hround : next config (.fetch id sampling) s = some (s.setCall id
        (fetchRound config _ corrupt (provider :: rest) datasetSupported
          addressSupported sampling)) := hs.next_fetch sampling
    unfold fetchRound at hround
    unfold fetchPhase
    by_cases hdataset : provider.supportsDataset first.key.dataset = false
    · rw [if_pos hdataset]
      dsimp only at hround
      rw [if_pos hdataset] at hround
      obtain ⟨asked', hgets⟩ := ih datasetSupported addressSupported asked _
        (hs.move _)
      exact ⟨asked', hgets.imp fun s' h =>
        ⟨(Run.single trivial hround).trans h.1, h.2⟩⟩
    · rw [if_neg hdataset]
      dsimp only at hround
      rw [if_neg hdataset] at hround
      by_cases haddress : provider.supportsAddress first.key = false
      · rw [if_pos haddress]
        rw [if_pos haddress] at hround
        obtain ⟨asked', hgets⟩ := ih true addressSupported asked _ (hs.move _)
        exact ⟨asked', hgets.imp fun s' h =>
          ⟨(Run.single trivial hround).trans h.1, h.2⟩⟩
      · rw [if_neg haddress]
        rw [if_neg haddress] at hround
        have hsolo : Solo id files holder
            ⟨first.key, first.allowRemoteFetch, afterFetch corrupt provider rest
              (provider.fetchTile first.key (sampling (first.allows config))),
              asked + 1⟩ (s.setCall id
            ⟨first.key, first.allowRemoteFetch, afterFetch corrupt provider rest
              (provider.fetchTile first.key (sampling (first.allows config))),
              asked + 1⟩) :=
          ⟨Store.setCall_self _ _ _, hs.files, hs.lock⟩
        have hrun : Run (next config) anyStep s (s.setCall id
            ⟨first.key, first.allowRemoteFetch, afterFetch corrupt provider rest
              (provider.fetchTile first.key (sampling (first.allows config))),
              asked + 1⟩) := Run.single trivial hround
        rcases afterFetch_cases corrupt provider rest (provider.fetchTile
          first.key (sampling (first.allows config)))
          with hphase | ⟨encoded, origin, hphase⟩ | ⟨result, hphase⟩
        · rw [hphase] at hsolo hrun ⊢
          obtain ⟨asked', hgets⟩ := ih true true (asked + 1) _ hsolo
          exact ⟨asked', hgets.imp fun s' h => ⟨hrun.trans h.1, h.2⟩⟩
        · rw [hphase] at hsolo hrun ⊢
          exact ⟨asked + 1, _, hrun, hsolo⟩
        · rw [hphase] at hsolo hrun ⊢
          exact ⟨asked + 1, _, hrun, hsolo⟩

/-- The call of the machine returned, over some files, with its lock
free. -/
def Returns (config : Config) (id : Nat) (key : TileKey)
    (looked : TerrainTileLookupResult × NormalizedTree) (s : Store) : Prop :=
  ∃ call, call.key = key ∧ call.phase = .returned looked.1 ∧
    Gets config id looked.2.files none call s

/-- The return gives the lock back. -/
theorem returns_of_returning {result : TerrainTileLookupResult}
    {tree : NormalizedTree} (hcall : call.phase = .returning result)
    (hholder : holder = none ∨ holder = some id)
    (hs : Solo id tree.files holder call s) :
    Returns config id call.key (result, tree) s := by
  have hnext : next config (.ret id) s
      = some ((s.release id call.key).move id call (.returned result)) := by
    rw [hs.next_ret]
    unfold retStep
    rw [hcall]
  refine ⟨{ call with phase := .returned result }, rfl, rfl, _,
    Run.single trivial hnext, Store.setCall_self _ _ _, ?_, ?_⟩
  · exact (Store.release_files _ _ _).trans hs.files
  · show (s.release id call.key).locks call.key = none
    unfold Store.release
    rw [hs.lock]
    rcases hholder with rfl | rfl
    · rw [if_neg (by simp)]
      exact hs.lock
    · rw [if_pos rfl]
      exact Function.update_self ..

/-- Steps of the call up to its return. -/
theorem Returns.of_gets {looked : TerrainTileLookupResult × NormalizedTree}
    (h : Gets config id files holder call s)
    (hrest : ∀ s', Solo id files holder call s' →
      Returns config id key looked s') : Returns config id key looked s := by
  obtain ⟨s₁, hrun₁, hs₁⟩ := h
  obtain ⟨call', hkey, hphase, s₂, hrun₂, hs₂⟩ := hrest s₁ hs₁
  exact ⟨call', hkey, hphase, s₂, hrun₁.trans hrun₂, hs₂⟩

/-- A step that moves the call to its return. -/
theorem Solo.returns_move {a : Action} {result : TerrainTileLookupResult}
    {tree : NormalizedTree} (hs : Solo id tree.files holder call s)
    (hholder : holder = none ∨ holder = some id)
    (hnext : next config a s = some (s.move id call (.returning result))) :
    Returns config id call.key (result, tree) s :=
  Returns.of_gets (hs.gets_move hnext) fun _ hs' =>
    @returns_of_returning config id holder
      { call with phase := .returning result } _ result tree rfl hholder hs'

/-- The replacement of the file, by the machine. -/
theorem returns_storePhase {phase : Phase} (tree : NormalizedTree)
    (hcall : call.phase = phase)
    (hphase : (∃ corrupt encoded origin,
        phase = .storing corrupt encoded origin) ∨
      ∃ result, phase = .returning result)
    (hs : Solo id tree.files (some id) call s) :
    Returns config id call.key (storePhase config fates call.key tree phase)
      s := by
  rcases hphase with ⟨corrupt, encoded, origin, rfl⟩ | ⟨result, rfl⟩
  · have hfiles := ensure_files config call.key fates.directory tree
    unfold storePhase
    dsimp only
    generalize ensureNormalizedTileDirectory config call.key.directory
      fates.directory tree = ensured at hfiles
    obtain ⟨errorMessage, made⟩ := ensured
    dsimp only at hfiles
    rw [← hfiles] at hs
    cases errorMessage with
    | some errorMessage =>
      refine hs.returns_move (a := .store id (.directoryFailed errorMessage))
        (Or.inr rfl) ?_
      rw [hs.next_store]
      unfold storeStep
      rw [hcall]
      rfl
    | none =>
      dsimp only
      cases hfailure : fates.store.failure config call.key with
      | some result =>
        refine hs.returns_move (a := .store id fates.store) (Or.inr rfl) ?_
        rw [hs.next_store]
        unfold storeStep
        rw [hcall]
        dsimp only
        rw [hfailure]
      | none =>
        have hnext : next config (.store id fates.store) s
            = some ((s.setFile call.key (.readable encoded)).move id call
              (.returning (ready encoded origin))) := by
          rw [hs.next_store]
          unfold storeStep
          rw [hcall]
          dsimp only
          rw [hfailure]
        have hfile : (s.setFile call.key (.readable encoded)).files
            = (made.setFile call.key (.readable encoded)).files := by
          show Function.update s.files call.key _ = _
          rw [hs.files]
          rfl
        refine Returns.of_gets ⟨_, Run.single trivial hnext,
          Store.setCall_self _ _ _, hfile, hs.lock⟩ fun _ hs' => ?_
        exact @returns_of_returning config id (some id)
          { call with phase := .returning (ready encoded origin) } _ _ _ rfl
          (Or.inr rfl) hs'
  · exact returns_of_returning hcall (Or.inr rfl) hs

variable (config) in
/-- The loop over the providers ends with an answer or with a tile. -/
theorem fetchPhase_ends (call : Call)
    (corrupt : Option TerrainTileLookupResult) (sampling : Bool → Sampling) :
    ∀ (providers : List TerrainProvider)
      (datasetSupported addressSupported : Bool),
      (∃ encoded origin, fetchPhase config call corrupt sampling providers
        datasetSupported addressSupported
          = .storing corrupt encoded origin) ∨
      ∃ result, fetchPhase config call corrupt sampling providers
        datasetSupported addressSupported = .returning result := by
  intro providers
  induction providers with
  | nil =>
    intro datasetSupported addressSupported
    exact Or.inr ⟨_, rfl⟩
  | cons provider rest ih =>
    intro datasetSupported addressSupported
    unfold fetchPhase
    by_cases hdataset : provider.supportsDataset call.key.dataset = false
    · rw [if_pos hdataset]
      exact ih _ _
    · rw [if_neg hdataset]
      by_cases haddress : provider.supportsAddress call.key = false
      · rw [if_pos haddress]
        exact ih _ _
      · rw [if_neg haddress]
        rcases afterFetch_cases corrupt provider rest (provider.fetchTile
          call.key (sampling (call.allows config)))
          with hphase | ⟨encoded, origin, hphase⟩ | ⟨result, hphase⟩
        · rw [hphase]
          exact ih _ _
        · rw [hphase]
          exact Or.inl ⟨encoded, origin, rfl⟩
        · rw [hphase]
          exact Or.inr ⟨result, rfl⟩

variable (fates) in
/-- The call under its lock, by the machine. -/
theorem returns_lockedTile (initial : Option TerrainTileLookupResult)
    (tree : NormalizedTree)
    (hs : Solo id tree.files (some id)
      ⟨key, allowRemoteFetch, .locked initial, 0⟩ s) :
    Returns config id key
      (lockedTile config fates key allowRemoteFetch initial tree) s := by
  have hread : next config (.read id none) s = _ := hs.next_read
  unfold readStep afterLockedRead at hread
  unfold lockedTile
  dsimp only at hread ⊢
  by_cases hsettles :
      settles (readNormalizedTile config key (tree.files key)) = true
  · rw [if_pos hsettles] at hread ⊢
    exact hs.returns_move (Or.inr rfl) hread
  · rw [if_neg hsettles] at hread ⊢
    refine Returns.of_gets (hs.gets_move hread) fun s₁ hs₁ => ?_
    obtain ⟨asked, hgets⟩ := gets_fetchPhase _ fates.sampling allowRemoteFetch
      ⟨key, allowRemoteFetch, .locked initial, 0⟩ ⟨rfl, rfl⟩ _ _ _ _ _ hs₁
    refine Returns.of_gets hgets fun s₂ hs₂ => ?_
    refine returns_storePhase tree rfl ?_ hs₂
    rcases fetchPhase_ends config
        ⟨key, allowRemoteFetch, .locked initial, 0⟩ _ fates.sampling
        config.providers false false
      with ⟨encoded, origin, hphase⟩ | ⟨result, hphase⟩
    · exact Or.inl ⟨_, encoded, origin, hphase⟩
    · exact Or.inr ⟨result, hphase⟩

/-- The call is a run of the machine: one of its calls, with nobody else
at work, returns what the call returns and leaves the files it leaves. -/
theorem terrainTile_returns (tree : NormalizedTree) (hid : s.calls id = none)
    (hfree : s.locks key = none) (hfiles : s.files = tree.files) :
    Returns config id key
      (terrainTile config fates key allowRemoteFetch tree) s := by
  have hcall : next config (.call id key allowRemoteFetch) s
      = some (s.setCall id
        ⟨key, allowRemoteFetch, checkedPhase config key, 0⟩) := by
    unfold next
    dsimp only
    rw [hid]
  have hgets : Gets config id tree.files none
      ⟨key, allowRemoteFetch, checkedPhase config key, 0⟩ s :=
    ⟨_, Run.single trivial hcall, Store.setCall_self _ _ _, hfiles, hfree⟩
  refine Returns.of_gets hgets fun s₁ hs₁ => ?_
  rcases checkedPhase_cases config key with
    ⟨hstarting, -⟩ | ⟨result, hresult, -⟩
  · rw [terrainTile_started hstarting]
    rw [hstarting] at hs₁
    have hread : next config (.read id none) s₁ = _ := hs₁.next_read
    unfold readStep afterFirstRead at hread
    unfold startedTile
    dsimp only at hread ⊢
    by_cases hsettles :
        settles (readNormalizedTile config key (tree.files key)) = true
    · rw [if_pos hsettles] at hread ⊢
      exact hs₁.returns_move (Or.inl rfl) hread
    · rw [if_neg hsettles] at hread ⊢
      refine Returns.of_gets (hs₁.gets_move hread) fun s₂ hs₂ => ?_
      have hmade := ensure_files config key fates.directory tree
      generalize ensureNormalizedTileDirectory config key.directory
        fates.directory tree = ensured at hmade
      obtain ⟨errorMessage, made⟩ := ensured
      dsimp only at hmade
      have hs₂ : Solo id made.files none _ s₂ :=
        ⟨hs₂.current, hs₂.files.trans hmade.symm, hs₂.lock⟩
      cases errorMessage with
      | some errorMessage =>
        exact hs₂.returns_move (Or.inl rfl)
          (hs₂.next_lock (.directoryFailed errorMessage))
      | none =>
        dsimp only
        by_cases htimeout : fates.lockTimesOut = true
        · rw [if_pos htimeout]
          exact hs₂.returns_move (Or.inl rfl) (hs₂.next_lock .timedOut)
        · rw [if_neg htimeout]
          have htaken : next config (.lock id .taken) s₂ = _ :=
            hs₂.next_lock .taken
          unfold lockStep at htaken
          dsimp only at htaken
          rw [if_pos hs₂.lock] at htaken
          have hgets : Gets config id (made.lock key).files (some id) _ s₂ :=
            ⟨_, Run.single trivial htaken, Store.setCall_self _ _ _,
              hs₂.files, Function.update_self ..⟩
          obtain ⟨call, hkey, hphase, hreturned⟩ := Returns.of_gets hgets
            fun s₃ hs₃ => returns_lockedTile fates _ (made.lock key) hs₃
          exact ⟨call, hkey, hphase, hreturned⟩
  · rw [terrainTile_returning hresult]
    rw [hresult] at hs₁
    exact returns_of_returning rfl (Or.inl rfl) hs₁

-- =============================================================== results

/-- A lookup that finds nothing leaves every file, no lock file, and of
directories at most the one of its tile with those on the way; so does
every zoom of an elevation that has no tile, and elevations one after the
other add no directory but those of the tiles they try. -/
theorem miss_leaves_directory :
    (∀ config fates key allowRemoteFetch tree,
      (terrainTile config fates key allowRemoteFetch tree).1.status
        = .tileUnavailable →
      Miss key tree (terrainTile config fates key allowRemoteFetch tree).2) ∧
    (∀ config northing fates allowRemoteFetch request s zoom position lookup,
      Walked zoom →
      LookedUp northing request (lookupTile config fates allowRemoteFetch) s
        zoom position lookup →
      lookup.status = .tileUnavailable →
      Miss ⟨request.dataset, position.address⟩
        (treeBefore config northing fates allowRemoteFetch request s zoom)
        (treeAfter config northing fates allowRemoteFetch request s zoom)) ∧
    ∀ config northing fates allowRemoteFetch requests s,
      WalkFrame (Tried northing requests) s.2
        (sampleElevations config northing fates allowRemoteFetch requests s).2 :=
  ⟨fun _ _ _ _ _ h => terrainTile_miss h,
    fun _ _ _ _ _ _ _ _ _ hwalked hlookedUp hmiss =>
      lookedUp_miss hwalked hlookedUp hmiss,
    fun _ _ _ _ _ s => sampleElevations_frame s⟩

/-- Without a provider. -/
def noProviders : Config := { copernicusEnabled := false }

def worldKey : TileKey := ⟨"test-dem", {}⟩

def noSources : CallFates where
  sampling _ := .failed .sourceUnavailable ""

/-- Without providers there is no tile. -/
theorem noProviders_miss :
    (terrainTile noProviders noSources worldKey true {}).1.status
      = .tileUnavailable := by
  decide +kernel

/-- A lookup without a provider, in an empty store. -/
theorem miss_leaves_directory_empty :
    Miss worldKey {} (terrainTile noProviders noSources worldKey true {}).2 :=
  miss_leaves_directory.1 _ _ _ _ _ noProviders_miss

/-- That lookup finds nothing and leaves the directory of its tile. -/
theorem miss_leaves_trace :
    (terrainTile noProviders noSources worldKey true {}).1.status
        = .tileUnavailable ∧
      worldKey.directory ∉ (({} : NormalizedTree)).directories ∧
      worldKey.directory ∈
        (terrainTile noProviders noSources worldKey true {}).2.directories := by
  have hmiss : Miss worldKey {}
      (terrainTile noProviders noSources worldKey true {}).2 :=
    terrainTile_miss noProviders_miss
  refine ⟨noProviders_miss, Finset.notMem_empty _, ?_⟩
  rw [hmiss.directories, if_neg (Finset.notMem_empty _)]
  refine Finset.mem_union_right _ (mem_upwards.2 ⟨?_, List.prefix_rfl⟩)
  unfold TileKey.directory
  exact List.cons_ne_nil _ _

end AowisMap.Terrain.TileStore
