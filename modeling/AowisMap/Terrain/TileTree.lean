/-
`terrainTile` as one call makes it, over the directories of the
normalized store.

# The tree

A directory is the list of its names below the root of the store. Beside
the tiles there are the lock files, each in the directory of its tile.
The temporary file of a store is gone when the call is.

# The call

The call is the one of the machine of `TileStore`, from its checks to its
return, with nobody else at work: what its reads, its providers and the
replacement of the file decide are the definitions of that machine, and
what it does to directories and lock files is said here.
-/
import Mathlib.Data.Finset.Basic
import Mathlib.Data.Finset.Erase
import AowisMap.Terrain.Elevation

namespace AowisMap.Terrain.TileStore

open Lib

-- ============================================================== the tree

/-- The names on the way to a directory. -/
abbrev Directory := List (List Char)

/-- The directory of a tile, and of its lock file. -/
def TileKey.directory (key : TileKey) : Directory :=
  ['v' :: QString.number terrainTileFormatVersion,
    'r' :: QString.number terrainNormalizationRevision,
    key.dataset.toList, QString.number key.address.zoom,
    QString.number key.address.x]

/-- The path of a directory. -/
def directoryPath (config : Config) (directory : Directory) : String :=
  config.normalized ++ String.ofList (directory.flatMap fun name => '/' :: name)

/-- A directory and the ones above it. -/
def upwards (directory : Directory) : Finset Directory :=
  (directory.inits.filter fun above => !above.isEmpty).toFinset

/-- The normalized store. -/
structure NormalizedTree where
  directories : Finset Directory := ∅
  files : TileKey → TileFile := fun _ => .missing
  lockFiles : Finset TileKey := ∅

namespace NormalizedTree

/-- `QDir::mkpath`. -/
def mkpath (tree : NormalizedTree) (directory : Directory) : NormalizedTree :=
  { tree with directories := tree.directories ∪ upwards directory }

def lock (tree : NormalizedTree) (key : TileKey) : NormalizedTree :=
  { tree with lockFiles := insert key tree.lockFiles }

def unlock (tree : NormalizedTree) (key : TileKey) : NormalizedTree :=
  { tree with lockFiles := tree.lockFiles.erase key }

def setFile (tree : NormalizedTree) (key : TileKey) (file : TileFile) :
    NormalizedTree :=
  { tree with files := Function.update tree.files key file }

@[simp] theorem mkpath_files (tree : NormalizedTree) (directory : Directory) :
    (tree.mkpath directory).files = tree.files := rfl

@[simp] theorem mkpath_lockFiles (tree : NormalizedTree)
    (directory : Directory) :
    (tree.mkpath directory).lockFiles = tree.lockFiles := rfl

@[simp] theorem lock_files (tree : NormalizedTree) (key : TileKey) :
    (tree.lock key).files = tree.files := rfl

@[simp] theorem lock_directories (tree : NormalizedTree) (key : TileKey) :
    (tree.lock key).directories = tree.directories := rfl

@[simp] theorem unlock_files (tree : NormalizedTree) (key : TileKey) :
    (tree.unlock key).files = tree.files := rfl

@[simp] theorem unlock_directories (tree : NormalizedTree) (key : TileKey) :
    (tree.unlock key).directories = tree.directories := rfl

@[simp] theorem setFile_directories (tree : NormalizedTree) (key : TileKey)
    (file : TileFile) :
    (tree.setFile key file).directories = tree.directories := rfl

@[simp] theorem setFile_lockFiles (tree : NormalizedTree) (key : TileKey)
    (file : TileFile) :
    (tree.setFile key file).lockFiles = tree.lockFiles := rfl

end NormalizedTree

-- ============================================================== the call

/-- How the creation of a directory ends: a file is in the way, it fails
after some of the directories on the way, or the directory is there. -/
inductive DirectoryFate
  | notDirectory
  | failed (made : Nat)
  | created

/-- What a call depends on besides the tree. -/
structure CallFates where
  directory : DirectoryFate := .created
  lockTimesOut : Bool := false
  sampling : Bool → Sampling
  store : StoreOutcome := .committed

/-- `ensureNormalizedTileDirectory`, with its message. -/
def ensureNormalizedTileDirectory (config : Config) (directory : Directory)
    (fate : DirectoryFate) (tree : NormalizedTree) :
    Option String × NormalizedTree :=
  if directory ∈ tree.directories then (none, tree)
  else match fate with
  | .created => (none, tree.mkpath directory)
  | .failed made =>
      (some ("Failed to create normalized terrain cache directory: "
        ++ directoryPath config directory), tree.mkpath (directory.take made))
  | .notDirectory =>
      (some ("Normalized terrain cache path exists but is not a directory: "
        ++ directoryPath config directory), tree)

/-- The loop over the providers, up to the phase after it. -/
def fetchPhase (config : Config) (call : Call)
    (corrupt : Option TerrainTileLookupResult) (sampling : Bool → Sampling) :
    List TerrainProvider → Bool → Bool → Phase
  | [], datasetSupported, addressSupported =>
      .returning (unrepaired corrupt
        (exhausted call.key datasetSupported addressSupported))
  | provider :: rest, datasetSupported, addressSupported =>
      if provider.supportsDataset call.key.dataset = false then
        fetchPhase config call corrupt sampling rest datasetSupported
          addressSupported
      else if provider.supportsAddress call.key = false then
        fetchPhase config call corrupt sampling rest true addressSupported
      else
        match afterFetch corrupt provider rest
          (provider.fetchTile call.key (sampling (call.allows config))) with
        | .fetching _ _ _ _ =>
            fetchPhase config call corrupt sampling rest true true
        | phase => phase

/-- The rest of `fetchAndStoreNormalizedTile` and the answer. No other
phase follows the loop over the providers. -/
def storePhase (config : Config) (fates : CallFates) (key : TileKey)
    (tree : NormalizedTree) : Phase → TerrainTileLookupResult × NormalizedTree
  | .storing corrupt encoded origin =>
      match ensureNormalizedTileDirectory config key.directory fates.directory
        tree with
      | (some errorMessage, tree) =>
          (unrepaired corrupt (failed .tileReadError errorMessage), tree)
      | (none, tree) =>
          match fates.store.failure config key with
          | some result => (unrepaired corrupt result, tree)
          | none => (ready encoded origin, tree.setFile key (.readable encoded))
  | .returning result => (result, tree)
  | _ => (failed .providerError "", tree)

/-- `terrainTile` from the lock on. -/
def lockedTile (config : Config) (fates : CallFates) (key : TileKey)
    (allowRemoteFetch : Bool) (initial : Option TerrainTileLookupResult)
    (tree : NormalizedTree) : TerrainTileLookupResult × NormalizedTree :=
  let result := readNormalizedTile config key (tree.files key)
  if settles result then (result, tree)
  else
    let call : Call :=
      { key := key
        allowRemoteFetch := allowRemoteFetch
        phase := .locked initial }
    storePhase config fates key tree
      (fetchPhase config call ((corruptOf result).or initial) fates.sampling
        config.providers false false)

/-- `terrainTile` from its first read on. -/
def startedTile (config : Config) (fates : CallFates) (key : TileKey)
    (allowRemoteFetch : Bool) (tree : NormalizedTree) :
    TerrainTileLookupResult × NormalizedTree :=
  let result := readNormalizedTile config key (tree.files key)
  if settles result then (result, tree)
  else
    match ensureNormalizedTileDirectory config key.directory fates.directory
      tree with
    | (some errorMessage, tree) => (failed .tileReadError errorMessage, tree)
    | (none, tree) =>
        if fates.lockTimesOut then
          (failed .providerError
            ("Timed out waiting for normalized terrain cache fill: "
              ++ normalizedTilePath config key), tree)
        else
          let locked := lockedTile config fates key allowRemoteFetch
            (corruptOf result) (tree.lock key)
          (locked.1, locked.2.unlock key)

/-- `terrainTile`. -/
def terrainTile (config : Config) (fates : CallFates) (key : TileKey)
    (allowRemoteFetch : Bool) (tree : NormalizedTree) :
    TerrainTileLookupResult × NormalizedTree :=
  match checkedPhase config key with
  | .returning result => (result, tree)
  | _ => startedTile config fates key allowRemoteFetch tree

-- ============================================================== the walk

/-- The lookups of `sampleElevation`: the `n`-th of all calls has the
`n`-th fates. -/
def lookupTile (config : Config) (fates : Nat → CallFates)
    (allowRemoteFetch : Bool) (key : TileKey) (s : Nat × NormalizedTree) :
    TerrainTileLookupResult × (Nat × NormalizedTree) :=
  let looked := terrainTile config (fates s.1) key allowRemoteFetch s.2
  (looked.1, s.1 + 1, looked.2)

/-- Elevations one after the other. -/
def sampleElevations (config : Config) (northing : Rat → Rat)
    (fates : Nat → CallFates) (allowRemoteFetch : Bool)
    (requests : List ElevationRequest) (s : Nat × NormalizedTree) :
    Nat × NormalizedTree :=
  requests.foldl (fun s request =>
    (sampleElevation config northing (lookupTile config fates allowRemoteFetch)
      request s).2) s

end AowisMap.Terrain.TileStore
