/-
The normalized tile store keeps what it was filled with, and returns
nothing but accepted tiles of the right name, in every interleaving of
calls, deaths, deletions and changes from outside.

# Layers

- `Step` says once what a step does to the store (`next_step`).
- `PhaseInv`: what is known of a call from its phase alone. A call that
  is about to store holds bytes that a reader will accept, whoever
  changed the file meanwhile: so every answer is sound.
- `Later`: while nobody changes the file after a fill, the calls that
  begin after it read what was filled.
- `Exclusive`: the calls between their second read and their store hold
  the lock of their tile. So a fill leaves no other call of its tile
  there, and none gets there as long as the file is untouched (`Quiet`).
-/
import AowisMap.Terrain.Proofs.TileAccepted
import AowisMap.Terrain.TileStore

namespace AowisMap.Terrain.TileStore

open Lib

variable {config : Config} {a : Action} {s s' : Store} {key : TileKey}
variable {data : Bytes}

-- ================================================================= paths

/-- A dataset identifier holds no separator. -/
theorem not_mem_dataset {dataset : String}
    (h : isValidTerrainDatasetId dataset = true) : '/' ∉ dataset.toList := by
  intro hmem
  simp only [isValidTerrainDatasetId, Bool.and_eq_true,
    decide_eq_true_eq] at h
  have hbyte := List.all_eq_true.1 h.1.2 47
    (List.mem_flatMap.2 ⟨'/', hmem, by decide⟩)
  cases hbyte

/-- The files of different tiles have different paths. -/
theorem tileRelativePath_inj {first second : TileKey}
    (hfirst : isValidTerrainDatasetId first.dataset = true ∧
      isValidTerrainTileAddress first.address = true)
    (hsecond : isValidTerrainDatasetId second.dataset = true ∧
      isValidTerrainTileAddress second.address = true)
    (h : tileRelativePath first
      = tileRelativePath second) : first = second := by
  have hnumber : ∀ n : Int, '/' ∉ QString.number n :=
    QString.not_mem_number (by decide) rfl
  have hname : ∀ n : Int, '/' ∉ QString.number n
      ++ '.' :: terrainTileFileExtension.toList := by
    intro n hmem
    rcases List.mem_append.1 hmem with hmem | hmem
    · exact hnumber n hmem
    · exact absurd hmem (by decide)
  have hinj : ∀ m n : Int, QString.number m = QString.number n → m = n := by
    intro m n heq
    have hm := QString.toSigned?_number m
    rw [heq, QString.toSigned?_number n] at hm
    exact (Option.some.inj hm).symm
  unfold tileRelativePath at h
  rw [if_neg (by simp [hfirst]), if_neg (by simp [hsecond])] at h
  have htail := List.append_cancel_left
    (List.cons.inj (String.ofList_injective h)).2
  have hrest := List.append_cancel_left (List.cons.inj (List.cons.inj htail).2).2
  have hparts := congrArg (List.splitOn '/') (List.cons.inj hrest).2
  rw [List.splitOn_append_cons_self_of_not_mem (not_mem_dataset hfirst.1),
    List.splitOn_append_cons_self_of_not_mem (hnumber _),
    List.splitOn_append_cons_self_of_not_mem (hnumber _),
    List.splitOn_eq_singleton (hname _),
    List.splitOn_append_cons_self_of_not_mem (not_mem_dataset hsecond.1),
    List.splitOn_append_cons_self_of_not_mem (hnumber _),
    List.splitOn_append_cons_self_of_not_mem (hnumber _),
    List.splitOn_eq_singleton (hname _)] at hparts
  simp only [List.cons.injEq, List.append_cancel_right_eq, and_true]
    at hparts
  obtain ⟨hdataset, hzoom, hx, hy⟩ := hparts
  have hx := Int.ofNat_inj.1 (hinj _ _ hx)
  have hy := Int.ofNat_inj.1 (hinj _ _ hy)
  obtain ⟨dataset, zoom, x, y⟩ := first
  obtain ⟨dataset', zoom', x', y'⟩ := second
  simp only [TileKey.mk.injEq, TerrainTileAddress.mk.injEq]
  exact ⟨String.toList_inj.1 hdataset, hinj _ _ hzoom, hx, hy⟩

-- ================================================================= steps

/-- What a step does. -/
inductive Step (config : Config) (s : Store) : Action → Store → Prop
  | called (id : Nat) (key : TileKey) (allowRemoteFetch : Bool) :
      s.calls id = none →
      Step config s (.call id key allowRemoteFetch) (s.setCall id
        { key := key
          allowRemoteFetch := allowRemoteFetch
          phase := checkedPhase config key })
  | firstRead (id : Nat) (call : Call) (seen : Option TileFile) :
      s.calls id = some call → call.phase = .starting →
      Step config s (.read id seen) (s.move id call
        (afterFirstRead (readNormalizedTile config call.key
          (seen.getD (s.files call.key)))))
  | lockedRead (id : Nat) (call : Call) (seen : Option TileFile)
      (initial : Option TerrainTileLookupResult) :
      s.calls id = some call → call.phase = .locked initial →
      Step config s (.read id seen) (s.move id call
        (afterLockedRead config initial (readNormalizedTile config call.key
          (seen.getD (s.files call.key)))))
  | unlocked (id : Nat) (call : Call) (outcome : LockOutcome)
      (initial : Option TerrainTileLookupResult)
      (result : TerrainTileLookupResult) :
      s.calls id = some call → call.phase = .locking initial →
      result.status ≠ .ready →
      Step config s (.lock id outcome) (s.move id call (.returning result))
  | locked (id : Nat) (call : Call)
      (initial : Option TerrainTileLookupResult) :
      s.calls id = some call → call.phase = .locking initial →
      s.locks call.key = none →
      Step config s (.lock id .taken)
        ((s.setLock call.key (some id)).move id call (.locked initial))
  | fetched (id : Nat) (call : Call)
      (corrupt : Option TerrainTileLookupResult)
      (rest : List TerrainProvider) (datasetSupported addressSupported : Bool)
      (sampling : Bool → Sampling) :
      s.calls id = some call →
      call.phase = .fetching corrupt rest datasetSupported addressSupported →
      Step config s (.fetch id sampling) (s.setCall id
        (fetchRound config call corrupt rest datasetSupported addressSupported
          sampling))
  | unstored (id : Nat) (call : Call) (outcome : StoreOutcome)
      (corrupt : Option TerrainTileLookupResult) (encoded : Bytes)
      (origin : TerrainDataOrigin) (result : TerrainTileLookupResult) :
      s.calls id = some call → call.phase = .storing corrupt encoded origin →
      outcome ≠ .committed → result.status ≠ .ready →
      Step config s (.store id outcome)
        (s.move id call (.returning (unrepaired corrupt result)))
  | stored (id : Nat) (call : Call)
      (corrupt : Option TerrainTileLookupResult) (encoded : Bytes)
      (origin : TerrainDataOrigin) :
      s.calls id = some call → call.phase = .storing corrupt encoded origin →
      Step config s (.store id .committed)
        ((s.setFile call.key (.readable encoded)).move id call
          (.returning (ready encoded origin)))
  | returned (id : Nat) (call : Call) (result : TerrainTileLookupResult) :
      s.calls id = some call → call.phase = .returning result →
      Step config s (.ret id)
        ((s.release id call.key).move id call (.returned result))
  | died (id : Nat) (call : Call) :
      s.calls id = some call → Step config s (.die id) (s.move id call .died)
  | broken (key : TileKey) : Step config s (.breakLock key) (s.setLock key none)
  | deleted (key : TileKey) :
      Step config s (.delete key) (s.setFile key .missing)
  | changed (key : TileKey) (file : TileFile) :
      Step config s (.change key file) (s.setFile key file)

/-- A store outcome either commits or fails with an error. -/
theorem failure_inv {outcome : StoreOutcome} :
    (outcome = .committed ∧ outcome.failure config key = none) ∨
      (outcome ≠ .committed ∧ ∃ result, result.status ≠ .ready ∧
        outcome.failure config key = some result) := by
  cases outcome with
  | committed => exact Or.inl ⟨rfl, rfl⟩
  | directoryFailed errorMessage =>
      exact Or.inr ⟨by simp, _, by simp [failed], rfl⟩
  | notOpened errorString =>
      exact Or.inr ⟨by simp, _, by simp [failed], rfl⟩
  | notWritten errorString =>
      exact Or.inr ⟨by simp, _, by simp [failed], rfl⟩
  | notCommitted errorString =>
      exact Or.inr ⟨by simp, _, by simp [failed], rfl⟩

/-- The transition of a read is a step of the relation. -/
theorem readStep_step {id : Nat} {call : Call} {seen : Option TileFile}
    (hcall : s.calls id = some call)
    (h : readStep config id call (seen.getD (s.files call.key)) s
      = some s') : Step config s (.read id seen) s' := by
  unfold readStep at h
  cases hphase : call.phase with
  | starting =>
      simp only [hphase] at h
      cases h
      exact .firstRead id call seen hcall hphase
  | locked initial =>
      simp only [hphase] at h
      cases h
      exact .lockedRead id call seen initial hcall hphase
  | locking _ | fetching _ _ _ _ | storing _ _ _ | returning _ | returned _
  | died =>
      simp only [hphase] at h
      cases h

/-- So is that of an attempt at the lock, -/
theorem lockStep_step {id : Nat} {call : Call} {outcome : LockOutcome}
    (hcall : s.calls id = some call)
    (h : lockStep config id call outcome s = some s') :
    Step config s (.lock id outcome) s' := by
  unfold lockStep at h
  split at h
  · rename_i hphase
    cases h
    exact .unlocked id call _ _ _ hcall hphase (by simp [failed])
  · rename_i hphase
    cases h
    exact .unlocked id call _ _ _ hcall hphase (by simp [failed])
  · rename_i initial hphase
    split at h
    · rename_i hfree
      cases h
      exact .locked id call initial hcall hphase hfree
    · cases h
  · cases h

/-- and that of a write. -/
theorem storeStep_step {id : Nat} {call : Call} {outcome : StoreOutcome}
    (hcall : s.calls id = some call)
    (h : storeStep config id call outcome s = some s') :
    Step config s (.store id outcome) s' := by
  unfold storeStep at h
  split at h
  · rename_i corrupt encoded origin hphase
    rcases @failure_inv config call.key outcome with
      ⟨rfl, hnone⟩ | ⟨hne, result, hresult, hsome⟩
    · rw [hnone] at h
      cases h
      exact .stored id call corrupt encoded origin hcall hphase
    · rw [hsome] at h
      cases h
      exact .unstored id call outcome corrupt encoded origin result hcall
        hphase hne hresult
  · cases h

/-- Every transition is one of the steps. -/
theorem next_step (h : next config a s = some s') : Step config s a s' := by
  cases a with
  | call id key allowRemoteFetch =>
      simp only [next] at h
      cases hcall : s.calls id with
      | none =>
          rw [hcall] at h
          cases h
          exact .called id key allowRemoteFetch hcall
      | some call =>
          rw [hcall] at h
          cases h
  | read id seen =>
      obtain ⟨call, hcall, hstep⟩ := Option.bind_eq_some_iff.1 h
      exact readStep_step hcall hstep
  | lock id outcome =>
      obtain ⟨call, hcall, hstep⟩ := Option.bind_eq_some_iff.1 h
      exact lockStep_step hcall hstep
  | fetch id sampling =>
      obtain ⟨call, hcall, hstep⟩ := Option.bind_eq_some_iff.1 h
      unfold fetchStep at hstep
      split at hstep
      · rename_i corrupt rest datasetSupported addressSupported hphase
        cases hstep
        exact .fetched id call corrupt rest datasetSupported addressSupported
          sampling hcall hphase
      · cases hstep
  | store id outcome =>
      obtain ⟨call, hcall, hstep⟩ := Option.bind_eq_some_iff.1 h
      exact storeStep_step hcall hstep
  | ret id =>
      obtain ⟨call, hcall, hstep⟩ := Option.bind_eq_some_iff.1 h
      unfold retStep at hstep
      split at hstep
      · rename_i result hphase
        cases hstep
        exact .returned id call result hcall hphase
      · cases hstep
  | die id =>
      obtain ⟨call, hcall, hstep⟩ := Option.bind_eq_some_iff.1 h
      unfold dieStep at hstep
      split at hstep
      · cases hstep
      · cases hstep
        exact .died id call hcall
  | breakLock key =>
      cases h
      exact .broken key
  | delete key =>
      cases h
      exact .deleted key
  | change key file =>
      cases h
      exact .changed key file

-- =============================================================== answers

/-- The bytes are accepted, and name the dataset and the address that were
asked for. -/
def Requested (key : TileKey) (data : Bytes) : Prop :=
  ∃ tile, decodeTerrainTile binary32 data = .ok tile ∧
    tile.dataset = key.dataset ∧ tile.address.zoom = key.address.zoom ∧
    tile.address.x = key.address.x ∧ tile.address.y = key.address.y

/-- A tile names a key field by field. -/
theorem names_iff {tile : TerrainTile} : key.names tile = true ↔
    tile.dataset = key.dataset ∧ tile.address.zoom = key.address.zoom ∧
      tile.address.x = key.address.x ∧ tile.address.y = key.address.y := by
  simp only [TileKey.names, Bool.and_eq_true, beq_iff_eq, and_assoc]

/-- The checks on bytes that were read. -/
theorem readNormalizedTile_readable (config : Config) (key : TileKey)
    (data : Bytes) : readNormalizedTile config key (.readable data) =
      if maximumNormalizedTileBytes < data.length then
        failed .corruptTile
          ("Normalized terrain tile exceeds format size limit: "
            ++ normalizedTilePath config key)
      else match decodeTerrainTile binary32 data with
      | .error decodeError => failed .corruptTile
          ("Failed to decode normalized terrain tile "
            ++ normalizedTilePath config key ++ ": " ++ decodeError)
      | .ok tile =>
          if key.names tile = false then
            failed .corruptTile
              ("Normalized terrain tile metadata does not match its cache "
                ++ "path: " ++ normalizedTilePath config key)
          else ready data .cache := rfl

/-- A read is an answer exactly for bytes of bounded size that were asked
for, and then the answer is these bytes. -/
theorem readNormalizedTile_ready {file : TileFile} :
    (readNormalizedTile config key file).status = .ready ↔
      ∃ data, file = .readable data ∧ Requested key data ∧
        data.length ≤ maximumNormalizedTileBytes ∧
        readNormalizedTile config key file = ready data .cache := by
  constructor
  · intro h
    cases file with
    | missing => cases h
    | notReadable => cases h
    | notOpened errorString => cases h
    | readable data =>
        refine ⟨data, rfl, ?_⟩
        rw [readNormalizedTile_readable] at h ⊢
        by_cases hsize : maximumNormalizedTileBytes < data.length
        · rw [if_pos hsize] at h
          cases h
        rw [if_neg hsize] at h ⊢
        cases hdecode : decodeTerrainTile binary32 data with
        | error decodeError =>
            rw [hdecode] at h
            cases h
        | ok tile =>
            rw [hdecode] at h
            cases hnames : key.names tile with
            | false =>
                simp only [hnames, if_true] at h
                cases h
            | true => exact ⟨⟨tile, hdecode, names_iff.1 hnames⟩,
                not_lt.1 hsize, by simp only [hnames, Bool.true_eq_false,
                  if_false]⟩
  · rintro ⟨data, -, -, -, heq⟩
    rw [heq]
    rfl

/-- What a reader of stored bytes answers. -/
theorem readNormalizedTile_stored (h : Requested key data)
    (hsize : data.length ≤ maximumNormalizedTileBytes) :
    readNormalizedTile config key (.readable data) = ready data .cache := by
  obtain ⟨tile, hdecode, hnames⟩ := h
  rw [readNormalizedTile_readable, if_neg (not_lt.2 hsize), hdecode]
  simp only [names_iff.2 hnames, Bool.true_eq_false, if_false]

-- ================================================================ phases

/-- The checks a call passed before it read anything. -/
structure Admitted (config : Config) (key : TileKey) : Prop where
  enabled : config.enabled = true
  initialized : config.initialized = true
  dataset : isValidTerrainDatasetId key.dataset = true
  address : isValidTerrainTileAddress key.address = true

/-- A call that passes the checks starts. -/
theorem checkedPhase_admitted (h : Admitted config key) :
    checkedPhase config key = .starting := by
  simp [checkedPhase, h.enabled, h.initialized, h.dataset, h.address]

/-- What a call remembers of a corrupt tile is no answer. -/
def Corrupt (corrupt : Option TerrainTileLookupResult) : Prop :=
  ∀ result, corrupt = some result → result.status = .corruptTile

/-- A failure has the status it was made with. -/
@[simp] theorem failed_status (status : TerrainTileLookupStatus)
    (errorMessage : String) : (failed status errorMessage).status = status :=
  rfl

/-- Without a provider left the tile is unavailable. -/
theorem exhausted_status (key : TileKey)
    (datasetSupported addressSupported : Bool) :
    (exhausted key datasetSupported addressSupported).status
      = .tileUnavailable := rfl

/-- What is known of a call from its phase. -/
def PhaseInv (config : Config) (key : TileKey) : Phase → Prop
  | .starting => Admitted config key
  | .locking corrupt => Admitted config key ∧ Corrupt corrupt
  | .locked corrupt => Admitted config key ∧ Corrupt corrupt
  | .fetching corrupt _ _ _ => Admitted config key ∧ Corrupt corrupt
  | .storing corrupt encoded _ => Admitted config key ∧ Corrupt corrupt ∧
      Requested key encoded ∧ encoded.length ≤ maximumNormalizedTileBytes
  | .returning result => result.status = .ready → Requested key result.data
  | .returned result => result.status = .ready → Requested key result.data
  | .died => True

/-- What the checks leave a call in. -/
theorem checkedPhase_inv (config : Config) (key : TileKey) :
    PhaseInv config key (checkedPhase config key) := by
  unfold checkedPhase
  split
  · intro h
    cases h
  rename_i henabled
  split
  · intro h
    cases h
  rename_i hinitialized
  split
  · intro h
    cases h
  rename_i hdataset
  split
  · intro h
    cases h
  rename_i haddress
  exact
    { enabled := Bool.not_eq_false _ ▸ henabled
      initialized := Bool.not_eq_false _ ▸ hinitialized
      dataset := Bool.not_eq_false _ ▸ hdataset
      address := Bool.not_eq_false _ ▸ haddress }

/-- A result that is kept for later is one of a corrupt file. -/
theorem corruptOf_corrupt (result : TerrainTileLookupResult) :
    Corrupt (corruptOf result) := by
  intro corrupt h
  unfold corruptOf at h
  split at h
  · rename_i hstatus
    cases h
    exact hstatus
  · cases h

/-- The first of two such results, if there is one. -/
theorem Corrupt.or {first second : Option TerrainTileLookupResult}
    (hfirst : Corrupt first) (hsecond : Corrupt second) :
    Corrupt (first.or second) := by
  cases first with
  | none => exact hsecond
  | some result => exact hfirst

/-- A read that is not the answer, or an answer that was asked for. -/
theorem readNormalizedTile_sound {file : TileFile}
    (h : (readNormalizedTile config key file).status = .ready) :
    Requested key (readNormalizedTile config key file).data := by
  obtain ⟨data, -, hrequested, -, heq⟩ := readNormalizedTile_ready.1 h
  rw [heq]
  exact hrequested

/-- A failed repair is no answer. -/
theorem unrepaired_status {corrupt : Option TerrainTileLookupResult}
    {fetched : TerrainTileLookupResult} (hcorrupt : Corrupt corrupt)
    (hfetched : fetched.status ≠ .ready) :
    (unrepaired corrupt fetched).status ≠ .ready := by
  cases corrupt with
  | none => exact hfetched
  | some result =>
      have hstatus : (unrepaired (some result) fetched).status
          = result.status := by
        simp only [unrepaired]
        split
        · rfl
        · rfl
      rw [hstatus, hcorrupt result rfl]
      simp

/-- The first read returns the tile or goes for the lock. -/
theorem afterFirstRead_inv (hadmitted : Admitted config key)
    (file : TileFile) : PhaseInv config key
      (afterFirstRead (readNormalizedTile config key file)) := by
  unfold afterFirstRead
  split
  · exact readNormalizedTile_sound
  · exact ⟨hadmitted, corruptOf_corrupt _⟩

/-- The read under the lock returns the tile or goes for the providers. -/
theorem afterLockedRead_inv {initial : Option TerrainTileLookupResult}
    (hadmitted : Admitted config key) (hinitial : Corrupt initial)
    (file : TileFile) : PhaseInv config key
      (afterLockedRead config initial
        (readNormalizedTile config key file)) := by
  unfold afterLockedRead
  split
  · exact readNormalizedTile_sound
  · exact ⟨hadmitted, (corruptOf_corrupt _).or hinitial⟩

/-- What is encoded of a fetched tile is what was asked for. -/
theorem encoded_requested {tile : TerrainTile} (htile : FetchedFor key tile)
    (h : encodeTerrainTile binary32 tile = .ok data) :
    Requested key data ∧ data.length ≤ maximumNormalizedTileBytes := by
  obtain ⟨hlength, decoded, hdecode, hdataset, haddress⟩ :=
    encode_accepted h htile.range
  refine ⟨⟨decoded, hdecode, hdataset.trans htile.dataset, ?_⟩, hlength⟩
  rw [haddress, htile.address]
  exact ⟨rfl, rfl, rfl⟩

/-- After a provider was asked, the call goes on, stores what was asked
for, or returns an error. -/
theorem afterFetch_inv {corrupt : Option TerrainTileLookupResult}
    (hadmitted : Admitted config key) (hcorrupt : Corrupt corrupt)
    (provider : TerrainProvider) (rest : List TerrainProvider)
    (sampling : Sampling) : PhaseInv config key
      (afterFetch corrupt provider rest (provider.fetchTile key sampling)) := by
  have herror : ∀ status message, status ≠ .ready → PhaseInv config key
      (.returning (unrepaired corrupt (failed status message))) :=
    fun status message hstatus hready =>
      absurd hready (unrepaired_status hcorrupt hstatus)
  unfold afterFetch
  split
  · exact ⟨hadmitted, hcorrupt⟩
  split
  · exact herror _ _ (by simp)
  split
  · rename_i tile _ htile
    split
    · rename_i encoded hencoded
      obtain ⟨hrequested, hlength⟩ :=
        encoded_requested (provider.fetched key sampling tile htile) hencoded
      exact ⟨hadmitted, hcorrupt, hrequested, hlength⟩
    · exact herror _ _ (by simp)
  · exact herror _ _ (by simp)

/-- A round of the providers keeps the key of its call. -/
theorem fetchRound_key (call : Call)
    (corrupt : Option TerrainTileLookupResult) (rest : List TerrainProvider)
    (datasetSupported addressSupported : Bool) (sampling : Bool → Sampling) :
    (fetchRound config call corrupt rest datasetSupported addressSupported
      sampling).key = call.key := by
  unfold fetchRound
  split
  · rfl
  · split
    · rfl
    · split
      · rfl
      · rfl

/-- It ends with a tile to store, the next provider, or none left. -/
theorem fetchRound_inv {call : Call}
    {corrupt : Option TerrainTileLookupResult}
    (hadmitted : Admitted config call.key) (hcorrupt : Corrupt corrupt)
    (rest : List TerrainProvider) (datasetSupported addressSupported : Bool)
    (sampling : Bool → Sampling) : PhaseInv config call.key
      (fetchRound config call corrupt rest datasetSupported addressSupported
        sampling).phase := by
  unfold fetchRound
  split
  · intro hready
    have hstatus : (exhausted call.key datasetSupported
        addressSupported).status ≠ .ready := by
      rw [exhausted_status]
      simp
    exact absurd hready (unrepaired_status hcorrupt hstatus)
  · split
    · exact ⟨hadmitted, hcorrupt⟩
    · split
      · exact ⟨hadmitted, hcorrupt⟩
      · exact afterFetch_inv hadmitted hcorrupt _ _ _

/-- Every call is as its phase says. -/
def CallsInv (config : Config) (s : Store) : Prop :=
  ∀ id call, s.calls id = some call → PhaseInv config call.key call.phase

/-- One call moves, the others stay. -/
theorem CallsInv.setCall {id : Nat} {call : Call} (h : CallsInv config s)
    (hcall : PhaseInv config call.key call.phase) :
    CallsInv config (s.setCall id call) := by
  intro other call' hcall'
  rcases Store.setCall_inv hcall' with ⟨-, rfl⟩ | ⟨-, hold⟩
  · exact hcall
  · exact h other call' hold

/-- A step keeps what the phases say: files and locks do not matter. -/
theorem callsInv_step (hstep : Step config s a s') (h : CallsInv config s) :
    CallsInv config s' := by
  cases hstep with
  | called id key allowRemoteFetch hfree =>
      exact h.setCall (checkedPhase_inv config key)
  | firstRead id call seen hcall hphase =>
      have hinv := h id call hcall
      rw [hphase] at hinv
      exact h.setCall (afterFirstRead_inv hinv _)
  | lockedRead id call seen initial hcall hphase =>
      have hinv := h id call hcall
      rw [hphase] at hinv
      exact h.setCall (afterLockedRead_inv hinv.1 hinv.2 _)
  | unlocked id call outcome initial result hcall hphase hresult =>
      exact h.setCall fun hready => absurd hready hresult
  | locked id call initial hcall hphase hfree =>
      have hinv := h id call hcall
      rw [hphase] at hinv
      have hlocks : CallsInv config (s.setLock call.key (some id)) := h
      exact hlocks.setCall hinv
  | fetched id call corrupt rest datasetSupported addressSupported sampling
      hcall hphase =>
      have hinv := h id call hcall
      rw [hphase] at hinv
      apply h.setCall
      rw [fetchRound_key]
      exact fetchRound_inv hinv.1 hinv.2 _ _ _ _
  | unstored id call outcome corrupt encoded origin result hcall hphase _
      hresult =>
      have hinv := h id call hcall
      rw [hphase] at hinv
      exact h.setCall fun hready =>
        absurd hready (unrepaired_status hinv.2.1 hresult)
  | stored id call corrupt encoded origin hcall hphase =>
      have hinv := h id call hcall
      rw [hphase] at hinv
      have hfiles : CallsInv config
          (s.setFile call.key (.readable encoded)) := h
      exact hfiles.setCall fun _ => hinv.2.2.1
  | returned id call result hcall hphase =>
      have hinv := h id call hcall
      rw [hphase] at hinv
      have hlocks : CallsInv config (s.release id call.key) := by
        intro other call' hcall'
        rw [Store.release_calls] at hcall'
        exact h other call' hcall'
      exact hlocks.setCall hinv
  | died id call hcall => exact h.setCall trivial
  | broken key => exact h
  | deleted key => exact h
  | changed key file => exact h

/-- In every run, whatever the files hold at first. -/
theorem callsInv_run {files : TileKey → TileFile}
    (hrun : Run (next config) anyStep (.init files) s) : CallsInv config s :=
  hrun.invariant (fun id call hcall => by cases hcall)
    fun _ _ _ hinv _ hnext => callsInv_step (next_step hnext) hinv

-- ==================================================== files left as they are

/-- Nobody deletes or changes the file of a tile from outside, not even
while it is being read. -/
def Untouched (key : TileKey) : Action → Store → Prop
  | .read id seen, s => seen ≠ none →
      ∀ call, s.calls id = some call → call.key ≠ key
  | .delete other, _ => other ≠ key
  | .change other _, _ => other ≠ key
  | _, _ => True

/-- Nor is it filled. -/
def LeavesAlone (key : TileKey) (a : Action) (s : Store) : Prop :=
  Untouched key a s ∧ ∀ id call, a = .store id .committed →
    s.calls id = some call → call.key ≠ key

/-- A file that is left alone stays. -/
theorem files_step (hstep : Step config s a s') (h : LeavesAlone key a s) :
    s'.files key = s.files key := by
  obtain ⟨huntouched, hunfilled⟩ := h
  cases hstep with
  | stored id call corrupt encoded origin hcall hphase =>
      have hne := hunfilled id call rfl hcall
      exact Function.update_of_ne (Ne.symm hne) ..
  | returned id call result hcall hphase =>
      show (s.release id call.key).files key = s.files key
      rw [Store.release_files]
  | deleted other => exact Function.update_of_ne (Ne.symm huntouched) ..
  | changed other file => exact Function.update_of_ne (Ne.symm huntouched) ..
  | called | firstRead | lockedRead | unlocked | locked | fetched | unstored
  | died | broken => rfl

/-- What a call sees of a file that is left alone. -/
theorem seen_untouched {id : Nat} {call : Call} {seen : Option TileFile}
    (h : Untouched key (.read id seen) s) (hcall : s.calls id = some call)
    (hkey : call.key = key) : seen.getD (s.files call.key) = s.files key := by
  cases seen with
  | none => rw [hkey, Option.getD_none]
  | some file => exact absurd hkey (h (Option.some_ne_none file) call hcall)

-- ======================================================= calls that serve

/-- A call that serves `data`: it asks nobody, and it is about to read the
file, or on its way back with the data, or gone. -/
structure Serves (data : Bytes) (call : Call) : Prop where
  asked : call.asked = 0
  phase : call.phase = .starting ∨
    call.phase = .returning (ready data .cache) ∨
    call.phase = .returned (ready data .cache) ∨ call.phase = .died

/-- The file holds the data, and the calls that were not there `before`
serve them. -/
structure Later (key : TileKey) (data : Bytes) (before s : Store) : Prop where
  file : s.files key = .readable data
  serves : ∀ id call, before.calls id = none → s.calls id = some call →
    call.key = key → Serves data call

/-- One call moves, into a phase that serves if it had to. -/
theorem Later.setCall {before s₁ : Store} {id : Nat} {call : Call}
    (h : Later key data before s) (hfile : s₁.files key = s.files key)
    (hcalls : s₁.calls = s.calls)
    (hcall : before.calls id = none → call.key = key → Serves data call) :
    Later key data before (s₁.setCall id call) where
  file := hfile.trans h.file
  serves other call' hbefore hcall' hkey := by
    rcases Store.setCall_inv hcall' with ⟨rfl, rfl⟩ | ⟨-, hold⟩
    · exact hcall hbefore hkey
    · rw [hcalls] at hold
      exact h.serves other call' hbefore hold hkey

/-- A call that serves is in no phase on the way to a store. -/
theorem Serves.not_phase {call : Call} (h : Serves data call) {phase : Phase}
    (hphase : call.phase = phase) : phase = .starting ∨
      phase = .returning (ready data .cache) ∨
      phase = .returned (ready data .cache) ∨ phase = .died :=
  hphase ▸ h.phase

/-- As long as the file is left alone, later calls serve what it holds. -/
theorem later_step {before : Store} (hadmitted : Admitted config key)
    (hrequested : Requested key data)
    (hsize : data.length ≤ maximumNormalizedTileBytes)
    (hstep : Step config s a s') (halone : LeavesAlone key a s)
    (h : Later key data before s) : Later key data before s' := by
  have hfiles := files_step hstep halone
  have hread := @readNormalizedTile_stored config key data hrequested hsize
  cases hstep with
  | called id other allowRemoteFetch hfree =>
      refine h.setCall rfl rfl fun _ hkey => ⟨rfl, Or.inl ?_⟩
      have heq : other = key := hkey
      rw [heq]
      exact checkedPhase_admitted hadmitted
  | firstRead id call seen hcall hphase =>
      refine h.setCall rfl rfl fun hbefore hkey => ?_
      have hserves := h.serves id call hbefore hcall hkey
      refine ⟨hserves.asked, Or.inr (Or.inl ?_)⟩
      have heq : call.key = key := hkey
      show afterFirstRead (readNormalizedTile config call.key
        (seen.getD (s.files call.key))) = _
      rw [seen_untouched halone.1 hcall heq, heq, h.file, hread]
      rfl
  | lockedRead id call seen initial hcall hphase =>
      refine h.setCall rfl rfl fun hbefore hkey => ?_
      have hserves := h.serves id call hbefore hcall hkey
      simpa using hserves.not_phase hphase
  | unlocked id call outcome initial result hcall hphase _ =>
      refine h.setCall rfl rfl fun hbefore hkey => ?_
      have hserves := h.serves id call hbefore hcall hkey
      simpa using hserves.not_phase hphase
  | locked id call initial hcall hphase hfree =>
      refine h.setCall rfl rfl fun hbefore hkey => ?_
      have hserves := h.serves id call hbefore hcall hkey
      simpa using hserves.not_phase hphase
  | fetched id call corrupt rest datasetSupported addressSupported sampling
      hcall hphase =>
      refine h.setCall rfl rfl fun hbefore hkey => ?_
      rw [fetchRound_key] at hkey
      have hserves := h.serves id call hbefore hcall hkey
      simpa using hserves.not_phase hphase
  | unstored id call outcome corrupt encoded origin result hcall hphase _ _ =>
      refine h.setCall rfl rfl fun hbefore hkey => ?_
      have hserves := h.serves id call hbefore hcall hkey
      simpa using hserves.not_phase hphase
  | stored id call corrupt encoded origin hcall hphase =>
      refine h.setCall hfiles rfl fun hbefore hkey => ?_
      exact absurd hkey (halone.2 id call rfl hcall)
  | returned id call result hcall hphase =>
      refine h.setCall hfiles (Store.release_calls _ _ _)
        fun hbefore hkey => ?_
      have hserves := h.serves id call hbefore hcall hkey
      refine ⟨hserves.asked, Or.inr (Or.inr (Or.inl ?_))⟩
      have hresult : result = ready data .cache := by
        simpa using hserves.not_phase hphase
      rw [hresult]
  | died id call hcall =>
      refine h.setCall rfl rfl fun hbefore hkey => ?_
      have hserves := h.serves id call hbefore hcall hkey
      exact ⟨hserves.asked, Or.inr (Or.inr (Or.inr rfl))⟩
  | broken other => exact ⟨h.file, h.serves⟩
  | deleted other => exact ⟨hfiles.trans h.file, h.serves⟩
  | changed other file => exact ⟨hfiles.trans h.file, h.serves⟩

/-- A later call that is alive is never kept from returning the data: it
needs no step but its own. -/
theorem serves_returns {before : Store} {id : Nat} {call : Call}
    (hrequested : Requested key data)
    (hsize : data.length ≤ maximumNormalizedTileBytes)
    (h : Later key data before s) (hbefore : before.calls id = none)
    (hcall : s.calls id = some call) (hkey : call.key = key)
    (halive : call.phase ≠ .died) : ∃ s₁ call₁,
      Run (next config) (LeavesAlone key) s s₁ ∧
        s₁.calls id = some call₁ ∧
        call₁.phase = .returned (ready data .cache) := by
  have halone : ∀ (s₁ : Store), LeavesAlone key (.ret id) s₁ :=
    fun s₁ => ⟨trivial, fun _ _ heq => by cases heq⟩
  have hreturn : ∀ (s₁ : Store) (call₁ : Call), s₁.calls id = some call₁ →
      call₁.phase = .returning (ready data .cache) →
      ∃ s₂ call₂, Run (next config) (LeavesAlone key) s₁ s₂ ∧
        s₂.calls id = some call₂ ∧
        call₂.phase = .returned (ready data .cache) := by
    intro s₁ call₁ hcall₁ hphase
    refine ⟨(s₁.release id call₁.key).move id call₁
      (.returned (ready data .cache)), _, Run.single (halone s₁) ?_,
      Store.setCall_self _ _ _, rfl⟩
    simp [next, hcall₁, retStep, hphase]
  rcases (h.serves id call hbefore hcall hkey).phase with
    hphase | hphase | hphase | hphase
  · have hread := @readNormalizedTile_stored config key data hrequested hsize
    have hnext : next config (.read id none) s
        = some (s.move id call (.returning (ready data .cache))) := by
      simp [next, hcall, readStep, hphase, hkey, h.file, hread,
        afterFirstRead, settles, ready]
    have hfirst : LeavesAlone key (.read id none) s :=
      ⟨fun hseen => absurd rfl hseen, fun _ _ heq => by cases heq⟩
    obtain ⟨s₂, call₂, hrun, hcall₂, hphase₂⟩ := hreturn
      (s.move id call (.returning (ready data .cache)))
      { call with phase := .returning (ready data .cache) }
      (Store.setCall_self _ _ _) rfl
    exact ⟨s₂, call₂, (Run.single hfirst hnext).trans hrun, hcall₂, hphase₂⟩
  · exact hreturn s call hcall hphase
  · exact ⟨s, call, .refl, hcall, hphase⟩
  · exact absurd hphase halive

-- ============================================================== the lock

/-- Nobody breaks the lock of a tile while its holder lives. -/
def KeepsLock (key : TileKey) : Action → Store → Prop
  | .breakLock other, s => other = key → ∀ id call,
      s.locks key = some id → s.calls id = some call → call.phase = .died
  | _, _ => True

/-- The phases of a call that has read its file under the lock, or is
about to. -/
def Phase.locks : Phase → Bool
  | .locked _ | .fetching _ _ _ _ | .storing _ _ _ => true
  | _ => false

/-- The phases on the way to a store. -/
def Phase.fills : Phase → Bool
  | .fetching _ _ _ _ | .storing _ _ _ => true
  | _ => false

/-- The checks are made without the lock. -/
theorem checkedPhase_locks (config : Config) (key : TileKey) :
    (checkedPhase config key).locks = false := by
  unfold checkedPhase
  repeat' split
  all_goals rfl

/-- So is the first read. -/
theorem afterFirstRead_locks (result : TerrainTileLookupResult) :
    (afterFirstRead result).locks = false := by
  unfold afterFirstRead
  split
  · rfl
  · rfl

/-- Who fills in a tile holds the lock. -/
theorem fills_locks {phase : Phase} (h : phase.locks = false) :
    phase.fills = false := by
  cases phase with
  | locked _ | fetching _ _ _ _ | storing _ _ _ => cases h
  | starting | locking _ | returning _ | returned _ | died => rfl

/-- The calls past the lock of a tile hold it. -/
def Exclusive (key : TileKey) (s : Store) : Prop :=
  ∀ id call, s.calls id = some call → call.key = key →
    call.phase.locks = true → s.locks key = some id

/-- One call moves, and keeps the lock if it has to. -/
theorem Exclusive.setCall {s₁ : Store} {id : Nat} {call : Call}
    (hcalls : s₁.calls = s.calls)
    (hothers : ∀ other call', other ≠ id → s.calls other = some call' →
      call'.key = key → call'.phase.locks = true → s₁.locks key = some other)
    (hcall : call.key = key → call.phase.locks = true →
      s₁.locks key = some id) : Exclusive key (s₁.setCall id call) := by
  intro other call' hcall' hkey hlocks
  rcases Store.setCall_inv hcall' with ⟨rfl, rfl⟩ | ⟨hne, hold⟩
  · exact hcall hkey hlocks
  · rw [hcalls] at hold
    exact hothers other call' hne hold hkey hlocks

/-- Giving back a lock does not take it from others. -/
theorem release_locks {id other : Nat} {key' : TileKey} (hne : other ≠ id)
    (h : s.locks key = some other) :
    (s.release id key').locks key = some other := by
  unfold Store.release
  split
  · rename_i hheld
    have hkey : key ≠ key' := by
      intro heq
      rw [← heq, h] at hheld
      exact hne (Option.some.inj hheld)
    exact (Function.update_of_ne hkey ..).trans h
  · exact h

/-- Every step keeps the calls past the lock holding it. -/
theorem exclusive_step (hstep : Step config s a s') (hkeeps : KeepsLock key a s)
    (h : Exclusive key s) : Exclusive key s' := by
  have hothers : ∀ {id : Nat} (other : Nat) (call' : Call), other ≠ id →
      s.calls other = some call' → call'.key = key →
      call'.phase.locks = true → s.locks key = some other :=
    fun other call' _ => h other call'
  have hstays : ∀ {id : Nat} {call : Call} {phase : Phase},
      s.calls id = some call → call.phase = phase → phase.locks = true →
      call.key = key → s.locks key = some id :=
    fun hcall hphase hlocks hkey => h _ _ hcall hkey (hphase ▸ hlocks)
  cases hstep with
  | called id other allowRemoteFetch hfree =>
      refine Exclusive.setCall rfl hothers fun _ hlocks => ?_
      rw [checkedPhase_locks] at hlocks
      cases hlocks
  | firstRead id call seen hcall hphase =>
      refine Exclusive.setCall rfl hothers fun _ hlocks => ?_
      rw [afterFirstRead_locks] at hlocks
      cases hlocks
  | lockedRead id call seen initial hcall hphase =>
      exact Exclusive.setCall rfl hothers
        fun hkey _ => hstays hcall hphase rfl hkey
  | unlocked id call outcome initial result hcall hphase hresult =>
      exact Exclusive.setCall rfl hothers fun _ hlocks => by cases hlocks
  | locked id call initial hcall hphase hfree =>
      refine Exclusive.setCall rfl ?_ ?_
      · intro other call' hne hcall' hkey hlocks
        have hheld := h other call' hcall' hkey hlocks
        have hkey' : key ≠ call.key := by
          intro heq
          rw [heq, hfree] at hheld
          cases hheld
        exact (Function.update_of_ne hkey' ..).trans hheld
      · intro hkey _
        have heq : call.key = key := hkey
        rw [← heq]
        exact Function.update_self ..
  | fetched id call corrupt rest datasetSupported addressSupported sampling
      hcall hphase =>
      refine Exclusive.setCall rfl hothers fun hkey _ => ?_
      rw [fetchRound_key] at hkey
      exact hstays hcall hphase rfl hkey
  | unstored id call outcome corrupt encoded origin result hcall hphase _ _ =>
      exact Exclusive.setCall rfl hothers fun _ hlocks => by cases hlocks
  | stored id call corrupt encoded origin hcall hphase =>
      exact Exclusive.setCall rfl hothers fun _ hlocks => by cases hlocks
  | returned id call result hcall hphase =>
      refine Exclusive.setCall (Store.release_calls _ _ _) ?_
        fun _ hlocks => by cases hlocks
      intro other call' hne hcall' hkey hlocks
      exact release_locks hne (h other call' hcall' hkey hlocks)
  | died id call hcall =>
      exact Exclusive.setCall rfl hothers fun _ hlocks => by cases hlocks
  | broken other =>
      intro id call hcall hkey hlocks
      have hheld := h id call hcall hkey hlocks
      by_cases heq : other = key
      · -- the holder would have to be dead
        have hdied := hkeeps heq id call hheld hcall
        rw [hdied] at hlocks
        cases hlocks
      · exact (Function.update_of_ne (Ne.symm heq) ..).trans hheld
  | deleted other => exact h
  | changed other file => exact h

/-- In every run in which nobody takes the lock file away. -/
theorem exclusive_run {files : TileKey → TileFile}
    (hrun : Run (next config) (KeepsLock key) (.init files) s) :
    Exclusive key s :=
  hrun.invariant (fun id call hcall => by cases hcall)
    fun _ _ _ hinv hkeeps hnext =>
      exclusive_step (next_step hnext) hkeeps hinv

-- =============================================================== quiet

/-- The providers a call has asked, none before it began. -/
def Store.asked (s : Store) (id : Nat) : Nat :=
  (s.calls id).elim 0 Call.asked

/-- The file holds the data, no call is on the way to a store, and no
provider was asked since `before`. -/
structure Quiet (key : TileKey) (data : Bytes) (before s : Store) : Prop where
  file : s.files key = .readable data
  fills : ∀ id call, s.calls id = some call → call.key = key →
    call.phase.fills = false
  asked : ∀ id call, s.calls id = some call → call.key = key →
    call.asked = before.asked id
  present : ∀ id, before.calls id ≠ none → s.calls id ≠ none

/-- One call moves, off the way to a store. -/
theorem Quiet.setCall {before s₁ : Store} {id : Nat} {call : Call}
    (h : Quiet key data before s) (hfile : s₁.files key = s.files key)
    (hcalls : s₁.calls = s.calls)
    (hcall : call.key = key →
      call.phase.fills = false ∧ call.asked = before.asked id) :
    Quiet key data before (s₁.setCall id call) where
  file := hfile.trans h.file
  fills other call' hcall' hkey := by
    rcases Store.setCall_inv hcall' with ⟨rfl, rfl⟩ | ⟨-, hold⟩
    · exact (hcall hkey).1
    · rw [hcalls] at hold
      exact h.fills other call' hold hkey
  asked other call' hcall' hkey := by
    rcases Store.setCall_inv hcall' with ⟨rfl, rfl⟩ | ⟨-, hold⟩
    · exact (hcall hkey).2
    · rw [hcalls] at hold
      exact h.asked other call' hold hkey
  present other hpresent := by
    by_cases heq : other = id
    · rw [heq, Store.setCall_self]
      exact Option.some_ne_none call
    · rw [Store.setCall_of_ne s₁ call heq, hcalls]
      exact h.present other hpresent

/-- While the tile is quiet, nothing but an outside change could touch its
file. -/
theorem Quiet.leavesAlone {before : Store} (h : Quiet key data before s)
    (hstep : Step config s a s') (huntouched : Untouched key a s) :
    LeavesAlone key a s := by
  refine ⟨huntouched, ?_⟩
  rintro id call rfl hcall hkey
  have hfills := h.fills id call hcall hkey
  cases hstep with
  | stored _ other corrupt encoded origin hcall' hphase =>
      rw [hcall] at hcall'
      rw [Option.some.inj hcall', hphase] at hfills
      cases hfills
  | unstored _ other _ _ _ _ _ _ _ hne _ => exact hne rfl

/-- A read under the lock finds the data, so it is the answer. -/
theorem quiet_step {before : Store} (hrequested : Requested key data)
    (hsize : data.length ≤ maximumNormalizedTileBytes)
    (hstep : Step config s a s') (huntouched : Untouched key a s)
    (h : Quiet key data before s) : Quiet key data before s' := by
  have hfiles := files_step hstep (h.leavesAlone hstep huntouched)
  have hread := @readNormalizedTile_stored config key data hrequested hsize
  cases hstep with
  | called id other allowRemoteFetch hfree =>
      refine h.setCall rfl rfl fun _ => ⟨fills_locks (checkedPhase_locks _ _),
        ?_⟩
      have hnew : before.calls id = none :=
        not_not.1 fun hpresent => h.present id hpresent hfree
      rw [Store.asked, hnew]
      rfl
  | firstRead id call seen hcall hphase =>
      exact h.setCall rfl rfl fun hkey =>
        ⟨fills_locks (afterFirstRead_locks _), h.asked id call hcall hkey⟩
  | lockedRead id call seen initial hcall hphase =>
      refine h.setCall rfl rfl fun hkey => ⟨?_, h.asked id call hcall hkey⟩
      have heq : call.key = key := hkey
      show (afterLockedRead config initial (readNormalizedTile config call.key
        (seen.getD (s.files call.key)))).fills = false
      rw [seen_untouched huntouched hcall heq, heq, h.file, hread]
      rfl
  | unlocked id call outcome initial result hcall hphase _ =>
      exact h.setCall rfl rfl fun hkey => ⟨rfl, h.asked id call hcall hkey⟩
  | locked id call initial hcall hphase hfree =>
      exact h.setCall rfl rfl fun hkey => ⟨rfl, h.asked id call hcall hkey⟩
  | fetched id call corrupt rest datasetSupported addressSupported sampling
      hcall hphase =>
      refine h.setCall rfl rfl fun hkey => ?_
      rw [fetchRound_key] at hkey
      have hfills := h.fills id call hcall hkey
      rw [hphase] at hfills
      cases hfills
  | unstored id call outcome corrupt encoded origin result hcall hphase _ _ =>
      exact h.setCall rfl rfl fun hkey => ⟨rfl, h.asked id call hcall hkey⟩
  | stored id call corrupt encoded origin hcall hphase =>
      exact h.setCall hfiles rfl fun hkey =>
        ⟨rfl, h.asked id call hcall hkey⟩
  | returned id call result hcall hphase =>
      exact h.setCall hfiles (Store.release_calls _ _ _) fun hkey =>
        ⟨rfl, h.asked id call hcall hkey⟩
  | died id call hcall =>
      exact h.setCall rfl rfl fun hkey => ⟨rfl, h.asked id call hcall hkey⟩
  | broken other => exact ⟨h.file, h.fills, h.asked, h.present⟩
  | deleted other =>
      exact ⟨hfiles.trans h.file, h.fills, h.asked, h.present⟩
  | changed other file =>
      exact ⟨hfiles.trans h.file, h.fills, h.asked, h.present⟩

-- =============================================================== fills

/-- A step by which a call stores data in the file of a tile and is about
to return them, `Ready`. -/
structure Fills (config : Config) (id : Nat) (key : TileKey) (data : Bytes)
    (s s' : Store) : Prop where
  step : next config (.store id .committed) s = some s'
  result : ∃ call origin, s'.calls id = some call ∧ call.key = key ∧
    call.phase = .returning (ready data origin)

/-- What a fill does, and what is known of the call it belongs to. -/
theorem fills_inv {id : Nat} (h : Fills config id key data s s') :
    ∃ call corrupt origin, s.calls id = some call ∧ call.key = key ∧
      call.phase = .storing corrupt data origin ∧
      s' = (s.setFile key (.readable data)).move id call
        (.returning (ready data origin)) := by
  obtain ⟨call', origin', hcall', hkey', hphase'⟩ := h.result
  have hstep := next_step h.step
  cases hstep with
  | stored _ call corrupt encoded origin hcall hphase =>
      rw [Store.move, Store.setCall_self] at hcall'
      cases hcall'
      cases hphase'
      subst hkey'
      exact ⟨call, corrupt, origin', hcall, rfl, hphase, rfl⟩
  | unstored _ _ _ _ _ _ _ _ _ hne _ => exact absurd rfl hne

/-- What was filled is what was asked for, by a call that passed the
checks. -/
theorem fills_requested {id : Nat} (h : Fills config id key data s s')
    (hinv : CallsInv config s) : Admitted config key ∧ Requested key data ∧
      data.length ≤ maximumNormalizedTileBytes := by
  obtain ⟨call, corrupt, origin, hcall, hkey, hphase, -⟩ := fills_inv h
  have hcallInv := hinv id call hcall
  rw [hphase, hkey] at hcallInv
  exact ⟨hcallInv.1, hcallInv.2.2.1, hcallInv.2.2.2⟩

/-- The file of a tile after a fill. -/
theorem fills_file {id : Nat} (h : Fills config id key data s s') :
    s'.files key = .readable data := by
  obtain ⟨call, corrupt, origin, -, -, -, rfl⟩ := fills_inv h
  exact Function.update_self ..

/-- A fill leaves no other call of its tile past the lock. -/
theorem fills_quiet {id : Nat} (h : Fills config id key data s s')
    (hexclusive : Exclusive key s) : Quiet key data s' s' where
  file := fills_file h
  fills other call' hcall' hkey := by
    obtain ⟨call, corrupt, origin, hcall, hkey', hphase, rfl⟩ := fills_inv h
    rcases Store.setCall_inv hcall' with ⟨-, rfl⟩ | ⟨hne, hold⟩
    · rfl
    · apply fills_locks
      rw [Bool.eq_false_iff]
      intro hlocks
      have hother := hexclusive other call' hold hkey hlocks
      have hself := hexclusive id call hcall hkey' (by rw [hphase]; rfl)
      rw [hself] at hother
      exact hne (Option.some.inj hother).symm
  asked other call' hcall' hkey := by
    rw [Store.asked, hcall']
    rfl
  present other hpresent := hpresent

-- ============================================================== integrity

/-- The store keeps its integrity. In every run, every `Ready` result
carries bytes that are accepted and name what was asked for. After a fill,
as long as the file is left alone, the calls that begin later return what
was filled, are not kept from returning it and ask no provider. And where
no lock of the tile is broken while its holder lives, nothing but somebody
else can touch the file after a fill: then no call at all asks a provider
for the tile, or stores it again. -/
theorem store_integrity (config : Config) (files : TileKey → TileFile) :
    (∀ s, Run (next config) anyStep (.init files) s →
      ∀ id call result, s.calls id = some call →
        call.phase = .returned result → result.status = .ready →
        Requested call.key result.data) ∧
    (∀ s₁ s₂ s₃ filler key data,
      Run (next config) anyStep (.init files) s₁ →
      Fills config filler key data s₁ s₂ →
      Run (next config) (LeavesAlone key) s₂ s₃ →
      ∀ id call, s₂.calls id = none → s₃.calls id = some call →
        call.key = key →
        Serves data call ∧ (call.phase ≠ .died → ∃ s₄ call₄,
          Run (next config) (LeavesAlone key) s₃ s₄ ∧
          s₄.calls id = some call₄ ∧
          call₄.phase = .returned (ready data .cache))) ∧
    ∀ s₁ s₂ s₃ filler key data,
      Run (next config) (KeepsLock key) (.init files) s₁ →
      Fills config filler key data s₁ s₂ →
      Run (next config) (Untouched key) s₂ s₃ →
      Run (next config) (LeavesAlone key) s₂ s₃ ∧
        ∀ id call, s₃.calls id = some call → call.key = key →
          call.asked = s₂.asked id := by
  refine ⟨?_, ?_, ?_⟩
  · intro s hrun id call result hcall hphase hready
    have hinv := callsInv_run hrun id call hcall
    rw [hphase] at hinv
    exact hinv hready
  · intro s₁ s₂ s₃ filler key data hrun hfills hrest id call hbefore hcall
      hkey
    obtain ⟨hadmitted, hrequested, hsize⟩ :=
      fills_requested hfills (callsInv_run hrun)
    have hlater : Later key data s₂ s₃ := by
      refine hrest.invariant ?_ fun a u u' hinv halone hnext =>
        later_step hadmitted hrequested hsize (next_step hnext) halone hinv
      refine ⟨fills_file hfills, fun other call' hnone hsome => ?_⟩
      rw [hnone] at hsome
      cases hsome
    exact ⟨hlater.serves id call hbefore hcall hkey,
      serves_returns hrequested hsize hlater hbefore hcall hkey⟩
  · intro s₁ s₂ s₃ filler key data hrun hfills hrest
    obtain ⟨-, hrequested, hsize⟩ := fills_requested hfills
      (callsInv_run (hrun.mono fun _ _ _ => trivial))
    have hquiet : Quiet key data s₂ s₃ ∧
        Run (next config) (LeavesAlone key) s₂ s₃ := by
      refine hrest.invariant (P := fun u => Quiet key data s₂ u ∧
          Run (next config) (LeavesAlone key) s₂ u)
        ⟨fills_quiet hfills (exclusive_run hrun), .refl⟩ ?_
      intro a u u' hinv huntouched hnext
      have hstep := next_step hnext
      exact ⟨quiet_step hrequested hsize hstep huntouched hinv.1,
        hinv.2.step a (hinv.1.leavesAlone hstep huntouched) hnext⟩
    exact ⟨hquiet.2, hquiet.1.asked⟩

-- ============================================================ a first call

/-- The only call so far, over a missing file, with its lock free until it
is taken. -/
structure Alone (key : TileKey) (call : Call) (s : Store) : Prop where
  file : s.files key = .missing
  lock : call.phase.locks = false → s.locks key = none
  calls : s.calls = Function.update (fun _ => none) 0 (some call)

/-- The one call there is. -/
theorem Alone.call {call : Call} (h : Alone key call s) :
    s.calls 0 = some call := by
  rw [h.calls]
  exact Function.update_self ..

/-- The only call moves. -/
theorem Alone.setCall {call call' : Call} {s₁ : Store}
    (h : Alone key call s) (hfile : s₁.files = s.files)
    (hcalls : s₁.calls = s.calls)
    (hlock : call'.phase.locks = false → s₁.locks key = none) :
    Alone key call' (s₁.setCall 0 call') where
  file := by
    rw [Store.setCall_files, hfile]
    exact h.file
  lock := hlock
  calls := by
    show Function.update s₁.calls 0 (some call') = _
    rw [hcalls, h.calls]
    exact Function.update_idem ..

/-- A call for a missing tile fills it, if it gets the lock and its
provider has samples. -/
theorem cold_fill {samples : GridSamples} {downloadedAnySource : Bool}
    {tile : TerrainTile} (hadmitted : Admitted config key)
    (hproviders : config.copernicusEnabled = true)
    (hsupports : Copernicus.supportsAddress key = true)
    (hfetched : Copernicus.fetchTile key
      (.sampled samples downloadedAnySource) =
        { status := .ready
          errorMessage := ""
          tile := some tile
          origin := .remote })
    (hencode : encodeTerrainTile binary32 tile = .ok data) : ∃ s₁ s₂,
      Run (next config) anyStep (.init fun _ => .missing) s₁ ∧
        Fills config 0 key data s₁ s₂ ∧ s₂.calls 1 = none := by
  have hdataset : Copernicus.supportsDataset key.dataset = true := by
    simp only [Copernicus.supportsAddress, Bool.and_eq_true] at hsupports
    exact hsupports.1.1.1
  have hmissing : readNormalizedTile config key .missing
      = failed .tileUnavailable "Normalized terrain tile is not cached" := rfl
  -- the call, its first read, the lock, the second read and the provider
  obtain ⟨s₁, hrun₁, hs₁⟩ : ∃ s, Run (next config) anyStep
      (.init fun _ => .missing) s ∧ Alone key ⟨key, true, .starting, 0⟩ s := by
    refine ⟨_, Run.single (a := .call 0 key true) trivial rfl, rfl,
      fun _ => rfl, ?_⟩
    rw [checkedPhase_admitted hadmitted]
    rfl
  obtain ⟨s₂, hrun₂, hs₂⟩ : ∃ s, Run (next config) anyStep s₁ s ∧
      Alone key ⟨key, true, .locking none, 0⟩ s := by
    refine ⟨_, Run.single (a := .read 0 none) trivial ?_,
      hs₁.setCall rfl rfl fun _ => hs₁.lock rfl⟩
    simp [next, hs₁.call, hs₁.file, readStep, hmissing, afterFirstRead,
      settles, corruptOf, Store.move]
  obtain ⟨s₃, hrun₃, hs₃⟩ : ∃ s, Run (next config) anyStep s₂ s ∧
      Alone key ⟨key, true, .locked none, 0⟩ s := by
    refine ⟨_, Run.single (a := .lock 0 .taken) trivial ?_,
      @Alone.setCall s₂ key _ _ (s₂.setLock key (some 0)) hs₂ rfl rfl
        fun hlocks => by cases hlocks⟩
    simp [next, hs₂.call, lockStep, hs₂.lock rfl, Store.move]
  obtain ⟨s₄, hrun₄, hs₄⟩ : ∃ s, Run (next config) anyStep s₃ s ∧
      Alone key
        ⟨key, true, .fetching none [Copernicus.provider] false false, 0⟩ s := by
    refine ⟨_, Run.single (a := .read 0 none) trivial ?_,
      hs₃.setCall rfl rfl fun hlocks => by cases hlocks⟩
    simp [next, hs₃.call, hs₃.file, readStep, hmissing, afterLockedRead,
      settles, corruptOf, Store.move, Config.providers, hproviders]
  obtain ⟨s₅, hrun₅, hs₅⟩ : ∃ s, Run (next config) anyStep s₄ s ∧
      Alone key ⟨key, true, .storing none data .remote, 1⟩ s := by
    refine ⟨_, Run.single (a := .fetch 0 fun _ =>
      .sampled samples downloadedAnySource) trivial ?_,
      hs₄.setCall rfl rfl fun hlocks => by cases hlocks⟩
    simp [next, hs₄.call, fetchStep, fetchRound, Copernicus.provider,
      hdataset, hsupports, hfetched, afterFetch, hencode]
  -- and the store
  refine ⟨s₅, (s₅.setFile key (.readable data)).move 0
      ⟨key, true, .storing none data .remote, 1⟩
      (.returning (ready data .remote)),
    (((hrun₁.trans hrun₂).trans hrun₃).trans hrun₄).trans hrun₅,
    ⟨?_, _, .remote, Store.setCall_self _ _ _, rfl, rfl⟩, ?_⟩
  · simp [next, hs₅.call, storeStep, StoreOutcome.failure, Store.move]
  · rw [Store.move, Store.setCall_of_ne _ _ Nat.one_ne_zero,
      Store.setFile_calls, hs₅.calls]
    rfl

/-- A tile in the Alps. -/
def alpineKey : TileKey where
  dataset := "copernicus-glo30"
  address :=
    { zoom := 8
      x := 134
      y := 90 }

/-- One elevation and no-data everywhere else. -/
def oneSample : GridSamples where
  elevations := some (.finite 1) :: List.replicate 4224 none
  count := by
    rw [List.length_cons, List.length_replicate]
    rfl
  range := by
    intro value hmem
    rcases List.mem_cons.1 hmem with heq | hnone
    · cases heq
      norm_num [FloatValue.maximum]
    · rw [List.mem_replicate] at hnone
      exact absurd hnone.2 (by simp)

/-- The sampled tile passes its check. -/
theorem alpineTile_valid : isValidTerrainTile
    (Copernicus.sampledTile alpineKey oneSample) = true := by
  decide +kernel

/-- The Alpine tile is filled, and a call after it returns what was
stored. -/
theorem store_integrity_alpine : ∃ data s call,
    Run (next {}) anyStep (.init fun _ => .missing) s ∧
      s.calls 1 = some call ∧
      call.phase = .returned (ready data .cache) ∧
      Requested alpineKey data := by
  have hadmitted : Admitted {} alpineKey :=
    ⟨rfl, rfl, by decide +kernel, by decide +kernel⟩
  have hscale : elevationScale binary32
      (minimumElevation (Copernicus.sampledTile alpineKey
        oneSample).elevationsM)
      (maximumElevation (Copernicus.sampledTile alpineKey
        oneSample).elevationsM) = .finite 0 := by
    decide +kernel
  have hencode := encode_ok alpineTile_valid hscale (le_refl 0)
  have herror : terrainTileError
      (Copernicus.sampledTile alpineKey oneSample) = none :=
    Option.isNone_iff_eq_none.1 alpineTile_valid
  have hfetched : Copernicus.fetchTile alpineKey (.sampled oneSample true) =
      { status := .ready
        errorMessage := ""
        tile := some (Copernicus.sampledTile alpineKey oneSample)
        origin := .remote } := by
    have hsome : oneSample.elevations.all Option.isNone = false := rfl
    have hdataset : Copernicus.supportsDataset alpineKey.dataset = true := by
      decide +kernel
    have haddress : Copernicus.supportsAddress alpineKey = true := by
      decide +kernel
    unfold Copernicus.fetchTile
    rw [hdataset, haddress]
    simp only [hsome, herror, Bool.true_eq_false, Bool.false_eq_true,
      if_false, if_true]
  obtain ⟨s₁, s₂, hrun, hfills, hnone⟩ := cold_fill hadmitted rfl
    (by decide +kernel) hfetched hencode
  -- the later call, which may not even fetch from upstream
  have hcall : next {} (.call 1 alpineKey false) s₂
      = some (s₂.setCall 1 ⟨alpineKey, false, .starting, 0⟩) := by
    simp [next, hnone, checkedPhase_admitted hadmitted]
  have hlater : Run (next {}) (LeavesAlone alpineKey) s₂
      (s₂.setCall 1 ⟨alpineKey, false, .starting, 0⟩) :=
    Run.single (a := .call 1 alpineKey false)
      ⟨trivial, fun _ _ heq => by cases heq⟩ hcall
  have hintegrity := store_integrity {} fun _ => .missing
  obtain ⟨-, hreturns⟩ := hintegrity.2.1 s₁ s₂ _ 0 alpineKey _ hrun hfills
    hlater 1 _ hnone (Store.setCall_self _ _ _) rfl
  obtain ⟨s₄, call₄, hrest, hcall₄, hphase⟩ := hreturns (by simp)
  have hall : Run (next {}) anyStep (.init fun _ => .missing) s₄ :=
    ((hrun.step (.store 0 .committed) trivial hfills.step).trans
      (hlater.mono fun _ _ _ => trivial)).trans
      (hrest.mono fun _ _ _ => trivial)
  have hrequested := (fills_requested hfills (callsInv_run hrun)).2.1
  exact ⟨_, s₄, call₄, hall, hcall₄, hphase, hrequested⟩

end AowisMap.Terrain.TileStore
