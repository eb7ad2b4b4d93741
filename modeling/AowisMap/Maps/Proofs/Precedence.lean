/-
Permanent tiles take precedence over ordinary ones, in every run in which
no ordinary bytes are stored under a marked key.

# Where the mark and the entry part

`permanent_cached_keys` says which memory entries hold permanent tiles,
and the fast paths of both request methods trust it. A permanent load
sets the mark with the entry. An eviction drops the entry and keeps the
mark, and the three places that store ordinary bytes (a finished
download, a finished read of an ordinary file, `getTile` on an ordinary
file) store them without looking at the mark. `KeepsMarks` is the
condition under which none of them finds one.

# Looking back

Where an entry's bytes were read is a question about an earlier state,
so the results are about the machine that remembers the states it has
passed (`recorded`). Contents are arbitrary, so that bytes which stood in
the permanent file at some earlier time are bytes that were read there.
-/
import AowisMap.Maps.Proofs.Refinement

namespace AowisMap.Maps

open Lib

variable {cfg : Config} {past : List State} {s u : State}

-- ========================================================== statements

/-- At an earlier time the permanent file of a key, in this directory,
held these bytes. -/
def FromPermanentFile (past : List State) (directory key : String)
    (data : Blob) : Prop :=
  ∃ s ∈ past, s.permanentDataDirectory = directory ∧
    ∃ provider zoom x y, canonicalTileKey provider zoom x y = key ∧
      readFile s (permanentPath s provider zoom x y) = some data

/-- Entries under marked keys were read from their permanent files. -/
def PermanentPrecedence (past : List State) (s : State) : Prop :=
  ∀ key ∈ s.permanentCachedKeys, ∀ data,
    s.tileMemoryCache.lookup key = some data →
    FromPermanentFile past s.permanentDataDirectory key data

theorem FromPermanentFile.mono {directory key : String} {data : Blob}
    (h : FromPermanentFile past directory key data) (s : State) :
    FromPermanentFile (past ++ [s]) directory key data := by
  obtain ⟨s₀, hmem, hrest⟩ := h
  exact ⟨s₀, List.mem_append_left _ hmem, hrest⟩

/-- What is read now was in the file. -/
theorem FromPermanentFile.now {provider : String} {zoom x y : Int}
    {data : Blob}
    (h : readFile s (permanentPath s provider zoom x y) = some data) :
    FromPermanentFile (past ++ [s]) s.permanentDataDirectory
      (canonicalTileKey provider zoom x y) data :=
  ⟨s, List.mem_append_right _ List.mem_cons_self, rfl, provider, zoom, x, y,
    rfl, h⟩

-- ============================================================ the lookup

/-- The directory `providerCachePath` selects. -/
def selectedDir (cfg : Config) (provider : String) (s : State) :
    Option TileDir :=
  (providerCachePath cfg {} provider s).1

/-- The bytes of a tile's permanent file, when there are any. -/
def permanentBytes (provider : String) (zoom x y : Int) (s : State) :
    Option Blob :=
  if s.permanentDataDirectory = "" then none
  else (readFile s (permanentPath s provider zoom x y)).filter
    fun data => !data.isEmpty

/-- The bytes of a tile's ordinary file, when there are any. -/
def ordinaryBytes (cfg : Config) (provider : String) (zoom x y : Int)
    (s : State) : Option Blob :=
  (selectedDir cfg provider s).bind fun dir =>
    (readFile s ⟨dir, zoom, x, y⟩).filter fun data => !data.isEmpty

/-- Neither the choices of the environment nor an earlier selection
change the selected directory; selecting it changes the selected
directories and markers only. -/
theorem providerCachePath_selects (cfg : Config) (choice : Choice)
    (provider : String) (s : State) :
    (providerCachePath cfg choice provider s).1
        = selectedDir cfg provider s ∧
      (∃ paths markers, (providerCachePath cfg choice provider s).2
        = { s with providerCachePaths := paths, markers := markers }) ∧
      selectedDir cfg provider (providerCachePath cfg choice provider s).2
        = selectedDir cfg provider s := by
  unfold selectedDir providerCachePath
  cases hsource : s.configuredProviders.lookup provider with
  | none =>
      exact ⟨rfl, ⟨s.providerCachePaths, s.markers, rfl⟩, by
        simp only [hsource]⟩
  | some source =>
      cases hdir : s.providerCachePaths.lookup provider with
      | some dir =>
          exact ⟨rfl, ⟨s.providerCachePaths, s.markers, rfl⟩, by
            simp only [hsource, hdir]⟩
      | none =>
          simp only
          split
          · exact ⟨rfl, ⟨_, s.markers, rfl⟩, by
              simp only [hsource, AList.lookup_insert]⟩
          · exact ⟨rfl, ⟨_, _, rfl⟩, by
              simp only [hsource, AList.lookup_insert]⟩

/-- The selected directory is a matter of three fields. -/
theorem selectedDir_congr {provider : String}
    (hproviders : u.configuredProviders = s.configuredProviders)
    (hpaths : u.providerCachePaths = s.providerCachePaths)
    (hmarkers : u.markers = s.markers) :
    selectedDir cfg provider u = selectedDir cfg provider s := by
  unfold selectedDir providerCachePath
  rw [hproviders, hpaths, hmarkers]
  cases s.configuredProviders.lookup provider with
  | none => rfl
  | some source =>
      cases s.providerCachePaths.lookup provider with
      | some dir => rfl
      | none =>
          simp only
          split
          · rfl
          · rfl

-- ============================================================= condition

/-- `getTile` would load an ordinary file under a marked key: the entry is
gone, and so is the permanent file. -/
def LosesPrecedence (cfg : Config) (provider : String) (z x y : Int)
    (s : State) : Prop :=
  let wrappedX := positiveModulo x (tileCount z)
  let key := canonicalTileKey provider z wrappedX y
  key ∈ s.permanentCachedKeys ∧ s.tileMemoryCache.lookup key = none ∧
    permanentBytes provider z wrappedX y s = none ∧
    ordinaryBytes cfg provider z wrappedX y s ≠ none

/-- Losing precedence is a matter of the memory cache, the marks, the
files and the selected directory. -/
theorem LosesPrecedence.of_frame {provider : String} {z x y : Int}
    (h : LosesPrecedence cfg provider z x y u)
    (hdir : selectedDir cfg provider u = selectedDir cfg provider s)
    (hfiles : u.files = s.files)
    (hdirectory : u.permanentDataDirectory = s.permanentDataDirectory)
    (hmarks : u.permanentCachedKeys = s.permanentCachedKeys)
    (hentries : u.tileMemoryCache = s.tileMemoryCache) :
    LosesPrecedence cfg provider z x y s := by
  unfold LosesPrecedence ordinaryBytes permanentBytes permanentPath readFile
    at h ⊢
  rw [hdir, hfiles, hdirectory, hmarks, hentries] at h
  exact h

/-- Whether a finished download is stored. -/
def WillStore (ended : Downloads.Ended) (size : Nat) (mayStore : Bool)
    (s : State) : Prop :=
  ended.invalidated = false ∧ mayStore = true ∧
    s.pendingCacheWrites < maximumPendingCacheWrites ∧
    (size : Int) ≤ maximumPendingCacheWriteBytes - s.pendingCacheWriteBytes

/-- The condition on a step: no ordinary bytes are stored under a marked
key, be it by a finished download, by a finished read of an ordinary
file, or by `getTile`. -/
def KeepsMarks (cfg : Config) (a : Action) (s : State) : Prop :=
  match a with
  | .getTile _ provider z x y _ => ¬ LosesPrecedence cfg provider z x y s
  | .requestFinished client bytes mayStore => ∀ ended,
      Downloads.clientEnds cfg client s.downloads = some ended →
      WillStore ended bytes.length mayStore s →
      ended.client.download.canonicalKey ∉ s.permanentCachedKeys
  | .readFinished read _ => ∀ r data, s.reads.lookup read = some r →
      r.result = some data → r.generation = s.cacheGeneration →
      if data.isEmpty then
        ¬ LosesPrecedence cfg r.provider r.zoom r.wrappedX r.y s
      else r.permanent = true ∨ r.canonicalKey ∉ s.permanentCachedKeys
  | _ => True

-- ============================================================= invariant

/-- A pending read of a permanent file reads the file its key names. -/
structure PermanentRead (past : List State) (directory : String)
    (generation : Nat) (r : CacheRead) : Prop where
  generation_le : r.generation ≤ generation
  keyed : r.canonicalKey
    = canonicalTileKey r.provider r.zoom r.wrappedX r.y
  path : r.permanent = true → r.generation = generation → directory ≠ "" ∧
    r.readPath = ⟨⟨directory, r.provider, none⟩, r.zoom, r.wrappedX, r.y⟩
  result : r.permanent = true → r.generation = generation → ∀ data,
    r.result = some data → data.isEmpty = false →
    FromPermanentFile past directory r.canonicalKey data

structure PrecedenceInv (past : List State) (s : State) : Prop where
  unset : s.permanentDataDirectory = "" → s.permanentCachedKeys = ∅
  entries : PermanentPrecedence past s
  reads : ∀ id r, s.reads.lookup id = some r →
    PermanentRead past s.permanentDataDirectory s.cacheGeneration r

/-- A new generation retires every read. -/
theorem PermanentRead.retired {directory directory' : String}
    {generation : Nat} {r : CacheRead} {past' : List State}
    (h : PermanentRead past directory generation r) :
    PermanentRead past' directory' (generation + 1) r := by
  have hle := h.generation_le
  refine ⟨Nat.le_succ_of_le hle, h.keyed, ?_, ?_⟩
  · intro _ hgen
    omega
  · intro _ hgen
    omega

theorem PermanentRead.mono {directory : String} {generation : Nat}
    {r : CacheRead} (h : PermanentRead past directory generation r)
    (s : State) : PermanentRead (past ++ [s]) directory generation r :=
  ⟨h.generation_le, h.keyed, h.path, fun hperm hgen data hdata hempty =>
    (h.result hperm hgen data hdata hempty).mono s⟩

theorem PrecedenceInv.mono (h : PrecedenceInv past s) (s₀ : State) :
    PrecedenceInv (past ++ [s₀]) s :=
  ⟨h.unset,
    fun key hkey data hdata => (h.entries key hkey data hdata).mono s₀,
    fun id r hr => (h.reads id r hr).mono s₀⟩

/-- Fewer marks, entries and reads keep the invariant. -/
theorem PrecedenceInv.of_frame (h : PrecedenceInv past s)
    (hdirectory : u.permanentDataDirectory = s.permanentDataDirectory)
    (hgeneration : u.cacheGeneration = s.cacheGeneration)
    (hmarks : u.permanentCachedKeys ⊆ s.permanentCachedKeys)
    (hentries : ∀ key data, u.tileMemoryCache.lookup key = some data →
      s.tileMemoryCache.lookup key = some data)
    (hreads : ∀ id r, u.reads.lookup id = some r →
      s.reads.lookup id = some r) : PrecedenceInv past u := by
  refine ⟨?_, ?_, ?_⟩
  · intro hunset
    rw [hdirectory] at hunset
    rw [h.unset hunset] at hmarks
    exact Finset.subset_empty.1 hmarks
  · intro key hkey data hdata
    rw [hdirectory]
    exact h.entries key (hmarks hkey) data (hentries key data hdata)
  · intro id r hr
    rw [hdirectory, hgeneration]
    exact h.reads id r (hreads id r hr)

/-- An entry that is permanent or of an unmarked key may be stored. -/
theorem PrecedenceInv.stored (h : PrecedenceInv past s) (key : String)
    (data : Blob) (marks : Finset String)
    (hunset : s.permanentDataDirectory = "" → marks = ∅)
    (hmarks : ∀ k ∈ marks, k ≠ key → k ∈ s.permanentCachedKeys)
    (hdata : key ∈ marks →
      FromPermanentFile past s.permanentDataDirectory key data) :
    PrecedenceInv past
      { cacheInsert key data s with permanentCachedKeys := marks } := by
  refine ⟨hunset, ?_, h.reads⟩
  intro k hk d hd
  have hd : (s.tileMemoryCache.insert key data).lookup k = some d := hd
  by_cases heq : k = key
  · rw [heq, AList.lookup_insert] at hd
    cases hd
    rw [heq]
    exact hdata (by rwa [heq] at hk)
  · rw [AList.lookup_insert_ne heq] at hd
    exact h.entries k (hmarks k hk heq) d hd

theorem precedenceInv_init (files : QHash TilePath OutsideFile)
    (markers : QHash String String) :
    PrecedenceInv [] (State.init files markers) := by
  refine ⟨fun _ => rfl, ?_, ?_⟩
  · intro key hkey
    cases hkey
  · intro id r hr
    cases hr

-- ============================================================== getTile

/-- A selection that does not change the selected directory. -/
def SameDir (cfg : Config) (provider : String) (s : State)
    (paths : QHash String TileDir) (markers : QHash String String) : Prop :=
  selectedDir cfg provider
      { s with providerCachePaths := paths, markers := markers }
    = selectedDir cfg provider s

/-- What `getTile` does to the memory cache and the marks: nothing, a
permanent load, or an ordinary load, the last only when no entry is there
under a marked key and no permanent file can be read. -/
inductive TileEffect (cfg : Config) (provider : String) (zoom x y : Int)
    (s : State) : State → Prop
  | kept (paths : QHash String TileDir) (markers : QHash String String)
      (downloads : Downloads) : SameDir cfg provider s paths markers →
      TileEffect cfg provider zoom x y s
        { s with
          providerCachePaths := paths
          markers := markers
          downloads := downloads }
  | permanent (data : Blob) (paths : QHash String TileDir)
      (markers : QHash String String) : SameDir cfg provider s paths markers →
      permanentBytes provider zoom x y s = some data →
      TileEffect cfg provider zoom x y s
        { cacheInsert (canonicalTileKey provider zoom x y) data s with
          providerCachePaths := paths
          markers := markers
          permanentCachedKeys := insert (canonicalTileKey provider zoom x y)
            s.permanentCachedKeys }
  | ordinary (data : Blob) (paths : QHash String TileDir)
      (markers : QHash String String) : SameDir cfg provider s paths markers →
      (s.permanentDataDirectory ≠ "" →
        canonicalTileKey provider zoom x y ∈ s.permanentCachedKeys →
        s.tileMemoryCache.lookup (canonicalTileKey provider zoom x y)
          = none) →
      permanentBytes provider zoom x y s = none →
      ordinaryBytes cfg provider zoom x y s = some data →
      TileEffect cfg provider zoom x y s
        { cacheInsert (canonicalTileKey provider zoom x y) data s with
          providerCachePaths := paths
          markers := markers }

theorem getColdTile_effect {choice : Choice} {provider : String}
    {source : MapProvider} {zoom x y : Int} {key : String} {dir : TileDir}
    (hdir : selectedDir cfg provider s = some dir)
    (paths : QHash String TileDir) (markers : QHash String String)
    (hsame : SameDir cfg provider s paths markers) :
    let s' := { s with providerCachePaths := paths, markers := markers }
    TileEffect cfg provider zoom x y s
      (getColdTile cfg choice provider source zoom x y
        (canonicalTileKey provider zoom x y) key dir s').2 := by
  intro s'
  unfold getColdTile
  simp only
  split
  · exact .kept paths markers s.downloads hsame
  · rename_i hknown
    split
    · rename_i data hperm
      exact .permanent data paths markers hsame hperm
    · rename_i hperm
      split
      · exact .kept paths markers s.downloads hsame
      · split
        · rename_i data hfile
          refine .ordinary data paths markers hsame ?_ hperm ?_
          · intro hset hmarked
            rw [if_pos ⟨hset, hmarked⟩] at hknown
            exact hknown
          · rw [ordinaryBytes, hdir]
            exact hfile
        · unfold fetchTile
          split
          · exact .kept paths markers _ hsame
          · exact .kept paths markers s.downloads hsame

/-- The effect of `getTile`, which leaves the selected directory. -/
theorem getTile_effect (cfg : Config) (choice : Choice) (provider : String)
    (z x y : Int) (key : String) (s : State) :
    TileEffect cfg provider z (positiveModulo x (tileCount z)) y s
        (getTile cfg choice provider z x y key s).2 := by
  have hkept : TileEffect cfg provider z (positiveModulo x (tileCount z)) y
      s s := .kept s.providerCachePaths s.markers s.downloads rfl
  obtain ⟨hselected, ⟨paths, markers, hframe⟩, hsame⟩ :=
    providerCachePath_selects cfg choice provider s
  rw [hframe] at hsame
  unfold getTile
  split
  · exact hkept
  · split
    · exact hkept
    · simp only
      split
      · exact hkept
      · split
        · exact hkept
        · rw [hframe]
          split
          · exact .kept paths markers s.downloads hsame
          · rename_i dir hdir
            rw [hselected] at hdir
            exact getColdTile_effect hdir paths markers hsame

section Effect

variable {provider : String} {zoom x y : Int}
  (h : TileEffect cfg provider zoom x y s u)

include h

theorem TileEffect.frame : u.files = s.files ∧
    u.permanentDataDirectory = s.permanentDataDirectory ∧
    u.cacheGeneration = s.cacheGeneration ∧ u.reads = s.reads := by
  cases h with
  | kept => exact ⟨rfl, rfl, rfl, rfl⟩
  | permanent => exact ⟨rfl, rfl, rfl, rfl⟩
  | ordinary => exact ⟨rfl, rfl, rfl, rfl⟩

theorem TileEffect.selectedDir : selectedDir cfg provider u
    = Maps.selectedDir cfg provider s := by
  cases h with
  | kept paths markers downloads hsame =>
      rw [← hsame]
      exact selectedDir_congr rfl rfl rfl
  | permanent data paths markers hsame =>
      rw [← hsame]
      exact selectedDir_congr rfl rfl rfl
  | ordinary data paths markers hsame =>
      rw [← hsame]
      exact selectedDir_congr rfl rfl rfl

end Effect

-- ======================================================== requests again

/-- The files of the state are those of a state passed before. -/
def Seen (past : List State) (s : State) : Prop :=
  ∃ s₀ ∈ past, s₀.files = s.files ∧
    s₀.permanentDataDirectory = s.permanentDataDirectory

theorem Seen.self (past : List State) (s : State) :
    Seen (past ++ [s]) s :=
  ⟨s, List.mem_append_right _ List.mem_cons_self, rfl, rfl⟩

/-- What a permanent file holds now it held in the state passed. -/
theorem Seen.permanent (h : Seen past s) {provider : String} {zoom x y : Int}
    {data : Blob} (hdata : permanentBytes provider zoom x y s = some data) :
    s.permanentDataDirectory ≠ "" ∧
      FromPermanentFile past s.permanentDataDirectory
        (canonicalTileKey provider zoom x y) data := by
  obtain ⟨s₀, hmem, hfiles, hdirectory⟩ := h
  unfold permanentBytes at hdata
  split at hdata
  · cases hdata
  · rename_i hset
    refine ⟨hset, s₀, hmem, hdirectory, provider, zoom, x, y, rfl, ?_⟩
    have hread := (Option.filter_eq_some_iff.1 hdata).1
    unfold readFile permanentPath at hread ⊢
    rw [hfiles, hdirectory]
    exact hread

/-- A request for a tile. -/
theorem TileEffect.precedenceInv {provider : String} {z x y : Int}
    (h : TileEffect cfg provider z (positiveModulo x (tileCount z)) y s u)
    (hinv : PrecedenceInv past s) (hseen : Seen past s)
    (hkeeps : ¬ LosesPrecedence cfg provider z x y s) :
    PrecedenceInv past u := by
  cases h with
  | kept paths markers downloads hsame =>
      exact hinv.of_frame rfl rfl (Finset.Subset.refl _) (fun _ _ h => h)
        (fun _ _ h => h)
  | permanent data paths markers hsame hperm =>
      obtain ⟨hset, hfrom⟩ := hseen.permanent hperm
      have hstored := hinv.stored _ data _
        (fun hunset => absurd hunset hset)
        (fun k hk hne => (Finset.mem_insert.1 hk).resolve_left hne)
        (fun _ => hfrom)
      exact hstored.of_frame rfl rfl (Finset.Subset.refl _) (fun _ _ h => h)
        (fun _ _ h => h)
  | ordinary data paths markers hsame hgone hperm hordinary =>
      have hunmarked : canonicalTileKey provider z
          (positiveModulo x (tileCount z)) y ∉ s.permanentCachedKeys := by
        intro hmarked
        have hset : s.permanentDataDirectory ≠ "" := by
          intro hunset
          rw [hinv.unset hunset] at hmarked
          cases hmarked
        exact hkeeps ⟨hmarked, hgone hset hmarked, hperm,
          by rw [hordinary]; simp⟩
      have hstored := hinv.stored _ data _ hinv.unset (fun k hk _ => hk)
        (fun hmarked => absurd hmarked hunmarked)
      exact hstored.of_frame rfl rfl (Finset.Subset.refl _) (fun _ _ h => h)
        (fun _ _ h => h)

/-- A request does not make the next one for its tile lose precedence: it
stores nothing, or the entry is there. -/
theorem TileEffect.keeps {provider : String} {z x y : Int}
    (h : TileEffect cfg provider z (positiveModulo x (tileCount z)) y s u)
    (hkeeps : ¬ LosesPrecedence cfg provider z x y s) :
    ¬ LosesPrecedence cfg provider z x y u := by
  have hdir := h.selectedDir
  intro hloses
  cases h with
  | kept => exact hkeeps (hloses.of_frame hdir rfl rfl rfl rfl)
  | permanent data =>
      have hentry : (s.tileMemoryCache.insert _ data).lookup _ = none :=
        hloses.2.1
      rw [AList.lookup_insert] at hentry
      cases hentry
  | ordinary data =>
      have hentry : (s.tileMemoryCache.insert _ data).lookup _ = none :=
        hloses.2.1
      rw [AList.lookup_insert] at hentry
      cases hentry

/-- The fallbacks of a read. -/
theorem retryReads_precedenceInv (r : CacheRead)
    (requesters : List (String × Choice)) {s : State}
    (hinv : PrecedenceInv past s) (hseen : Seen past s)
    (hkeeps : ¬ LosesPrecedence cfg r.provider r.zoom r.wrappedX r.y s) :
    PrecedenceInv past (requesters.foldl (retryRead cfg r) s) := by
  induction requesters generalizing s with
  | nil => exact hinv
  | cons requester requesters ih =>
      have heffect := getTile_effect cfg requester.2 r.provider r.zoom
        r.wrappedX r.y requester.1 s
      have hinv' := heffect.precedenceInv hinv hseen hkeeps
      have hkeeps' := heffect.keeps hkeeps
      obtain ⟨hfiles, hdirectory, -, -⟩ := heffect.frame
      have hseen' : Seen past (getTile cfg requester.2 r.provider r.zoom
          r.wrappedX r.y requester.1 s).2 := by
        obtain ⟨s₀, hmem, hfiles₀, hdirectory₀⟩ := hseen
        exact ⟨s₀, hmem, hfiles₀.trans hfiles.symm,
          hdirectory₀.trans hdirectory.symm⟩
      rw [List.foldl_cons]
      -- the answer's signal touches neither entries nor marks
      have hsignal : ∀ signal : Signal, ∀ t : State, PrecedenceInv past t →
          Seen past t →
          ¬ LosesPrecedence cfg r.provider r.zoom r.wrappedX r.y t →
          PrecedenceInv past (emit signal t) ∧ Seen past (emit signal t) ∧
            ¬ LosesPrecedence cfg r.provider r.zoom r.wrappedX r.y
              (emit signal t) := by
        intro signal t ht hseen_t hkeeps_t
        refine ⟨ht.of_frame rfl rfl (Finset.Subset.refl _) (fun _ _ h => h)
          (fun _ _ h => h), hseen_t, ?_⟩
        intro hloses
        exact hkeeps_t (hloses.of_frame (selectedDir_congr rfl rfl rfl) rfl rfl
          rfl rfl)
      unfold retryRead
      simp only
      split
      · obtain ⟨h₁, h₂, h₃⟩ := hsignal _ _ hinv' hseen' hkeeps'
        exact ih h₁ h₂ h₃
      · obtain ⟨h₁, h₂, h₃⟩ := hsignal _ _ hinv' hseen' hkeeps'
        exact ih h₁ h₂ h₃
      · obtain ⟨h₁, h₂, h₃⟩ := hsignal _ _ hinv' hseen' hkeeps'
        exact ih h₁ h₂ h₃
      · exact ih hinv' hseen' hkeeps'

-- ========================================================= getTileForHttp

/-- A scheduled, joined or refused read. -/
theorem scheduleRead_precedenceInv {read : CacheRead} {key : String}
    (hinv : PrecedenceInv past s)
    (hread : PermanentRead past s.permanentDataDirectory s.cacheGeneration
      read) : PrecedenceInv past (scheduleRead read key s).2 := by
  unfold scheduleRead
  split
  · exact hinv.of_frame rfl rfl (Finset.Subset.refl _) (fun _ _ h => h)
      (fun _ _ h => h)
  · split
    · exact hinv
    · split
      · exact hinv
      · refine ⟨hinv.unset, hinv.entries, ?_⟩
        intro id r hr
        have hr : (s.reads.insert s.nextRead read).lookup id = some r := hr
        by_cases heq : id = s.nextRead
        · rw [heq, AList.lookup_insert] at hr
          cases hr
          exact hread
        · rw [AList.lookup_insert_ne heq] at hr
          exact hinv.reads id r hr

/-- The read of a tile file that exists. -/
theorem coldRead_permanentRead (provider : String) (z wrappedX y : Int)
    (permanent : Bool) (path : TilePath) (s : State)
    (hpath : permanent = true → s.permanentDataDirectory ≠ "" ∧
      path = permanentPath s provider z wrappedX y) :
    PermanentRead past s.permanentDataDirectory s.cacheGeneration
      (coldRead provider z wrappedX y
        (canonicalTileKey provider z wrappedX y) permanent path s) where
  generation_le := Nat.le_refl _
  keyed := rfl
  path := fun hperm _ => hpath hperm
  result := by
    intro _ _ data hdata
    cases hdata

/-- A file that does not exist has no bytes. -/
theorem readFile_missing {path : TilePath} (h : path ∉ s.files) :
    readFile s path = none := by
  unfold readFile
  rw [AList.lookup_eq_none.2 h]

theorem getTileForHttp_precedenceInv (cfg : Config) (choice : Choice)
    (provider : String) (z x y : Int) (key : String)
    (hinv : PrecedenceInv past s) (hseen : Seen past s) :
    PrecedenceInv past
      (getTileForHttp cfg choice provider z x y key s).2 := by
  obtain ⟨hselected, ⟨paths, markers, hframe⟩, hsame⟩ :=
    providerCachePath_selects cfg choice provider s
  have hinv' : PrecedenceInv past (providerCachePath cfg choice provider s).2
      := by
    rw [hframe]
    exact hinv.of_frame rfl rfl (Finset.Subset.refl _) (fun _ _ h => h)
      (fun _ _ h => h)
  have hseen' : Seen past (providerCachePath cfg choice provider s).2 := by
    rw [hframe]
    exact hseen
  unfold getTileForHttp
  split
  · exact hinv
  · split
    · exact hinv
    · simp only
      split
      · exact hinv
      · unfold getColdTileForHttp
        simp only
        split
        · rename_i hpermanent
          exact scheduleRead_precedenceInv hinv
            (coldRead_permanentRead provider z _ y true _ s
              fun _ => ⟨hpermanent.1, rfl⟩)
        · split
          · exact hinv
          · -- without an ordinary file the fallback stores no ordinary bytes
            have hfallback : ordinaryBytes cfg provider z
                (positiveModulo x (tileCount z)) y
                (providerCachePath cfg choice provider s).2 = none →
                PrecedenceInv past (getTile cfg choice provider z x y key
                  (providerCachePath cfg choice provider s).2).2 := by
              intro hnone
              exact (getTile_effect cfg choice provider z x y key _)
                |>.precedenceInv hinv' hseen' fun h => h.2.2.2 hnone
            split
            · rename_i hdir
              apply hfallback
              rw [ordinaryBytes, hsame, ← hselected, hdir]
              rfl
            · rename_i dir hdir
              split
              · refine scheduleRead_precedenceInv hinv'
                  (coldRead_permanentRead provider z _ y false _ _ ?_)
                intro hfalse
                cases hfalse
              · rename_i hmissing
                apply hfallback
                rw [ordinaryBytes, hsame, ← hselected, hdir, Option.bind_some,
                  readFile_missing hmissing]
                rfl

-- ================================================================= steps

/-- A finished download: its bytes are stored under an unmarked key. -/
theorem requestFinished_precedenceInv {client : ClientId} {bytes : Bytes}
    {mayStore : Bool} (hinv : PrecedenceInv past s)
    (hkeeps : KeepsMarks cfg (.requestFinished client bytes mayStore) s)
    (hstep : requestFinished cfg client bytes mayStore s = some u) :
    PrecedenceInv past u := by
  unfold requestFinished at hstep
  split at hstep
  · cases hstep
  · rename_i ended hended
    split at hstep
    · cases hstep
    · simp only at hstep
      have hanswered : PrecedenceInv past (emitReady ended.responseKeys
          (responseBlob client bytes ended.client.download) { s with
            downloads :=
              Downloads.startQueuedDownloads cfg ended.downloads }) := by
        rw [emitReady_eq]
        exact hinv.of_frame rfl rfl (Finset.Subset.refl _) (fun _ _ h => h)
          (fun _ _ h => h)
      split at hstep
      · cases hstep
        exact hanswered
      · rename_i hstore
        split at hstep
        · cases hstep
          exact hanswered
        · rename_i hroom
          cases hstep
          rw [not_or] at hstore hroom
          have hunmarked := hkeeps ended hended
            ⟨Bool.eq_false_iff.2 hstore.1, by simpa using hstore.2,
              not_le.1 hroom.1, not_lt.1 hroom.2⟩
          have hstored := hinv.stored _
            (responseBlob client bytes ended.client.download) _ hinv.unset
            (fun k hk _ => hk) (fun hmarked => absurd hmarked hunmarked)
          exact hstored.of_frame rfl rfl (Finset.Subset.refl _)
            (fun _ _ h => h) (fun _ _ h => h)

/-- A read's worker: what it takes from a permanent file was there. -/
theorem readRuns_precedenceInv {read : ReadId} (hinv : PrecedenceInv past s)
    (hseen : Seen past s) (hstep : readRuns read s = some u) :
    PrecedenceInv past u := by
  obtain ⟨r, data, hr, -, hdata, rfl⟩ := readRuns_inv hstep
  have hread := hinv.reads read r hr
  refine ⟨hinv.unset, hinv.entries, ?_⟩
  intro id r' hid
  have hid : (s.reads.insert read { r with result := some data }).lookup id
      = some r' := hid
  by_cases heq : id = read
  · rw [heq, AList.lookup_insert] at hid
    cases hid
    refine ⟨hread.generation_le, hread.keyed, hread.path, ?_⟩
    intro hperm hgen data' hdata' hempty
    cases hdata'
    obtain ⟨hset, hpath⟩ := hread.path hperm hgen
    rcases hdata with rfl | hfile
    · cases hempty
    · have hbytes : permanentBytes r.provider r.zoom r.wrappedX r.y s
          = some data := by
        rw [permanentBytes, if_neg hset]
        rw [hpath] at hfile
        show (readFile s (permanentPath s r.provider r.zoom r.wrappedX
          r.y)).filter _ = _
        unfold permanentPath
        rw [hfile]
        simp [hempty]
      show FromPermanentFile past s.permanentDataDirectory r.canonicalKey data
      rw [hread.keyed]
      exact (hseen.permanent hbytes).2
  · rw [AList.lookup_insert_ne heq] at hid
    exact hinv.reads id r' hid

theorem PrecedenceInv.forgetRead (h : PrecedenceInv past s) (read : ReadId)
    (r : CacheRead) : PrecedenceInv past (forgetRead read r s) := by
  refine h.of_frame rfl rfl (Finset.Subset.refl _) (fun _ _ h => h) ?_
  intro id r' hid
  have hid : (s.reads.erase read).lookup id = some r' := hid
  by_cases heq : id = read
  · rw [heq, AList.lookup_erase] at hid
    cases hid
  · rw [AList.lookup_erase_ne heq] at hid
    exact hid

/-- A finished read: permanent bytes are stored with their mark, ordinary
ones under an unmarked key. -/
theorem readFinished_precedenceInv {read : ReadId}
    {choices : Nat → Choice} (hinv : PrecedenceInv past s)
    (hseen : Seen past s)
    (hkeeps : KeepsMarks cfg (.readFinished read choices) s)
    (hstep : readFinished cfg read choices s = some u) :
    PrecedenceInv past u := by
  unfold readFinished at hstep
  cases hr : s.reads.lookup read with
  | none =>
      rw [hr] at hstep
      cases hstep
  | some r =>
      cases hdata : r.result with
      | none =>
          simp only [hr, hdata] at hstep
          cases hstep
      | some data =>
          simp only [hr, hdata] at hstep
          have hread := hinv.reads read r hr
          have hforget := hinv.forgetRead read r
          split at hstep
          · rename_i hcurrent
            cases hstep
            have hallowed := hkeeps r data hr hdata hcurrent.1
            rw [if_neg (by rw [hcurrent.2]; simp)] at hallowed
            rw [emitReady_eq]
            by_cases hperm : r.permanent = true
            · have hset := (hread.path hperm hcurrent.1).1
              have hfrom := hread.result hperm hcurrent.1 data hdata
                hcurrent.2
              rw [if_pos hperm]
              have hstored := hforget.stored r.canonicalKey data
                (insert r.canonicalKey s.permanentCachedKeys)
                (fun hunset => absurd hunset hset)
                (fun k hk hne => (Finset.mem_insert.1 hk).resolve_left hne)
                (fun _ => hfrom)
              exact hstored.of_frame rfl rfl (Finset.Subset.refl _)
                (fun _ _ h => h) (fun _ _ h => h)
            · have hunmarked := hallowed.resolve_left hperm
              rw [if_neg hperm]
              have hstored := hforget.stored r.canonicalKey data _
                hforget.unset (fun k hk _ => hk)
                (fun hmarked => absurd hmarked hunmarked)
              exact hstored.of_frame rfl rfl (Finset.Subset.refl _)
                (fun _ _ h => h) (fun _ _ h => h)
          · rename_i hnot
            split at hstep
            · cases hstep
              rw [emitFailed_eq]
              exact hforget.of_frame rfl rfl (Finset.Subset.refl _)
                (fun _ _ h => h) (fun _ _ h => h)
            · rename_i hgen
              cases hstep
              have hgen := not_not.1 hgen
              have hempty : data.isEmpty = true := by
                rw [not_and] at hnot
                exact Bool.not_eq_false _ ▸ hnot hgen
              have hallowed := hkeeps r data hr hdata hgen
              rw [if_pos hempty] at hallowed
              apply retryReads_precedenceInv r _ hforget hseen
              intro hloses
              exact hallowed (hloses.of_frame (selectedDir_congr rfl rfl rfl)
                rfl rfl rfl rfl)

/-- A new generation with fewer marks and entries. -/
theorem PrecedenceInv.retired (h : PrecedenceInv past s)
    (hdirectory : u.permanentDataDirectory = s.permanentDataDirectory)
    (hgeneration : u.cacheGeneration = s.cacheGeneration + 1)
    (hmarks : u.permanentCachedKeys ⊆ s.permanentCachedKeys)
    (hentries : ∀ key data, u.tileMemoryCache.lookup key = some data →
      s.tileMemoryCache.lookup key = some data)
    (hreads : u.reads = s.reads) : PrecedenceInv past u := by
  refine ⟨?_, ?_, ?_⟩
  · intro hunset
    rw [hdirectory] at hunset
    rw [h.unset hunset] at hmarks
    exact Finset.subset_empty.1 hmarks
  · intro key hkey data hdata
    rw [hdirectory]
    exact h.entries key (hmarks hkey) data (hentries key data hdata)
  · intro id r hr
    rw [hreads] at hr
    rw [hgeneration]
    exact (h.reads id r hr).retired

/-- A deletion drops entries and marks. -/
theorem deleteTiles_precedenceInv {choice : Choice} {range : TileRange}
    {refuses : TilePath → Bool} (hinv : PrecedenceInv past s)
    (hdirs : OwnDirs s.providerCachePaths) :
    PrecedenceInv past (deleteTiles cfg choice range refuses s).2 := by
  obtain ⟨paths, markers, -, hcases⟩ :=
    deleteTiles_cases cfg choice range refuses hdirs
  have hbase : PrecedenceInv past
      { s with providerCachePaths := paths, markers := markers } :=
    hinv.of_frame rfl rfl (Finset.Subset.refl _) (fun _ _ h => h)
      (fun _ _ h => h)
  have hrecord : ∀ t : State, PrecedenceInv past t →
      PrecedenceInv past (recordDeletion range t) := fun t ht =>
    ht.of_frame rfl rfl (Finset.Subset.refl _) (fun _ _ h => h)
      (fun _ _ h => h)
  rcases hcases with ⟨-, heq⟩ | ⟨dir, -, -, heq⟩
  · rw [heq]
    exact hbase
  · rw [heq]
    rcases deleteFrom_cases range refuses dir
      { s with providerCachePaths := paths, markers := markers }
      with ⟨heq, -⟩ | ⟨t, hdeletion, hcount⟩
    · rw [heq]
      exact hrecord _ hbase
    · have ht : PrecedenceInv past t := by
        obtain ⟨⟨files, marks, rfl⟩, -, hmarks⟩ := hdeletion
        refine hbase.retired rfl rfl hmarks ?_ rfl
        intro key data hdata
        have hdata : (QHash.filterMapValues (fun key data =>
            if range.coversKey key then none else some data)
            s.tileMemoryCache).lookup key = some data := hdata
        rw [QHash.lookup_filterMapValues] at hdata
        obtain ⟨data', hdata', hkept⟩ := Option.bind_eq_some_iff.1 hdata
        split at hkept
        · cases hkept
        · cases hkept
          exact hdata'
      rcases hcount with heq | ⟨count, heq, -⟩
      · rw [heq]
        exact ht
      · rw [heq]
        exact hrecord _ ht

/-- Every transition that keeps the marks keeps the invariant. -/
theorem perform_precedenceInv {a : Action} (hinv : PrecedenceInv past s)
    (hseen : Seen past s) (hdirs : OwnDirs s.providerCachePaths)
    (hkeeps : KeepsMarks cfg a s) (hstep : perform cfg a s = some u) :
    PrecedenceInv past u := by
  have hanswered : ∀ key (r : TileRequestResult × State),
      PrecedenceInv past r.2 → PrecedenceInv past (answered key r) := by
    intro key r hr
    unfold answered
    split
    · exact hr.of_frame rfl rfl (Finset.Subset.refl _) (fun _ _ h => h)
        (fun _ _ h => h)
    · exact hr
  -- steps that touch neither entries nor marks nor reads
  have hframe : ∀ t : State,
      t.permanentDataDirectory = s.permanentDataDirectory →
      t.cacheGeneration = s.cacheGeneration →
      t.permanentCachedKeys = s.permanentCachedKeys →
      t.tileMemoryCache = s.tileMemoryCache → t.reads = s.reads →
      PrecedenceInv past t := by
    intro t hdirectory hgeneration hmarks hentries hreads
    refine hinv.of_frame hdirectory hgeneration ?_ ?_ ?_
    · rw [hmarks]
    · rw [hentries]
      exact fun _ _ h => h
    · rw [hreads]
      exact fun _ _ h => h
  cases a with
  | getTile choice provider z x y key =>
      cases hstep
      exact hanswered key _ ((getTile_effect cfg choice provider z x y key
        s).precedenceInv hinv hseen hkeeps)
  | getTileForHttp choice provider z x y key =>
      cases hstep
      exact hanswered key _ (getTileForHttp_precedenceInv cfg choice provider
        z x y key hinv hseen)
  | requestFinished client bytes mayStore =>
      exact requestFinished_precedenceInv hinv hkeeps hstep
  | requestError client reason =>
      obtain ⟨ended, -, rfl⟩ := requestError_inv hstep
      rw [emitFailed_eq]
      exact hframe _ rfl rfl rfl rfl rfl
  | writeRuns write saved =>
      obtain ⟨w, -, -, ⟨result, rfl⟩ | ⟨-, rfl⟩⟩ := writeRuns_inv hstep
      · exact hframe _ rfl rfl rfl rfl rfl
      · exact hframe _ rfl rfl rfl rfl rfl
  | writeFinished write =>
      obtain ⟨w, -, -, rfl⟩ := writeFinished_inv hstep
      rw [emitReady_eq]
      exact hframe _ rfl rfl rfl rfl rfl
  | readRuns read => exact readRuns_precedenceInv hinv hseen hstep
  | readFinished read choices =>
      exact readFinished_precedenceInv hinv hseen hkeeps hstep
  | deleteTiles choice range refuses =>
      cases hstep
      exact deleteTiles_precedenceInv hinv hdirs
  | cancelUpstreamDownloads =>
      cases hstep
      unfold cancelUpstreamDownloads
      rw [emitFailed_eq]
      exact hframe _ rfl rfl rfl rfl rfl
  | configureProviders providers coverage defaultCoverage =>
      cases hstep
      refine ⟨fun _ => rfl, ?_, fun id r hr => (hinv.reads id r hr).retired⟩
      intro key hkey
      cases hkey
  | setPermanentDataDirectory directory =>
      cases hstep
      refine ⟨fun _ => rfl, ?_, fun id r hr => (hinv.reads id r hr).retired⟩
      intro key hkey
      cases hkey
  | setRemoteFetchEnabled enabled =>
      cases hstep
      exact hframe _ rfl rfl rfl rfl rfl
  | evict key =>
      cases hstep
      refine hinv.of_frame rfl rfl (Finset.Subset.refl _) ?_
        (fun _ _ h => h)
      intro k data hk
      have hk : (s.tileMemoryCache.erase key).lookup k = some data := hk
      by_cases heq : k = key
      · rw [heq, AList.lookup_erase] at hk
        cases hk
      · rw [AList.lookup_erase_ne heq] at hk
        exact hk
  | outsideChange path outside =>
      cases hstep
      exact hframe _ rfl rfl rfl rfl rfl

/-- The condition does not look at the outbox. -/
theorem KeepsMarks.of_outbox {a : Action} (h : KeepsMarks cfg a s)
    (outbox : List Signal) : KeepsMarks cfg a { s with outbox := outbox } := by
  have hloses : ∀ {provider z x y}, ¬ LosesPrecedence cfg provider z x y s →
      ¬ LosesPrecedence cfg provider z x y { s with outbox := outbox } :=
    fun hnot hbad =>
      hnot (hbad.of_frame (selectedDir_congr rfl rfl rfl) rfl rfl rfl rfl)
  cases a with
  | getTile choice provider z x y key => exact hloses h
  | requestFinished client bytes mayStore => exact h
  | readFinished read choices =>
      intro r data hr hdata hgen
      have hallowed := h r data hr hdata hgen
      split at hallowed
      · rename_i hempty
        rw [if_pos hempty]
        exact hloses hallowed
      · rename_i hempty
        rw [if_neg hempty]
        exact hallowed
  | _ => trivial

/-- **Permanent tiles take precedence** in every run in which no ordinary
bytes are stored under a marked key: whatever the memory cache holds
under a marked key was read from the key's permanent file. -/
theorem permanent_precedence {files : QHash TilePath OutsideFile}
    {markers : QHash String String}
    (h : Run (recorded (apply cfg)) (fun a r => KeepsMarks cfg a r.2)
      ([], State.init files markers) (past, s)) :
    PermanentPrecedence past s := by
  have hinv : OwnDirs (past, s).2.providerCachePaths ∧
      PrecedenceInv (past, s).1 (past, s).2 := by
    refine h.invariant (P := fun r => OwnDirs r.2.providerCachePaths ∧
        PrecedenceInv r.1 r.2)
      ⟨ownDirs_empty, precedenceInv_init files markers⟩ ?_
    intro a r₁ r₂ hboth hkeeps hstep
    obtain ⟨hdirs, hinv⟩ := hboth
    obtain ⟨hstep, hpast⟩ := recorded_inv hstep
    refine ⟨(apply_simulated hdirs hstep).dirs, ?_⟩
    rw [hpast]
    have hclear : PrecedenceInv (r₁.1 ++ [r₁.2]) { r₁.2 with outbox := [] } :=
      (hinv.mono r₁.2).of_frame rfl rfl (Finset.Subset.refl _)
        (fun _ _ h => h) (fun _ _ h => h)
    exact perform_precedenceInv hclear (Seen.self r₁.1 r₁.2) hdirs
      (hkeeps.of_outbox []) hstep
  exact hinv.2.entries

-- ================================================================== runs

/-- The tile whose two files the runs below are about. -/
def sharedTile : Tile := ⟨openStreetMap, 3, 0, 0⟩

/-- Its permanent file. -/
def sharedPermanentPath : TilePath :=
  ⟨⟨"/srv/aowis", openStreetMap, none⟩, 3, 0, 0⟩

/-- A permanent tile appears and is asked for. -/
def permanentLoad : List Action :=
  [ .setPermanentDataDirectory "/srv/aowis",
    .outsideChange sharedPermanentPath (some { bytes := [1] }) ]

/-- It is loaded and marked. -/
theorem permanent_precedence_load :
    ∃ past s, Run (recorded (apply smallConfig))
        (fun a r => KeepsMarks smallConfig a r.2) ([], State.init ∅ ∅)
        (past, s) ∧
      PermanentPrecedence past s ∧ sharedTile.key ∈ s.permanentCachedKeys ∧
      s.tileMemoryCache.lookup sharedTile.key = some ⟨[1], none⟩ := by
  have hunmarked : (runActions (recorded (apply smallConfig)) permanentLoad
      ([], State.init ∅ ∅)).map (fun r => r.2.permanentCachedKeys)
      = some ∅ := by
    decide +kernel
  obtain ⟨r₁, hr₁, hmarks⟩ := Option.map_eq_some_iff.1 hunmarked
  have hloaded : (runActions (recorded (apply smallConfig))
      (permanentLoad ++ [.getTile {} openStreetMap 3 0 0 "a"])
      ([], State.init ∅ ∅)).map (fun r =>
        (decide (sharedTile.key ∈ r.2.permanentCachedKeys),
          r.2.tileMemoryCache.lookup sharedTile.key))
      = some (true, some ⟨[1], none⟩) := by
    decide +kernel
  obtain ⟨⟨past, s⟩, hs, hval⟩ := Option.map_eq_some_iff.1 hloaded
  obtain ⟨hmarked, hentry⟩ := Prod.mk.inj hval
  have hrun : Run (recorded (apply smallConfig))
      (fun a r => KeepsMarks smallConfig a r.2) ([], State.init ∅ ∅)
      (past, s) := by
    refine (run_of_admitted hr₁ ?_).step _ ?_
      (runActions_one (runActions_rest hr₁ hs))
    · intro a ha r
      simp only [permanentLoad, List.mem_cons, List.not_mem_nil,
        or_false] at ha
      rcases ha with rfl | rfl
      · trivial
      · trivial
    · intro hloses
      have hmem := hloses.1
      rw [hmarks] at hmem
      cases hmem
  exact ⟨past, s, hrun, permanent_precedence hrun,
    of_decide_eq_true hmarked, hentry⟩

/-- The tile is asked for before its permanent file is there: a download
starts. The file appears, the tile is asked for again and its permanent
bytes are loaded. Then the download ends. -/
def lateDownload : List Action :=
  [ .setPermanentDataDirectory "/srv/aowis",
    .getTile {} openStreetMap 3 0 0 "a",
    .outsideChange sharedPermanentPath (some { bytes := [1] }),
    .getTile {} openStreetMap 3 0 0 "b",
    .requestFinished 0 [2] true ]

/-- The downloaded bytes replace the permanent ones under the mark. -/
theorem lateDownload_shadows :
    ¬ ∀ past s, Run (recorded (apply smallConfig)) anyStep
      ([], State.init ∅ ∅) (past, s) → PermanentPrecedence past s := by
  intro hclaim
  have hrun : (runActions (recorded (apply smallConfig)) lateDownload
      ([], State.init ∅ ∅)).map (fun r =>
        (decide (sharedTile.key ∈ r.2.permanentCachedKeys),
          (r.2.tileMemoryCache.lookup sharedTile.key).map (·.bytes),
          r.1.map fun s => s.files.entries.map fun e => e.2.blob.bytes))
      = some (true, some [2], [[], [], [], [[1]], [[1]]]) := by
    decide +kernel
  obtain ⟨⟨past, s⟩, hs, hval⟩ := Option.map_eq_some_iff.1 hrun
  obtain ⟨hmarked, hval⟩ := Prod.mk.inj hval
  obtain ⟨hentry, hfiles⟩ := Prod.mk.inj hval
  obtain ⟨data, hdata, hbytes⟩ := Option.map_eq_some_iff.1 hentry
  obtain ⟨s₀, hs₀, -, provider, zoom, x, y, -, hread⟩ := hclaim past s
    (run_of_runActions hs) _ (of_decide_eq_true hmarked) data hdata
  -- no file ever held the downloaded bytes
  have hheld : [2] ∈ s₀.files.entries.map fun e => e.2.blob.bytes := by
    unfold readFile at hread
    cases hfile : s₀.files.lookup (permanentPath s₀ provider zoom x y) with
    | none =>
        rw [hfile] at hread
        cases hread
    | some file =>
        rw [hfile] at hread
        simp only at hread
        split at hread
        · cases hread
          exact List.mem_map.2 ⟨_, AList.mem_lookup_iff.1 hfile, hbytes⟩
        · cases hread
  have hmem := List.mem_map_of_mem
    (f := fun s : State => s.files.entries.map fun e => e.2.blob.bytes) hs₀
  rw [hfiles] at hmem
  simp only [List.mem_cons, List.not_mem_nil, or_false] at hmem
  rcases hmem with h | h | h | h | h
  all_goals
    rw [h] at hheld
    simp at hheld

end AowisMap.Maps
