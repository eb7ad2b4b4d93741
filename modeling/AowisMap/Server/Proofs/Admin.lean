/-
Who may change what the server stores: in every run, the DELETE routes
act only for requests that present the delete key.

# From the loop to the key

`secureEquals` never stops early, so that it tells nothing by its time;
what it decides is equality (`secureEquals_iff`). A request presents a
key through either header (`Presents`), and with a configured key the
handlers' check is exactly that (`isDeleteAuthorized_iff`).

# Where the check is no check

With no key configured every request passes. `start` refuses that only
where a delete key is required (`protected_of_required`), so a server may
run unprotected; it is protected exactly if it has a key
(`protected_iff`).
-/
import Mathlib.Data.LawfulXor.Basic
import Mathlib.Data.List.GetD
import AowisMap.Server.Admin

namespace AowisMap.Server

open Lib Lib.QByteArray Terrain

-- ============================================================= equality

/-- The bytes that differ, gathered over a list of indices. -/
theorem foldl_or_eq_zero (f : Nat → Nat) (indices : List Nat) (n : Nat) :
    indices.foldl (fun difference index => difference ||| f index) n = 0 ↔
      n = 0 ∧ ∀ index ∈ indices, f index = 0 := by
  induction indices generalizing n with
  | nil => simp
  | cons index indices ih =>
      rw [List.foldl_cons, ih, Nat.or_eq_zero_iff, List.forall_mem_cons,
        and_assoc]

/-- `secureEquals` decides equality. -/
theorem secureEquals_iff (left right : Bytes) :
    secureEquals left right = true ↔ left = right := by
  unfold secureEquals
  rw [beq_iff_eq, foldl_or_eq_zero, xor_eq_zero_iff]
  constructor
  · rintro ⟨hlength, hbytes⟩
    apply List.ext_getElem hlength
    intro i hi hi'
    have hbyte := hbytes i (List.mem_range.2 (by omega))
    rw [List.getD_eq_getElem _ _ hi, List.getD_eq_getElem _ _ hi'] at hbyte
    apply UInt8.xor_eq_zero_iff.1
    exact UInt8.toNat_inj.1 hbyte
  · rintro rfl
    refine ⟨rfl, ?_⟩
    intro i _
    rw [UInt8.xor_self]
    rfl

-- ======================================================= what is presented

/-- The request presents the key: it is the value of `X-API-Key`, or what
follows the bearer scheme, in any case, in `Authorization`. -/
def Presents (key : Bytes) (headers : RequestHeaders) : Prop :=
  headers.xApiKey = key ∨
    ∃ scheme, headers.authorization = scheme ++ key ∧
      scheme.map toLowerAscii = bearerScheme.map toLowerAscii

/-- The request may use the administrative routes: a key is configured,
and the request presents it. -/
def Authorized (config : AdminConfig) (headers : RequestHeaders) : Prop :=
  config.deleteApiKey ≠ [] ∧ Presents config.deleteApiKey headers

/-- A key of at least one byte is found exactly where it is presented. -/
theorem requestContainsKey_iff {key : Bytes} (hkey : key ≠ [])
    (headers : RequestHeaders) :
    requestContainsKey headers key = true ↔ Presents key headers := by
  have hpos : 0 < key.length := List.length_pos_iff.2 hkey
  unfold requestContainsKey
  by_cases hdirect : secureEquals headers.xApiKey key = true
  · rw [if_pos hdirect]
    exact iff_of_true rfl (Or.inl ((secureEquals_iff _ _).1 hdirect))
  rw [if_neg hdirect]
  have hother : headers.xApiKey ≠ key := fun h =>
    hdirect ((secureEquals_iff _ _).2 h)
  by_cases hscheme : headers.authorization.length ≤ bearerScheme.length ∨
      equalsIgnoringCase (headers.authorization.take bearerScheme.length)
        bearerScheme = false
  · rw [if_pos hscheme]
    refine iff_of_false Bool.false_ne_true ?_
    rintro (hsame | ⟨scheme, hvalue, hlower⟩)
    · exact hother hsame
    · have hlength : scheme.length = bearerScheme.length := by
        have h := congrArg List.length hlower
        rw [List.length_map, List.length_map] at h
        exact h
      rw [hvalue, ← hlength, List.take_left, List.length_append] at hscheme
      rcases hscheme with hshort | hdiffers
      · omega
      · rw [equalsIgnoringCase, hlower, beq_self_eq_true] at hdiffers
        cases hdiffers
  · rw [if_neg hscheme, secureEquals_iff]
    rw [not_or, Nat.not_le, Bool.not_eq_false] at hscheme
    obtain ⟨hlong, hsame⟩ := hscheme
    constructor
    · intro hrest
      refine Or.inr ⟨headers.authorization.take bearerScheme.length, ?_,
        beq_iff_eq.1 hsame⟩
      rw [← hrest, List.take_append_drop]
    · rintro (hdirect' | ⟨scheme, hvalue, hlower⟩)
      · exact absurd hdirect' hother
      · have hlength : scheme.length = bearerScheme.length := by
          have h := congrArg List.length hlower
          rw [List.length_map, List.length_map] at h
          exact h
        rw [hvalue, ← hlength, List.drop_left]

/-- With a key, the handlers' check is the rule. -/
theorem isDeleteAuthorized_iff {config : AdminConfig}
    (hkey : config.deleteApiKey ≠ []) (headers : RequestHeaders) :
    isDeleteAuthorized config headers = true ↔ Authorized config headers := by
  unfold isDeleteAuthorized
  rw [if_neg hkey, requestContainsKey_iff hkey]
  exact (and_iff_right hkey).symm

-- ============================================================== all runs

variable {σ : Type} {config : AdminConfig}
  {operations : ProviderOperations σ}

/-- A refused request changes nothing. -/
theorem handleDelete_refused {world : DeletionWorld} {route : DeleteRoute}
    {headers : RequestHeaders}
    (hrefused : isDeleteAuthorized config headers = false)
    (s : AdminState σ) :
    handleDelete config operations world route headers s
      = (some makeUnauthorizedResponse, s) := by
  unfold handleDelete
  rw [if_pos hrefused]

/-- A submission adds at most its own job. -/
theorem submitDeletion_jobs {deletion : TerrainDeletion}
    {headers : RequestHeaders} {s : AdminState σ} {job : DeletionJob}
    (hjob : job ∈ (submitDeletion config deletion headers s).2.jobs) :
    job ∈ s.jobs ∨ job = ⟨deletion, headers⟩ := by
  unfold submitDeletion at hjob
  by_cases hdown : s.shuttingDown = true
  · rw [if_pos hdown] at hjob
    exact Or.inl hjob
  rw [if_neg hdown] at hjob
  cases hslot : TerrainAdmission.tryAcquire config.limits.terrainLimit
    s.terrainAdmission with
  | none =>
      rw [hslot] at hjob
      exact Or.inl hjob
  | some outstanding =>
      rw [hslot] at hjob
      rcases List.mem_append.1 hjob with hold | hnew
      · exact Or.inl hold
      · exact Or.inr (List.mem_singleton.1 hnew)

/-- The jobs behind a handler are those before it and jobs of an
authorized request. -/
theorem handleDelete_jobs {world : DeletionWorld} {route : DeleteRoute}
    {headers : RequestHeaders} {s : AdminState σ} {job : DeletionJob}
    (hjob : job ∈ (handleDelete config operations world route headers
      s).2.jobs) :
    job ∈ s.jobs ∨ job.headers = headers ∧
      isDeleteAuthorized config headers = true := by
  cases hauthorized : isDeleteAuthorized config headers with
  | false =>
      rw [handleDelete_refused hauthorized] at hjob
      exact Or.inl hjob
  | true =>
      unfold handleDelete at hjob
      rw [if_neg (by rw [hauthorized]; decide)] at hjob
      cases route with
      | upstreamMapTiles => exact Or.inl hjob
      | upstreamTerrain => exact Or.inl hjob
      | cache range => exact Or.inl hjob
      | terrainCache range =>
          rcases submitDeletion_jobs hjob with hold | rfl
          · exact Or.inl hold
          · exact Or.inr ⟨rfl, rfl⟩
      | terrainSource range =>
          rcases submitDeletion_jobs hjob with hold | rfl
          · exact Or.inl hold
          · exact Or.inr ⟨rfl, rfl⟩

/-- Every job was submitted by a request that may delete. -/
def JobsAuthorized (config : AdminConfig) (s : AdminState σ) : Prop :=
  ∀ job ∈ s.jobs, Authorized config job.headers

/-- What one step preserves. -/
theorem jobsAuthorized_step (hkey : config.deleteApiKey ≠ [])
    {a : AdminAction σ} {s s' : AdminState σ} (h : JobsAuthorized config s)
    (hstep : adminStep config operations a s = some s') :
    JobsAuthorized config s' := by
  cases a with
  | delete world route headers =>
      cases hstep
      intro job hjob
      rcases handleDelete_jobs hjob with hold | ⟨hheaders, hauthorized⟩
      · exact h job hold
      · rw [hheaders]
        exact (isDeleteAuthorized_iff hkey headers).1 hauthorized
  | jobRuns world index =>
      obtain ⟨job, -, rfl⟩ := Option.map_eq_some_iff.1 hstep
      intro other hother
      exact h other (List.mem_of_mem_eraseIdx hother)
  | other stored terrainAdmission shuttingDown =>
      cases hstep
      exact h

/-- Everything the DELETE routes do in a run is done for an authorized
request: a job that will run was submitted by one, and any other request
is refused and leaves the state as it is. -/
structure ProtectedState (config : AdminConfig)
    (operations : ProviderOperations σ) (s : AdminState σ) : Prop where
  jobs : JobsAuthorized config s
  refused : ∀ world route headers, ¬ Authorized config headers →
    handleDelete config operations world route headers s
      = (some makeUnauthorizedResponse, s)

/-- The administrative routes are protected: in every state that any run
from an idle server reaches. -/
def Protected (config : AdminConfig) : Prop :=
  ∀ (σ : Type) (operations : ProviderOperations σ)
    (initial s : AdminState σ), initial.jobs = [] →
    Run (adminStep config operations) anyStep initial s →
    ProtectedState config operations s

/-- With a key, every state of every run is protected. -/
theorem protected_of_key (hkey : config.deleteApiKey ≠ []) :
    Protected config := by
  intro σ operations initial s hidle hrun
  refine ⟨?_, ?_⟩
  · refine hrun.invariant ?_ ?_
    · intro job hjob
      rw [hidle] at hjob
      cases hjob
    · intro a before after h _ hstep
      exact jobsAuthorized_step hkey h hstep
  · intro world route headers hunauthorized
    apply handleDelete_refused
    rw [Bool.eq_false_iff]
    intro hauthorized
    exact hunauthorized ((isDeleteAuthorized_iff hkey headers).1 hauthorized)

/-- Without a key, a request without headers is served. -/
theorem handleDelete_open (hkey : config.deleteApiKey = [])
    (world : DeletionWorld) (s : AdminState σ) :
    (handleDelete config operations world .upstreamTerrain {} s).1
      = some ⟨200, .text "Terrain upstream downloads canceled"⟩ := by
  have hauthorized : isDeleteAuthorized config {} = true := by
    unfold isDeleteAuthorized
    rw [if_pos hkey]
  unfold handleDelete
  rw [if_neg (by rw [hauthorized]; decide)]

/-- A server that was told to require a delete key, and started, is
protected. -/
theorem protected_of_required {world : StartWorld}
    (hstart : start config world = true)
    (hrequired : config.requireDeleteApiKey = true) : Protected config := by
  apply protected_of_key
  intro hkey
  unfold start at hstart
  by_cases hread : config.requireApiKey = true ∧ config.apiKey = []
  · rw [if_pos hread] at hstart
    cases hstart
  · rw [if_neg hread, if_pos ⟨hrequired, hkey⟩] at hstart
    cases hstart

/-- An idle server without terrain providers. -/
def idleServer : AdminState Unit where
  stored :=
    { maps := Maps.State.init ∅ ∅
      normalized := ∅
      providers := () }

/-- The operations of no provider. -/
def noProviders : ProviderOperations Unit where
  cancelUpstreamDownloads := id
  deleteSourceData := fun _ providers => ({}, providers)

/-- A server without a key answers a request that presents nothing. -/
theorem not_protected_of_open (hkey : config.deleteApiKey = []) :
    ¬ Protected config := by
  intro hprotected
  have hstate := hprotected Unit noProviders idleServer idleServer rfl
    (Run.refl)
  have hunauthorized : ¬ Authorized config {} := fun h => h.1 hkey
  have hrefused := hstate.refused {} .upstreamTerrain {} hunauthorized
  have hserved : (handleDelete config noProviders {} .upstreamTerrain {}
      idleServer).1 = some _ := handleDelete_open hkey {} idleServer
  rw [hrefused] at hserved
  cases hserved

/-- **When the administrative operations need the delete key.** In every
run and for every request the DELETE routes act only for requests that
present the delete key, exactly if a delete key is configured. -/
theorem protected_iff (config : AdminConfig) :
    Protected config ↔ config.deleteApiKey ≠ [] :=
  ⟨fun hprotected hkey => not_protected_of_open hkey hprotected,
    protected_of_key⟩

/-- The default configuration, without keys. -/
def openConfig : AdminConfig where
  mapTiles :=
    { cacheBaseDirectory := "cache"
      parseUrl := fun _ => { scheme := "http", host := "osm", port := -1 }
      fingerprint := fun url => url }

/-- The server starts without a delete key, and is not protected. -/
theorem openConfig_not_protected :
    ¬ ∀ (config : AdminConfig) (world : StartWorld),
      start config world = true → Protected config := by
  intro hclaim
  have hstarts : start openConfig {} = true := by decide +kernel
  exact not_protected_of_open rfl (hclaim openConfig {} hstarts)

end AowisMap.Server
