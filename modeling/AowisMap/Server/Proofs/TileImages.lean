/-
What the map tile endpoint answers with its real clients: bytes, and
where the server downloaded them, an image under its own MIME type.

The client accepts three signatures, the MIME type of an answer is
guessed from its bytes, and in between the bytes pass through memory,
files, writes and reads (Maps/Proofs/Images.lean).
-/
import AowisMap.Server.Proofs.TileClients

namespace AowisMap.Server.TileEndpoint

open Lib Maps
open TileHttpClient (AcceptedImage isPng isJpeg isWebp)

variable {cfg : TileConfig} {toLower : List Char → List Char}
  {platform : TileHttpClient.Platform}

-- ============================================================ MIME types

/-- The MIME type that a signature stands for. -/
inductive NamesImage (mimeType : String) (data : Bytes) : Prop
  | png : isPng data = true → mimeType = "image/png" →
      NamesImage mimeType data
  | jpeg : isJpeg data = true → mimeType = "image/jpeg" →
      NamesImage mimeType data
  | webp : isWebp data = true → mimeType = "image/webp" →
      NamesImage mimeType data

/-- The guess is right for every image that is accepted. -/
theorem mapTileMimeType_names {data : Bytes} (h : AcceptedImage data) :
    NamesImage (mapTileMimeType data) data := by
  have hriff : QByteArray.ascii "RIFF" = [0x52, 0x49, 0x46, 0x46] := rfl
  have hwebp : QByteArray.ascii "WEBP" = [0x57, 0x45, 0x42, 0x50] := rfl
  have hsigned := h.signed
  unfold TileHttpClient.hasSupportedImageSignature at hsigned
  unfold mapTileMimeType
  split
  · rename_i hjpeg
    exact .jpeg (beq_iff_eq.2 hjpeg) rfl
  · rename_i hjpeg
    split
    · rename_i hwebp'
      refine .webp ?_ rfl
      unfold isWebp
      rw [hriff, hwebp]
      simp [hwebp'.1, hwebp'.2.1, hwebp'.2.2]
    · rename_i hother
      refine .png ?_ rfl
      rw [Bool.or_eq_true, Bool.or_eq_true] at hsigned
      rcases hsigned with (hpng | hjpeg') | hwebp'
      · exact hpng
      · exact absurd (beq_iff_eq.1 hjpeg') hjpeg
      · unfold isWebp at hwebp'
        rw [hriff, hwebp] at hwebp'
        simp only [Bool.and_eq_true, decide_eq_true_eq, beq_iff_eq]
          at hwebp'
        exact absurd ⟨hwebp'.1.1, hwebp'.1.2, hwebp'.2⟩ hother

-- =============================================================== answers

/-- An answer with bytes has those of the tile that it was made of, and is
an image of its type if that tile was downloaded. -/
def TileAnswer (reply : TileReply) : Prop :=
  ∀ mimeType bytes, reply.response.body = .bytes mimeType bytes →
    reply.response.status = 200 ∧ ∃ data, reply.tile = some data ∧
      data.bytes = bytes ∧ ServedBlob data ∧
      (data.origin ≠ none → NamesImage mimeType bytes)

theorem tileAnswer_text (status : Nat) (message : String) :
    TileAnswer (textReply status message) := by
  intro mimeType bytes h
  cases h

theorem tileAnswer_tile {data : Blob} (h : ServedBlob data) :
    TileAnswer (tileReply data) := by
  intro mimeType bytes hbody
  cases hbody
  refine ⟨rfl, data, rfl, rfl, h, ?_⟩
  intro horigin
  exact mapTileMimeType_names (h.sound horigin)

theorem tileAnswer_signal {signal : Signal}
    (h : ∀ key data, signal = .tileReady key data → ServedBlob data) :
    TileAnswer (signalReply signal) := by
  cases signal with
  | tileReady key data => exact tileAnswer_tile (h key data rfl)
  | tileFailed key reason =>
      cases reason with
      | upstreamError => exact tileAnswer_text _ _
      | timeout => exact tileAnswer_text _ _
      | cancelled => exact tileAnswer_text _ _

/-- The answers that were given, and what the next ones come from. -/
structure AnswersInv (s : State) : Prop where
  dirs : OwnDirs s.maptiles.providerCachePaths
  images : ImageInv s.maptiles
  answers : ∀ c ∈ s.completed, TileAnswer c.reply

variable {s : State}

/-- A signal completes promises with its response. -/
theorem completed_onSignal (signal : Signal) (s : State) :
    ∀ c ∈ (onSignal s signal).completed,
      c ∈ s.completed ∨ c.reply = signalReply signal := by
  intro c hc
  have hc : c ∈ s.completed ++ ((s.connectionsPending.lookup
      signal.key).getD []).map (fun p =>
        TileCompletion.mk p (signalReply signal)) := hc
  rcases List.mem_append.1 hc with hc | hc
  · exact Or.inl hc
  · obtain ⟨p, -, rfl⟩ := List.mem_map.1 hc
    exact Or.inr rfl

theorem completed_foldl (signals : List Signal) (s : State) :
    ∀ c ∈ (signals.foldl onSignal s).completed,
      c ∈ s.completed ∨ ∃ signal ∈ signals,
        c.reply = signalReply signal := by
  induction signals generalizing s with
  | nil =>
      intro c hc
      exact Or.inl hc
  | cons signal signals ih =>
      intro c hc
      rcases ih (onSignal s signal) c hc with hc | ⟨later, hlater, heq⟩
      · rcases completed_onSignal signal s c hc with hc | heq
        · exact Or.inl hc
        · exact Or.inr ⟨signal, List.mem_cons_self, heq⟩
      · exact Or.inr ⟨later, List.mem_cons_of_mem signal hlater, heq⟩

/-- Delivering the signals of the store. -/
theorem answersInv_deliver {maptiles : Maps.State}
    (hdirs : OwnDirs maptiles.providerCachePaths)
    (himages : ImageInv maptiles)
    (h : ∀ c ∈ s.completed, TileAnswer c.reply) :
    AnswersInv (deliver { s with maptiles := maptiles }) where
  dirs := by
    rw [deliver_maptiles]
    exact hdirs
  images := by
    rw [deliver_maptiles]
    exact himages
  answers := by
    intro c hc
    rcases completed_foldl _ _ c hc with hc | ⟨signal, hsignal, heq⟩
    · exact h c hc
    · rw [heq]
      apply tileAnswer_signal
      intro key data hready
      exact himages.outbox key data (hready ▸ hsignal)

theorem answersInv_awaitTile (h : AnswersInv s) (key : String) :
    AnswersInv (awaitTile cfg key s) := by
  have hmaptiles : (awaitTile cfg key s).maptiles = s.maptiles :=
    awaitTile_maptiles key s
  refine ⟨hmaptiles ▸ h.dirs, hmaptiles ▸ h.images, ?_⟩
  unfold awaitTile appendPendingPromise
  dsimp only
  split
  · rename_i s' heq
    split at heq
    · cases heq
    · cases heq
      exact h.answers
  · intro c hc
    rcases List.mem_append.1 hc with hc | hc
    · exact h.answers c hc
    · rw [List.map_singleton] at hc
      rw [List.mem_singleton.1 hc]
      exact tileAnswer_text _ _

/-- A GET is answered with a tile, or without bytes. -/
theorem answersInv_getTile (h : AnswersInv s) (choice : Choice)
    (request : TileGet) :
    AnswersInv (getTile cfg choice request s).2 ∧
      ∀ reply, (getTile cfg choice request s).1 = some reply →
        TileAnswer reply := by
  have hempty : ImageInv { s.maptiles with outbox := [] } := by
    refine ⟨h.images.memory, h.images.files, h.images.writes,
      h.images.reads, ?_⟩
    intro key data hmem
    cases hmem
  obtain ⟨hserved, himages⟩ := @getTileForHttp_image cfg.store _ hempty
    choice request.provider request.z request.x request.y request.key
  have hrequested := getTileForHttp_requested
    (s := { s.maptiles with outbox := [] }) h.dirs cfg.store choice
    request.provider request.z request.x request.y request.key
  have hdirs :=
    @Simulated.answered cfg.store _ request.key _ hrequested.simulated
  have hdelivered := answersInv_deliver (s := s) hdirs.dirs
    (@imageInv_answered request.key _ himages) h.answers
  unfold getTile
  split
  · dsimp only
    split
    · rename_i reply hreply
      refine ⟨hdelivered, ?_⟩
      intro reply' heq
      cases heq
      unfold readyReply at hreply
      split at hreply
      · rename_i hready
        cases hreply
        exact tileAnswer_tile (hserved hready)
      · cases hreply
        exact tileAnswer_text _ _
      · cases hreply
        exact tileAnswer_text _ _
      · split at hreply
        · cases hreply
          exact tileAnswer_text _ _
        · cases hreply
    · refine ⟨answersInv_awaitTile hdelivered _, ?_⟩
      intro reply heq
      cases heq
  · refine ⟨h, ?_⟩
    intro reply heq
    cases heq
    exact tileAnswer_text _ _

theorem answersInv_step {a : Action} {u : State} (h : AnswersInv s)
    (himages : ImagesOnly a s) (hstep : apply cfg a s = some u) :
    AnswersInv u := by
  cases a with
  | get choice request =>
      cases hstep
      exact (answersInv_getTile h choice request).1
  | store a =>
      obtain ⟨maptiles, hmaptiles, rfl⟩ := Option.map_eq_some_iff.1 hstep
      exact answersInv_deliver (apply_simulated h.dirs hmaptiles).dirs
        (imageInv_apply h.images h.dirs himages hmaptiles) h.answers

theorem answersInv_init (files : QHash TilePath OutsideFile)
    (markers : QHash String String) :
    AnswersInv (State.init cfg files markers) where
  dirs := ownDirs_empty
  images := by
    have hinit := imageInv_init files markers
    refine ⟨?_, hinit.files, hinit.writes, hinit.reads, hinit.outbox⟩
    intro key data h
    cases h
  answers := by
    intro c hc
    cases hc

/-- Every answer the endpoint has given or gives next is a tile, or
carries no bytes; and what it stores of its downloads are images. -/
theorem networked_answers {w : Networked}
    (h : NetworkedReachable cfg toLower platform w) :
    (∀ c ∈ w.server.completed, TileAnswer c.reply) ∧
      ImageInv w.server.maptiles ∧
      ∀ choice request reply,
        (getTile cfg choice request w.server).1 = some reply →
        TileAnswer reply := by
  obtain ⟨files, markers, hrun⟩ := networked_server h
  have hinv : AnswersInv w.server := by
    apply hrun.invariant (answersInv_init files markers)
    intro a s₁ s₂ hinv himages hstep
    exact answersInv_step hinv himages hstep
  refine ⟨hinv.answers, hinv.images, ?_⟩
  intro choice request reply
  exact (answersInv_getTile hinv choice request).2 reply

/-- A tile is asked for, arrives, and is written to its file. -/
def arrivedTile : List NetworkedAction :=
  [ .get {} { provider := openStreetMap, z := 3, x := 0, y := 0 },
    .network 0 (.finished 0 { body := [0xff, 0xd8, 0xff, 0xe0] }),
    .store (.writeRuns 0 true), .store (.writeFinished 0) ]

/-- The tile is served as the image it is, with its download as origin. -/
theorem networked_answers_arrivedTile :
    ∃ w, runActions (networked smallServer id .other) arrivedTile
        (Networked.init smallServer ∅ ∅) = some w ∧
      (∀ c ∈ w.server.completed, TileAnswer c.reply) ∧
      ImageInv w.server.maptiles ∧
      w.server.completed.map (fun c =>
          (c.reply.response, c.reply.tile.map (·.origin.isSome)))
        = [(⟨200, .bytes "image/jpeg" [0xff, 0xd8, 0xff, 0xe0]⟩,
          some true)] := by
  have hrun : (runActions (networked smallServer id .other) arrivedTile
      (Networked.init smallServer ∅ ∅)).map (fun w =>
        w.server.completed.map (fun c =>
          (c.reply.response, c.reply.tile.map (·.origin.isSome))))
      = some [(⟨200, .bytes "image/jpeg" [0xff, 0xd8, 0xff, 0xe0]⟩,
        some true)] := by
    decide +kernel
  obtain ⟨w, hw, hval⟩ := Option.map_eq_some_iff.1 hrun
  obtain ⟨hanswers, himages, -⟩ :=
    networked_answers ⟨∅, ∅, run_of_runActions hw⟩
  exact ⟨w, hw, hanswers, himages, hval⟩

end AowisMap.Server.TileEndpoint
