/-
What a `TileHttpClient` promises its owner, whatever the network does and
in whichever order the calls and events come.

# One place for each request

Every `get` and `post` is in exactly one place: a reply that has not
ended, a scheduled second attempt, or one signal (`ClientContract`). So
no request is answered twice, and none is lost: what has not been
answered has an event that will still come.

A request changes its place in two halves: it is taken out of one
(`ClientInv` with the request in hand), and put into another or
answered. The invariant is stated for both, so each operation is the
composition of two short lemmas.

# Cancellation

Behind a `cancel` no request is sent any more and every signal is
`Cancelled`, until the next `get` (`cancelled_run`).
-/
import AowisMap.Maps.TileHttpClient

namespace AowisMap.Maps.TileHttpClient

open Lib

variable {toLower : List Char → List Char} {platform : Platform}

-- ========================================================== the verdict

/-- What passes for a tile. -/
structure AcceptedImage (data : Bytes) : Prop where
  nonempty : data ≠ []
  bounded : data.length ≤ maximumTileSize
  signed : hasSupportedImageSignature data = true

/-- What the test of a response lets through is an accepted image. -/
theorem tileError_none {answer : Answer}
    (h : tileError toLower answer = none) : AcceptedImage answer.body := by
  simp only [tileError] at h
  split at h
  · cases h
  · rename_i hnonempty
    split at h
    · cases h
    · rename_i hsize
      split at h
      · cases h
      · split at h
        · cases h
        · rename_i hsigned
          refine ⟨hnonempty, Nat.le_of_not_lt hsize, ?_⟩
          rw [← Bool.not_eq_false]
          exact hsigned

/-- A tile that is passed on was accepted. -/
theorem responseOutcome_finished {validate : Bool} {answer : Answer}
    {data : Bytes} {store : Bool}
    (h : responseOutcome toLower validate answer
      = .requestFinished data store) :
    validate = true → AcceptedImage data := by
  intro hvalidate
  subst hvalidate
  unfold responseOutcome at h
  split at h
  · cases h
  · split at h
    · cases h
    · rw [if_pos rfl] at h
      split at h
      · rename_i error herror
        rw [h] at herror
        simp only [tileError, tooLargeOutcome] at herror
        split at herror
        · cases herror
        · split at herror
          · cases herror
          · split at herror
            · cases herror
            · split at herror
              · cases herror
              · cases herror
      · rename_i hnone
        cases h
        exact tileError_none hnone

/-- A client that was told to cancel says so. -/
theorem verdict_cancelled (reply : Reply) (answer : Answer) :
    verdict toLower platform true reply answer
      = .emits cancelledOutcome := by
  cases platform with
  | windows => rfl
  | other => rfl

/-- Only a tile request is repeated, and not too often. -/
theorem verdict_retries {cancelled : Bool} {reply : Reply} {answer : Answer}
    (h : verdict toLower platform cancelled reply answer = .retries) :
    cancelled = false ∧ reply.validateTileResponse = true ∧
      reply.attempt < timeoutRetryCount platform := by
  cases cancelled with
  | true =>
      rw [verdict_cancelled] at h
      cases h
  | false =>
      refine ⟨rfl, ?_⟩
      cases platform with
      | windows =>
          simp only [verdict, windowsVerdict] at h
          rw [if_neg Bool.false_ne_true] at h
          split at h
          · cases h
          · split at h
            · split at h
              · rename_i hagain
                exact hagain
              · split at h
                · cases h
                · cases h
            · split at h
              · cases h
              · cases h
      | other =>
          simp only [verdict, otherVerdict] at h
          rw [if_neg Bool.false_ne_true] at h
          split at h
          · cases h
          · split at h
            · cases h
            · split at h
              · cases h
              · cases h

/-- A tile that is passed on was accepted, and nobody cancelled. -/
theorem verdict_finished {cancelled : Bool} {reply : Reply} {answer : Answer}
    {data : Bytes} {store : Bool}
    (h : verdict toLower platform cancelled reply answer
      = .emits (.requestFinished data store)) :
    cancelled = false ∧
      (reply.validateTileResponse = true → AcceptedImage data) := by
  cases cancelled with
  | true =>
      rw [verdict_cancelled] at h
      cases h
  | false =>
      refine ⟨rfl, ?_⟩
      cases platform with
      | windows =>
          simp only [verdict, windowsVerdict] at h
          rw [if_neg Bool.false_ne_true] at h
          split at h
          · cases h
          · split at h
            · split at h
              · cases h
              · split at h
                · cases h
                · cases h
            · split at h
              · cases h
              · exact responseOutcome_finished (Verdict.emits.inj h)
      | other =>
          simp only [verdict, otherVerdict] at h
          rw [if_neg Bool.false_ne_true] at h
          split at h
          · cases h
          · split at h
            · cases h
            · split at h
              · cases h
              · exact responseOutcome_finished (Verdict.emits.inj h)

-- ================================================== where a request is

/-- The replies to a request that have not ended. -/
def repliesTo (r : RequestId) (s : State) : Nat :=
  QHash.carrying Reply.request r s.replies

/-- The second attempts of a request that are scheduled. -/
def retriesOf (r : RequestId) (s : State) : Nat :=
  QHash.carrying Retry.request r s.retries

/-- The signals about a request. -/
def signalsOf (r : RequestId) (s : State) : Nat :=
  s.emitted.countP fun e => e.request == r

/-- A signal counts for its request alone. -/
theorem signalsOf_emit (request r : RequestId) (validated : Bool)
    (outcome : Outcome) (s : State) :
    signalsOf r (emit request validated outcome s)
      = signalsOf r s + if request = r then 1 else 0 := by
  unfold signalsOf emit
  rw [List.countP_append, List.countP_singleton]
  simp only [beq_iff_eq]

/-- The tables agree; a request in hand is in none of them. -/
structure ClientInv (platform : Platform) (hand : Option RequestId)
    (s : State) : Prop where
  places : ∀ r, repliesTo r s + retriesOf r s + signalsOf r s
    = if r < s.nextRequest ∧ hand ≠ some r then 1 else 0
  freshReplies : ∀ id, s.nextReply ≤ id → s.replies.lookup id = none
  freshTimers : ∀ id, s.nextTimer ≤ id → s.retries.lookup id = none
  active : ∀ id, s.activeReply = some id → id ∈ s.replies
  replied : ∀ id reply, s.replies.lookup id = some reply →
    s.sent.count reply.request = reply.attempt + 1 ∧
      reply.attempt ≤ timeoutRetryCount platform
  retried : ∀ id retry, s.retries.lookup id = some retry →
    s.sent.count retry.request = retry.attempt + 1 ∧
      retry.attempt < timeoutRetryCount platform
  attempts : ∀ r, s.sent.count r ≤ timeoutRetryCount platform + 1
  unsent : ∀ r, s.nextRequest ≤ r → s.sent.count r = 0
  images : ∀ e ∈ s.emitted, e.validated = true → ∀ data store,
    e.outcome = .requestFinished data store → AcceptedImage data

/-- Nothing was asked for yet. -/
theorem clientInv_init : ClientInv platform none State.init where
  places r := by
    have hno : ¬ r < State.init.nextRequest := Nat.not_lt_zero r
    rw [if_neg fun h => hno h.1]
    rfl
  freshReplies _ _ := rfl
  freshTimers _ _ := rfl
  active id h := by cases h
  replied id reply h := by cases h
  retried id retry h := by cases h
  attempts r := Nat.zero_le _
  unsent _ _ := rfl
  images e he := by cases he

variable {r : RequestId} {s : State}

/-- No live reply belongs to the request in hand. -/
theorem ClientInv.reply_ne (h : ClientInv platform (some r) s) {id : ReplyId}
    {reply : Reply} (hid : s.replies.lookup id = some reply) :
    reply.request ≠ r := by
  intro heq
  have hplaces := h.places r
  rw [if_neg fun hboth => hboth.2 rfl] at hplaces
  have hle : 1 ≤ repliesTo r s := heq ▸ QHash.carrying_pos hid
  omega

/-- No second attempt belongs to the request in hand. -/
theorem ClientInv.retry_ne (h : ClientInv platform (some r) s) {id : TimerId}
    {retry : Retry} (hid : s.retries.lookup id = some retry) :
    retry.request ≠ r := by
  intro heq
  have hplaces := h.places r
  rw [if_neg fun hboth => hboth.2 rfl] at hplaces
  have hle : 1 ≤ retriesOf r s := heq ▸ QHash.carrying_pos hid
  omega

-- ================================================== taking a request out

/-- The count of a request's places when one of them is given up. -/
theorem places_taken {issued taken : RequestId} {before after : Nat}
    (hbefore : before = if r < issued ∧ none ≠ some r then 1 else 0)
    (htaken : after + (if taken = r then 1 else 0) = before) :
    after = if r < issued ∧ some taken ≠ some r then 1 else 0 := by
  by_cases hr : taken = r
  · rw [if_pos hr] at htaken
    rw [if_neg fun hboth => hboth.2 (congrArg some hr)]
    split at hbefore
    · omega
    · omega
  · rw [if_neg hr] at htaken
    rw [← htaken] at hbefore
    simp only [ne_eq, reduceCtorEq, not_false_eq_true, and_true,
      Nat.add_zero] at hbefore
    simp only [ne_eq, Option.some.injEq, hr, not_false_eq_true, and_true]
    exact hbefore

/-- A new request is in hand. -/
theorem ClientInv.opened (h : ClientInv platform none s) (cancelled : Bool) :
    ClientInv platform (some s.nextRequest) { s with
      cancelRequested := cancelled
      nextRequest := s.nextRequest + 1 } where
  places r := by
    have hplaces := h.places r
    show repliesTo r s + retriesOf r s + signalsOf r s = _
    rw [hplaces]
    by_cases hr : r < s.nextRequest
    · have hne : some s.nextRequest ≠ some r := by
        intro heq
        rw [Option.some.inj heq] at hr
        exact Nat.lt_irrefl r hr
      rw [if_pos ⟨hr, by simp⟩, if_pos ⟨Nat.lt_succ_of_lt hr, hne⟩]
    · rw [if_neg fun hboth => hr hboth.1, if_neg]
      intro hboth
      have hle : r ≤ s.nextRequest := Nat.le_of_lt_succ hboth.1
      have heq : s.nextRequest = r := Nat.le_antisymm (Nat.le_of_not_lt hr) hle
      exact hboth.2 (congrArg some heq)
  freshReplies := h.freshReplies
  freshTimers := h.freshTimers
  active := h.active
  replied := h.replied
  retried := h.retried
  attempts := h.attempts
  unsent r hr := h.unsent r (Nat.le_of_succ_le hr)
  images := h.images

/-- A reply that ended leaves its request in hand. -/
theorem ClientInv.ended (h : ClientInv platform none s) {id : ReplyId}
    {reply : Reply} (hid : s.replies.lookup id = some reply) :
    ClientInv platform (some reply.request) { s with
      activeReply := if s.activeReply = some id then none else s.activeReply
      replies := s.replies.erase id } where
  places r := by
    have herase : repliesTo r s = QHash.carrying Reply.request r
        (s.replies.erase id) + if reply.request = r then 1 else 0 :=
      QHash.carrying_erase hid r
    refine places_taken (h.places r) ?_
    show QHash.carrying Reply.request r (s.replies.erase id)
      + retriesOf r s + signalsOf r s + _ = _
    omega
  freshReplies id' hid' := by
    show (s.replies.erase id).lookup id' = none
    by_cases hne : id' = id
    · rw [hne, AList.lookup_erase]
    · rw [AList.lookup_erase_ne hne]
      exact h.freshReplies id' hid'
  freshTimers := h.freshTimers
  active id' hid' := by
    have hid' : (if s.activeReply = some id then none else s.activeReply)
        = some id' := hid'
    split at hid'
    · cases hid'
    · rename_i hother
      show id' ∈ s.replies.erase id
      rw [AList.mem_erase]
      refine ⟨?_, h.active id' hid'⟩
      intro heq
      rw [heq] at hid'
      exact hother hid'
  replied id' reply' hid' := by
    have hid' : (s.replies.erase id).lookup id' = some reply' := hid'
    by_cases hne : id' = id
    · rw [hne, AList.lookup_erase] at hid'
      cases hid'
    · rw [AList.lookup_erase_ne hne] at hid'
      exact h.replied id' reply' hid'
  retried := h.retried
  attempts := h.attempts
  unsent := h.unsent
  images := h.images

/-- A retry timer that fired leaves its request in hand. -/
theorem ClientInv.fired (h : ClientInv platform none s) {id : TimerId}
    {retry : Retry} (hid : s.retries.lookup id = some retry) :
    ClientInv platform (some retry.request)
      { s with retries := s.retries.erase id } where
  places r := by
    have herase : retriesOf r s = QHash.carrying Retry.request r
        (s.retries.erase id) + if retry.request = r then 1 else 0 :=
      QHash.carrying_erase hid r
    refine places_taken (h.places r) ?_
    show repliesTo r s + QHash.carrying Retry.request r (s.retries.erase id)
      + signalsOf r s + _ = _
    omega
  freshReplies := h.freshReplies
  freshTimers id' hid' := by
    show (s.retries.erase id).lookup id' = none
    by_cases hne : id' = id
    · rw [hne, AList.lookup_erase]
    · rw [AList.lookup_erase_ne hne]
      exact h.freshTimers id' hid'
  active := h.active
  replied := h.replied
  retried id' retry' hid' := by
    have hid' : (s.retries.erase id).lookup id' = some retry' := hid'
    by_cases hne : id' = id
    · rw [hne, AList.lookup_erase] at hid'
      cases hid'
    · rw [AList.lookup_erase_ne hne] at hid'
      exact h.retried id' retry' hid'
  attempts := h.attempts
  unsent := h.unsent
  images := h.images

-- ============================================== putting a request somewhere

/-- The count of a request's places when one is found for it. -/
theorem places_given {issued given : RequestId} {before after : Nat}
    (hissued : given < issued)
    (hbefore : before = if r < issued ∧ some given ≠ some r then 1 else 0)
    (hgiven : after = before + if given = r then 1 else 0) :
    after = if r < issued ∧ none ≠ some r then 1 else 0 := by
  by_cases hr : given = r
  · rw [if_neg fun hboth => hboth.2 (congrArg some hr)] at hbefore
    rw [if_pos hr, hbefore] at hgiven
    rw [if_pos ⟨hr ▸ hissued, by simp⟩, hgiven]
  · rw [if_neg hr, Nat.add_zero] at hgiven
    rw [hgiven, hbefore]
    simp only [ne_eq, Option.some.injEq, hr, not_false_eq_true, and_true,
      reduceCtorEq]

/-- The request in hand is answered. -/
theorem ClientInv.answered (h : ClientInv platform (some r) s)
    (hissued : r < s.nextRequest) {validated : Bool} {outcome : Outcome}
    (himage : validated = true → ∀ data store,
      outcome = .requestFinished data store → AcceptedImage data) :
    ClientInv platform none (emit r validated outcome s) where
  places r' := by
    refine places_given hissued (h.places r') ?_
    rw [signalsOf_emit]
    exact (Nat.add_assoc _ _ _).symm
  freshReplies := h.freshReplies
  freshTimers := h.freshTimers
  active := h.active
  replied := h.replied
  retried := h.retried
  attempts := h.attempts
  unsent := h.unsent
  images e he := by
    rcases List.mem_append.1 he with he | he
    · exact h.images e he
    · rw [List.mem_singleton.1 he]
      exact himage

/-- The request in hand is sent. -/
theorem ClientInv.requested (h : ClientInv platform (some r) s)
    (hissued : r < s.nextRequest) {reply : Reply} (hfor : reply.request = r)
    (hcount : s.sent.count r = reply.attempt)
    (hattempt : reply.attempt ≤ timeoutRetryCount platform)
    {active : Option ReplyId}
    (hactive : active = s.activeReply ∨ active = some s.nextReply) :
    ClientInv platform none { s with
      replies := s.replies.insert s.nextReply reply
      activeReply := active
      nextReply := s.nextReply + 1
      sent := s.sent ++ [r] } where
  places r' := by
    have hinsert := @QHash.carrying_insert _ _ _ _ _ Reply.request _ reply _
      (h.freshReplies s.nextReply (Nat.le_refl _)) r'
    rw [hfor] at hinsert
    refine places_given hissued (h.places r') ?_
    show QHash.carrying Reply.request r' (s.replies.insert s.nextReply reply)
      + retriesOf r' s + signalsOf r' s = repliesTo r' s + _ + _ + _
    unfold repliesTo
    omega
  freshReplies id hid := by
    have hne : id ≠ s.nextReply :=
      Nat.ne_of_gt (Nat.lt_of_succ_le hid)
    show (s.replies.insert s.nextReply reply).lookup id = none
    rw [AList.lookup_insert_ne hne]
    exact h.freshReplies id (Nat.le_of_succ_le hid)
  freshTimers := h.freshTimers
  active id hid := by
    show id ∈ s.replies.insert s.nextReply reply
    rw [AList.mem_insert]
    have hid : active = some id := hid
    rcases hactive with hactive | hactive
    · exact Or.inr (h.active id (hactive ▸ hid))
    · rw [hactive] at hid
      exact Or.inl (Option.some.inj hid).symm
  replied id reply' hid := by
    have hid : (s.replies.insert s.nextReply reply).lookup id = some reply' :=
      hid
    show (s.sent ++ [r]).count _ = _ ∧ _
    rw [List.count_append]
    by_cases hne : id = s.nextReply
    · rw [hne, AList.lookup_insert] at hid
      cases hid
      rw [hfor, hcount, List.count_singleton_self]
      exact ⟨rfl, hattempt⟩
    · rw [AList.lookup_insert_ne hne] at hid
      have hother := h.reply_ne hid
      rw [List.count_singleton, if_neg (by simpa using hother.symm)]
      exact h.replied id reply' hid
  retried id retry hid := by
    show (s.sent ++ [r]).count _ = _ ∧ _
    have hother := h.retry_ne hid
    rw [List.count_append, List.count_singleton,
      if_neg (by simpa using hother.symm)]
    exact h.retried id retry hid
  attempts r' := by
    show (s.sent ++ [r]).count r' ≤ _
    rw [List.count_append, List.count_singleton]
    have hold := h.attempts r'
    split
    · rename_i heq
      rw [← eq_of_beq heq, hcount]
      omega
    · exact hold
  unsent r' hr' := by
    have hr' : s.nextRequest ≤ r' := hr'
    have hne : r ≠ r' := Nat.ne_of_lt (Nat.lt_of_lt_of_le hissued hr')
    show (s.sent ++ [r]).count r' = 0
    rw [List.count_append, List.count_singleton, if_neg (by simpa using hne),
      h.unsent r' hr']
  images := h.images

/-- The request in hand is scheduled again. -/
theorem ClientInv.delayed (h : ClientInv platform (some r) s)
    (hissued : r < s.nextRequest) {retry : Retry} (hfor : retry.request = r)
    (hcount : s.sent.count r = retry.attempt + 1)
    (hattempt : retry.attempt < timeoutRetryCount platform) :
    ClientInv platform none { s with
      retries := s.retries.insert s.nextTimer retry
      nextTimer := s.nextTimer + 1 } where
  places r' := by
    have hinsert := @QHash.carrying_insert _ _ _ _ _ Retry.request _ retry _
      (h.freshTimers s.nextTimer (Nat.le_refl _)) r'
    rw [hfor] at hinsert
    refine places_given hissued (h.places r') ?_
    show repliesTo r' s
      + QHash.carrying Retry.request r' (s.retries.insert s.nextTimer retry)
      + signalsOf r' s = _ + retriesOf r' s + _ + _
    unfold retriesOf
    omega
  freshReplies := h.freshReplies
  freshTimers id hid := by
    have hne : id ≠ s.nextTimer := Nat.ne_of_gt (Nat.lt_of_succ_le hid)
    show (s.retries.insert s.nextTimer retry).lookup id = none
    rw [AList.lookup_insert_ne hne]
    exact h.freshTimers id (Nat.le_of_succ_le hid)
  active := h.active
  replied := h.replied
  retried id retry' hid := by
    have hid : (s.retries.insert s.nextTimer retry).lookup id = some retry' :=
      hid
    by_cases hne : id = s.nextTimer
    · rw [hne, AList.lookup_insert] at hid
      cases hid
      rw [hfor]
      exact ⟨hcount, hattempt⟩
    · rw [AList.lookup_insert_ne hne] at hid
      exact h.retried id retry' hid
  attempts := h.attempts
  unsent := h.unsent
  images := h.images

-- ================================================================== steps

/-- A request that is held by no reply and no timer is sent, and then held by
its reply. -/
theorem clientInv_send (h : ClientInv platform (some r) s)
    (hissued : r < s.nextRequest) {attempt : Nat}
    (hcount : s.sent.count r = attempt)
    (hattempt : attempt ≤ timeoutRetryCount platform) (endpoint : String) :
    ClientInv platform none (send r endpoint attempt s) := by
  unfold send
  exact h.requested hissued rfl hcount hattempt (Or.inr rfl)

/-- An attempt is a request that is sent once more. -/
theorem clientInv_getAttempt (h : ClientInv platform (some r) s)
    (hissued : r < s.nextRequest) {attempt : Nat}
    (hcount : s.sent.count r = attempt)
    (hattempt : attempt ≤ timeoutRetryCount platform) (endpoint : String) :
    ClientInv platform none (getAttempt r endpoint attempt s) := by
  unfold getAttempt
  split
  · apply h.answered hissued
    intro _ data store heq
    cases heq
  · exact clientInv_send h hissued hcount hattempt endpoint

/-- A new request gets a number of its own. -/
theorem clientInv_get (h : ClientInv platform none s) (endpoint : String) :
    ClientInv platform none (get platform endpoint s) := by
  have hopened := h.opened false
  have hissued : s.nextRequest < s.nextRequest + 1 := Nat.lt_succ_self _
  have hcount := h.unsent s.nextRequest (Nat.le_refl _)
  unfold get
  cases platform with
  | windows =>
      exact clientInv_getAttempt hopened hissued hcount (Nat.zero_le _)
        endpoint
  | other =>
      exact clientInv_send hopened hissued hcount (Nat.zero_le _) endpoint

/-- So does one with a body. -/
theorem clientInv_post (h : ClientInv platform none s) (endpoint : String) :
    ClientInv platform none (post endpoint s) := by
  unfold post
  exact (h.opened s.cancelRequested).requested (Nat.lt_succ_self _) rfl
    (h.unsent s.nextRequest (Nat.le_refl _)) (Nat.zero_le _) (Or.inl rfl)

/-- Cancelling answers nothing by itself: the replies finish later. -/
theorem clientInv_cancel (h : ClientInv platform none s) :
    ClientInv platform none (cancel s) :=
  ⟨h.places, h.freshReplies, h.freshTimers, h.active, h.replied, h.retried,
    h.attempts, h.unsent, h.images⟩

/-- Properties of a reply change neither its request nor its attempt. -/
theorem clientInv_setReply (h : ClientInv platform none s) {id : ReplyId}
    {old reply : Reply} (hid : s.replies.lookup id = some old)
    (hrequest : reply.request = old.request)
    (hattempt : reply.attempt = old.attempt) :
    ClientInv platform none (setReply id reply s) where
  places r := by
    have hreplace :=
      @QHash.carrying_replace _ _ _ _ _ Reply.request _ _ _ _ hid hrequest r
    show QHash.carrying Reply.request r (s.replies.insert id reply)
      + retriesOf r s + signalsOf r s = _
    rw [hreplace]
    exact h.places r
  freshReplies id' hid' := by
    have hne : id' ≠ id := by
      intro heq
      rw [heq] at hid'
      rw [h.freshReplies id hid'] at hid
      cases hid
    show (s.replies.insert id reply).lookup id' = none
    rw [AList.lookup_insert_ne hne]
    exact h.freshReplies id' hid'
  freshTimers := h.freshTimers
  active id' hid' := by
    show id' ∈ s.replies.insert id reply
    rw [AList.mem_insert]
    exact Or.inr (h.active id' hid')
  replied id' reply' hid' := by
    have hid' : (s.replies.insert id reply).lookup id' = some reply' := hid'
    by_cases hne : id' = id
    · rw [hne, AList.lookup_insert] at hid'
      cases hid'
      rw [hrequest, hattempt]
      exact h.replied id old hid
    · rw [AList.lookup_insert_ne hne] at hid'
      exact h.replied id' reply' hid'
  retried := h.retried
  attempts := h.attempts
  unsent := h.unsent
  images := h.images

/-- A request that has a place was issued. -/
theorem ClientInv.reply_issued (h : ClientInv platform none s) {id : ReplyId}
    {reply : Reply} (hid : s.replies.lookup id = some reply) :
    reply.request < s.nextRequest := by
  by_contra hno
  have hzero := h.unsent reply.request (Nat.le_of_not_lt hno)
  rw [(h.replied id reply hid).1] at hzero
  cases hzero

/-- A timer waits for a request that was made. -/
theorem ClientInv.retry_issued (h : ClientInv platform none s) {id : TimerId}
    {retry : Retry} (hid : s.retries.lookup id = some retry) :
    retry.request < s.nextRequest := by
  by_contra hno
  have hzero := h.unsent retry.request (Nat.le_of_not_lt hno)
  rw [(h.retried id retry hid).1] at hzero
  cases hzero

/-- A reply that finished is answered, or its request waits for a timer. -/
theorem clientInv_handleReply (h : ClientInv platform none s) {id : ReplyId}
    {reply : Reply} (hid : s.replies.lookup id = some reply)
    (answer : Answer) :
    ClientInv platform none
      (handleReply toLower platform id reply answer s) := by
  have hended := h.ended hid
  have hissued := h.reply_issued hid
  obtain ⟨hcount, hattempt⟩ := h.replied id reply hid
  unfold handleReply
  simp only
  split
  · rename_i outcome hverdict
    apply hended.answered hissued
    intro hvalidated data store heq
    rw [heq] at hverdict
    exact (verdict_finished hverdict).2 hvalidated
  · rename_i hverdict
    exact hended.delayed hissued rfl hcount (verdict_retries hverdict).2.2

/-- One step, by the action it performs. -/
theorem clientInv_step {a : Action} {u : State}
    (h : ClientInv platform none s)
    (hstep : next toLower platform a s = some u) :
    ClientInv platform none u := by
  cases a with
  | get endpoint =>
      cases hstep
      exact clientInv_get h endpoint
  | post endpoint =>
      cases hstep
      exact clientInv_post h endpoint
  | cancel =>
      cases hstep
      exact clientInv_cancel h
  | progress id received total =>
      obtain ⟨reply, hreply, heq⟩ := Option.map_eq_some_iff.1 hstep
      have hid := (Option.filter_eq_some_iff.1 hreply).1
      rw [← heq]
      split
      · exact clientInv_setReply h hid rfl rfl
      · exact h
  | overallDeadline id =>
      obtain ⟨reply, hreply, heq⟩ := Option.map_eq_some_iff.1 hstep
      rw [← heq]
      exact clientInv_setReply h (Option.filter_eq_some_iff.1 hreply).1 rfl
        rfl
  | finished id answer =>
      obtain ⟨reply, hid, heq⟩ := Option.map_eq_some_iff.1 hstep
      rw [← heq]
      exact clientInv_handleReply h hid answer
  | retryDelay timer =>
      obtain ⟨retry, hid, heq⟩ := Option.map_eq_some_iff.1 hstep
      obtain ⟨hcount, hattempt⟩ := h.retried timer retry hid
      rw [← heq]
      exact clientInv_getAttempt (h.fired hid) (h.retry_issued hid) hcount
        hattempt retry.endpoint

/-- In every state that events lead to. -/
theorem clientInv_reachable (h : Reachable toLower platform s) :
    ClientInv platform none s :=
  h.invariant clientInv_init fun _ _ _ hinv _ hstep =>
    clientInv_step hinv hstep

-- =============================================================== contract

/-- What a client promises. -/
structure ClientContract (platform : Platform) (s : State) : Prop where
  /-- A request waits for one reply or one timer, or was answered once. -/
  settled : ∀ r < s.nextRequest,
    repliesTo r s + retriesOf r s + signalsOf r s = 1
  /-- Nothing else is waited for or answered. -/
  asked : ∀ r, s.nextRequest ≤ r →
    repliesTo r s + retriesOf r s + signalsOf r s = 0
  attempts : ∀ r, s.sent.count r ≤ timeoutRetryCount platform + 1
  /-- `active_reply` points to a reply that was not deleted. -/
  active : ∀ id, s.activeReply = some id → id ∈ s.replies
  images : ∀ e ∈ s.emitted, e.validated = true → ∀ data store,
    e.outcome = .requestFinished data store → AcceptedImage data

/-- Every client keeps its contract. -/
theorem clientContract_reachable (h : Reachable toLower platform s) :
    ClientContract platform s := by
  have hinv := clientInv_reachable h
  refine ⟨?_, ?_, hinv.attempts, hinv.active, hinv.images⟩
  · intro r hr
    rw [hinv.places r, if_pos ⟨hr, by simp⟩]
  · intro r hr
    rw [hinv.places r, if_neg fun hboth => Nat.not_lt_of_le hr hboth.1]

/-- A tile request of the Windows build that times out, is repeated and
brings a JPEG file of four bytes. -/
def timedOutTile : List Action :=
  [ .get "/3/0/0.png", .finished 0 { error := .timeoutError },
    .retryDelay 0, .finished 1 { body := [0xff, 0xd8, 0xff, 0xe0] } ]

/-- The first attempt times out, the second one brings the tile. -/
theorem clientContract_timedOutTile :
    ∃ s, runActions (next id .windows) timedOutTile State.init = some s ∧
      ClientContract .windows s ∧ s.sent = [0, 0] ∧
      s.emitted.map (·.outcome)
        = [.requestFinished [0xff, 0xd8, 0xff, 0xe0] true] := by
  have hrun : (runActions (next id .windows) timedOutTile State.init).map
      (fun s => (s.sent, s.emitted.map (·.outcome)))
        = some ([0, 0],
          [.requestFinished [0xff, 0xd8, 0xff, 0xe0] true]) := by
    decide +kernel
  obtain ⟨s, hs, hval⟩ := Option.map_eq_some_iff.1 hrun
  obtain ⟨hsent, hemitted⟩ := Prod.mk.inj hval
  exact ⟨s, hs, clientContract_reachable (run_of_runActions hs), hsent,
    hemitted⟩

-- ========================================================= network events

/-- A `get` or a `post`. -/
def Action.Asks : Action → Prop
  | .get _ | .post _ => True
  | _ => False

/-- All requests of a client were `get`s. -/
def TilesOnly (s : State) : Prop :=
  ∀ id reply, s.replies.lookup id = some reply →
    reply.validateTileResponse = true

/-- What is sent for a tile is tested as one. -/
theorem tilesOnly_send (h : TilesOnly s) (request : RequestId)
    (endpoint : String) (attempt : Nat) :
    TilesOnly (send request endpoint attempt s) := by
  intro id reply hid
  have hid : (s.replies.insert s.nextReply _).lookup id = some reply := hid
  by_cases hne : id = s.nextReply
  · rw [hne, AList.lookup_insert] at hid
    cases hid
    rfl
  · rw [AList.lookup_insert_ne hne] at hid
    exact h id reply hid

/-- A reply keeps the test it was sent with. -/
theorem tilesOnly_setReply (h : TilesOnly s) {id : ReplyId} {old reply : Reply}
    (hid : s.replies.lookup id = some old)
    (hsame : reply.validateTileResponse = old.validateTileResponse) :
    TilesOnly (setReply id reply s) := by
  intro id' reply' hid'
  have hid' : (s.replies.insert id reply).lookup id' = some reply' := hid'
  by_cases hne : id' = id
  · rw [hne, AList.lookup_insert] at hid'
    cases hid'
    rw [hsame]
    exact h id old hid
  · rw [AList.lookup_insert_ne hne] at hid'
    exact h id' reply' hid'

/-- What an event of the network or of a timer does: the client asks for
nothing new and stays as cancelled as it was, and it emits at most one
signal. -/
structure Heard (s u : State) : Prop where
  asked : u.nextRequest = s.nextRequest
  cancelled : u.cancelRequested = s.cancelRequested
  tiles : TilesOnly u
  emitted : u.emitted = s.emitted ∨ ∃ e, u.emitted = s.emitted ++ [e] ∧
    e.validated = true ∧
    (s.cancelRequested = true → e.outcome = cancelledOutcome)

/-- A step that emits nothing. -/
theorem Heard.still {u : State} (h : TilesOnly u)
    (hasked : u.nextRequest = s.nextRequest)
    (hcancelled : u.cancelRequested = s.cancelRequested)
    (hemitted : u.emitted = s.emitted) : Heard s u :=
  ⟨hasked, hcancelled, h, Or.inl hemitted⟩

/-- Sending is silent. -/
theorem heard_getAttempt {u : State} (h : Heard s u)
    (hemitted : u.emitted = s.emitted) (request : RequestId)
    (endpoint : String) (attempt : Nat) :
    Heard s (getAttempt request endpoint attempt u) := by
  unfold getAttempt
  split
  · refine ⟨h.asked, h.cancelled, h.tiles,
      Or.inr ⟨⟨request, true, cancelledOutcome⟩, ?_, rfl, ?_⟩⟩
    · show u.emitted ++ _ = _
      rw [hemitted]
    · intro _
      rfl
  · exact .still (tilesOnly_send h.tiles request endpoint attempt) h.asked
      h.cancelled hemitted

/-- A reply that finished emits at most one signal, about its own request. -/
theorem heard_handleReply (h : TilesOnly s) {id : ReplyId} {reply : Reply}
    (hid : s.replies.lookup id = some reply) (answer : Answer) :
    Heard s (handleReply toLower platform id reply answer s) := by
  have htiles : ∀ id' reply', (s.replies.erase id).lookup id' = some reply' →
      reply'.validateTileResponse = true := by
    intro id' reply' hid'
    by_cases hne : id' = id
    · rw [hne, AList.lookup_erase] at hid'
      cases hid'
    · rw [AList.lookup_erase_ne hne] at hid'
      exact h id' reply' hid'
  unfold handleReply
  simp only
  split
  · rename_i outcome hverdict
    refine ⟨rfl, rfl, htiles, Or.inr ⟨_, rfl, h id reply hid, ?_⟩⟩
    intro hcancelled
    rw [hcancelled, verdict_cancelled] at hverdict
    exact (Verdict.emits.inj hverdict).symm
  · exact .still htiles rfl rfl rfl

/-- Every event that is not a call of the owner. -/
theorem heard_step {a : Action} {u : State} (h : TilesOnly s)
    (hquiet : ¬ a.Asks) (hcancel : a ≠ .cancel)
    (hstep : next toLower platform a s = some u) : Heard s u := by
  cases a with
  | get endpoint => exact absurd trivial hquiet
  | post endpoint => exact absurd trivial hquiet
  | cancel => exact absurd rfl hcancel
  | progress id received total =>
      obtain ⟨reply, hreply, heq⟩ := Option.map_eq_some_iff.1 hstep
      rw [← heq]
      split
      · exact .still (tilesOnly_setReply h
          (Option.filter_eq_some_iff.1 hreply).1 rfl) rfl rfl rfl
      · exact .still h rfl rfl rfl
  | overallDeadline id =>
      obtain ⟨reply, hreply, heq⟩ := Option.map_eq_some_iff.1 hstep
      rw [← heq]
      exact .still (tilesOnly_setReply h
        (Option.filter_eq_some_iff.1 hreply).1 rfl) rfl rfl rfl
  | finished id answer =>
      obtain ⟨reply, hid, heq⟩ := Option.map_eq_some_iff.1 hstep
      rw [← heq]
      exact heard_handleReply h hid answer
  | retryDelay timer =>
      obtain ⟨retry, -, heq⟩ := Option.map_eq_some_iff.1 hstep
      rw [← heq]
      apply heard_getAttempt
      · exact .still h rfl rfl rfl
      · rfl

-- =========================================================== cancellation

/-- What a cancelled client does: it reports `Cancelled`. -/
structure Silent (s u : State) : Prop where
  cancelled : u.cancelRequested = true
  sent : u.sent = s.sent
  emitted : ∃ later, u.emitted = s.emitted ++ later ∧
    ∀ e ∈ later, e.outcome = cancelledOutcome

/-- A client that was cancelled. -/
theorem Silent.refl (h : s.cancelRequested = true) : Silent s s :=
  ⟨h, rfl, [], (List.append_nil _).symm, fun e he => by cases he⟩

/-- A signal that says so is no news. -/
theorem Silent.emit {u : State} (h : Silent s u) (request : RequestId)
    (validated : Bool) :
    Silent s (TileHttpClient.emit request validated cancelledOutcome u) := by
  obtain ⟨hcancelled, hsent, later, hlater, hall⟩ := h
  refine ⟨hcancelled, hsent, later ++ [⟨request, validated, cancelledOutcome⟩],
    ?_, ?_⟩
  · show u.emitted ++ [_] = s.emitted ++ (later ++ [_])
    rw [hlater, List.append_assoc]
  · intro e he
    rcases List.mem_append.1 he with he | he
    · exact hall e he
    · rw [List.mem_singleton.1 he]

/-- After a cancellation every step without a new request keeps to it. -/
theorem silent_step {a : Action} {u v : State} (h : Silent s u)
    (hquiet : ¬ a.Asks) (hstep : next toLower platform a u = some v) :
    Silent s v := by
  cases a with
  | get endpoint => exact absurd trivial hquiet
  | post endpoint => exact absurd trivial hquiet
  | cancel =>
      cases hstep
      exact ⟨rfl, h.sent, h.emitted⟩
  | progress id received total =>
      obtain ⟨reply, -, heq⟩ := Option.map_eq_some_iff.1 hstep
      rw [← heq]
      split
      · exact ⟨h.cancelled, h.sent, h.emitted⟩
      · exact h
  | overallDeadline id =>
      obtain ⟨reply, -, heq⟩ := Option.map_eq_some_iff.1 hstep
      rw [← heq]
      exact ⟨h.cancelled, h.sent, h.emitted⟩
  | finished id answer =>
      obtain ⟨reply, -, heq⟩ := Option.map_eq_some_iff.1 hstep
      rw [← heq]
      unfold handleReply
      simp only
      rw [h.cancelled, verdict_cancelled]
      apply Silent.emit
      exact ⟨rfl, h.sent, h.emitted⟩
  | retryDelay timer =>
      obtain ⟨retry, -, heq⟩ := Option.map_eq_some_iff.1 hstep
      rw [← heq]
      unfold getAttempt
      rw [if_pos (show _ = true from h.cancelled)]
      apply Silent.emit
      exact ⟨h.cancelled, h.sent, h.emitted⟩

/-- Behind a `cancel`, and until the next request, nothing is sent and
every signal is `Cancelled`. -/
theorem cancelled_run {u : State}
    (hrun : Run (next toLower platform) (fun a _ => ¬ a.Asks) (cancel s) u) :
    u.sent = s.sent ∧ ∃ later, u.emitted = s.emitted ++ later ∧
      ∀ e ∈ later, e.outcome = cancelledOutcome := by
  have hsilent : Silent (cancel s) u := by
    apply hrun.invariant (Silent.refl rfl)
    intro a s₁ s₂ h hquiet hstep
    exact silent_step h hquiet hstep
  exact ⟨hsilent.sent, hsilent.emitted⟩

/-- A tile request that is cancelled while its second attempt waits. -/
theorem cancelled_run_waiting :
    ∃ s u, runActions (next id .windows)
        [.get "/3/0/0.png", .finished 0 { error := .timeoutError }]
        State.init = some s ∧
      runActions (next id .windows) [.retryDelay 0] (cancel s) = some u ∧
      u.sent = s.sent ∧ ∃ later, u.emitted = s.emitted ++ later ∧
        ∀ e ∈ later, e.outcome = cancelledOutcome := by
  refine ⟨_, _, rfl, rfl, ?_⟩
  apply @cancelled_run id .windows
  apply @run_of_admitted _ _ _ _ [.retryDelay 0] _ _ rfl
  intro a ha s hasks
  rw [List.mem_singleton.1 ha] at hasks
  exact hasks

end AowisMap.Maps.TileHttpClient
