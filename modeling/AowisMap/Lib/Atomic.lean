/-
An atomic object that many threads change, some by compare-exchange loops.

# The object

An atomic object has one modification order, the values it has had from
the oldest on. An operation that reads and writes at once reads the last
of them and appends the next. A plain load, and the one a failed
compare-exchange makes, may return an older value, but none older than
one its thread has seen: that much is promised of every memory order. A
weak compare-exchange may fail for no reason.

# The loops

A call asks for a grant. It loads the object, computes from the value what
to store, and gives up if there is nothing to store; else it tries to
exchange the value, and starts over with what it reads if that fails. A
grant is given back by a single operation, by any thread.

# The result

The values of the object are those of a machine that grants and takes back
in single steps, and each answer is that machine's at a value between the
last one its thread had seen when it called and the last one of all
(`Linear`).
-/
import Mathlib.Algebra.BigOperators.Group.List.Basic
import Mathlib.Algebra.GroupWithZero.Nat
import Mathlib.Algebra.Order.Group.Nat
import Mathlib.Logic.Function.Basic
import AowisMap.Lib.Run

namespace AowisMap.Lib.Atomic

variable {T R V : Type*}

-- ============================================================ the object

/-- What is computed of requests and values. -/
structure Grants (R V : Type*) where
  initial : V
  /-- Refused before the object is read. -/
  refused : R → Bool
  /-- The value to exchange for the one that was read, if any. -/
  update : R → V → Option V
  /-- The value after a grant is given back. -/
  release : R → V → V

/-- A call under way: its request, the value it has read last with its
position, and, as history, the last position its thread had seen. -/
structure Call (R V : Type*) where
  request : R
  since : Nat
  current : Option (Nat × V) := none

/-- A call that has returned. -/
structure Answer (R : Type*) where
  request : R
  since : Nat
  position : Nat
  granted : Bool
deriving DecidableEq

/-- The object, what each thread has seen of it and does with it, the
grants that are not given back and the answers so far. -/
structure State (T R V : Type*) where
  order : List V
  seen : T → Nat
  calls : T → Option (Call R V)
  granted : List R
  answers : List (Answer R)

/-- The object after its construction. -/
def State.init (g : Grants R V) : State T R V where
  order := [g.initial]
  seen _ := 0
  calls _ := none
  granted := []
  answers := []

-- ============================================================= the steps

inductive Action (T R : Type*)
  | call (thread : T) (request : R)
  | load (thread : T) (position : Nat)
  | exchange (thread : T)
  /-- The exchange fails, and a value is read. -/
  | fail (thread : T) (position : Nat)
  | giveUp (thread : T)
  | giveBack (thread : T) (request : R)
  /-- A thread learns by other means of what has been done. -/
  | learn (thread : T) (position : Nat)

section

variable [DecidableEq T] [DecidableEq R] [DecidableEq V] (g : Grants R V)

/-- A thread reads the value at a position. -/
def observe (thread : T) (position : Nat) (c : Call R V)
    (s : State T R V) : Option (State T R V) :=
  if s.seen thread ≤ position then
    (s.order[position]?).map fun value =>
      { s with
        seen := Function.update s.seen thread position
        calls := Function.update s.calls thread
          (some { c with current := some (position, value) }) }
  else none

/-- A call returns. -/
def respond (thread : T) (c : Call R V) (position : Nat) (granted : Bool)
    (s : State T R V) : State T R V :=
  { s with
    calls := Function.update s.calls thread none
    answers := s.answers ++ [⟨c.request, c.since, position, granted⟩] }

/-- A thread reads the last value and writes the next. -/
def write (thread : T) (value : V) (s : State T R V) : State T R V :=
  { s with
    order := s.order ++ [value]
    seen := Function.update s.seen thread s.order.length }

/-- One step; none where it is not possible. -/
def next (a : Action T R) (s : State T R V) : Option (State T R V) :=
  match a with
  | .call thread request =>
      match s.calls thread with
      | some _ => none
      | none => some { s with
          calls := Function.update s.calls thread
            (some { request := request, since := s.seen thread }) }
  | .load thread position =>
      match s.calls thread with
      | none => none
      | some c =>
          if c.current.isNone ∧ g.refused c.request = false then
            observe thread position c s
          else none
  | .exchange thread =>
      match s.calls thread with
      | none => none
      | some c =>
          match c.current with
          | none => none
          | some (_, value) =>
              match g.update c.request value with
              | none => none
              | some desired =>
                  if s.order.getLast? = some value then
                    some (respond thread c (s.order.length - 1) true
                      { write thread desired s with
                        granted := c.request :: s.granted })
                  else none
  | .fail thread position =>
      match s.calls thread with
      | none => none
      | some c =>
          match c.current with
          | none => none
          | some (_, value) =>
              if (g.update c.request value).isSome then
                observe thread position c s
              else none
  | .giveUp thread =>
      match s.calls thread with
      | none => none
      | some c =>
          match c.current with
          | none =>
              if g.refused c.request then
                some (respond thread c c.since false s)
              else none
          | some (position, value) =>
              if (g.update c.request value).isNone then
                some (respond thread c position false s)
              else none
  | .giveBack thread request =>
      if (s.calls thread).isNone ∧ request ∈ s.granted then
        s.order.getLast?.map fun value =>
          { write thread (g.release request value) s with
            granted := s.granted.erase request }
      else none
  | .learn thread position =>
      if (s.calls thread).isNone ∧ s.seen thread ≤ position ∧
          position < s.order.length then
        some { s with seen := Function.update s.seen thread position }
      else none

-- ===================================================== the atomic machine

inductive AtomicAction (R : Type*)
  | grant (request : R)
  | giveBack (request : R)

/-- Grants and returns in single steps: the values so far, and the grants
that are not given back. -/
def atomicNext (a : AtomicAction R) (s : List V × List R) :
    Option (List V × List R) :=
  match a with
  | .grant request =>
      if g.refused request then none
      else
        (s.1.getLast?.bind (g.update request)).map fun value =>
          (s.1 ++ [value], request :: s.2)
  | .giveBack request =>
      if request ∈ s.2 then
        s.1.getLast?.map fun value =>
          (s.1 ++ [g.release request value], s.2.erase request)
      else none

end

-- ========================================================== linearization

/-- The answer is the one of the values at its position, and those are not
older than what the thread had seen when it called. -/
structure Justified (g : Grants R V) (order : List V) (a : Answer R) :
    Prop where
  since : a.since ≤ a.position
  granted : a.granted = true → g.refused a.request = false ∧
    ∃ value desired, order[a.position]? = some value ∧
      order[a.position + 1]? = some desired ∧
      g.update a.request value = some desired
  refused : a.granted = false → ∃ value, order[a.position]? = some value ∧
    (g.refused a.request = true ∨ g.update a.request value = none)

/-- A call under way has read what its thread could see. -/
structure Reads (g : Grants R V) (order : List V) (seen : Nat)
    (c : Call R V) : Prop where
  since : c.since ≤ seen
  admitted : c.current.isSome → g.refused c.request = false
  current : ∀ position value, c.current = some (position, value) →
    c.since ≤ position ∧ order[position]? = some value

/-- What holds of every interleaving. -/
structure Linear [DecidableEq R] (g : Grants R V) (s : State T R V) :
    Prop where
  /-- The values are those of single steps, one after the other. -/
  run : Run (atomicNext g) anyStep ([g.initial], []) (s.order, s.granted)
  seen : ∀ thread, s.seen thread < s.order.length
  calls : ∀ thread c, s.calls thread = some c →
    Reads g s.order (s.seen thread) c
  answers : ∀ a ∈ s.answers, Justified g s.order a
  /-- No two grants are of one step. -/
  once : ((s.answers.filter (·.granted)).map (·.position)).Pairwise (· < ·)
  before : ∀ a ∈ s.answers, a.granted = true →
    a.position + 1 < s.order.length

section

variable {g : Grants R V} {order : List V}

theorem Justified.append {a : Answer R} (h : Justified g order a)
    (value : V) : Justified g (order ++ [value]) a := by
  have hkept : ∀ {position : Nat} {v : V}, order[position]? = some v →
      (order ++ [value])[position]? = some v := by
    intro position v hv
    obtain ⟨hlt, -⟩ := List.getElem?_eq_some_iff.1 hv
    rw [List.getElem?_append_left hlt, hv]
  refine ⟨h.since, ?_, ?_⟩
  · intro hgranted
    obtain ⟨hadmitted, v, w, hv, hw, hupdate⟩ := h.granted hgranted
    exact ⟨hadmitted, v, w, hkept hv, hkept hw, hupdate⟩
  · intro hrefused
    obtain ⟨v, hv, hcase⟩ := h.refused hrefused
    exact ⟨v, hkept hv, hcase⟩

theorem Reads.append {seen : Nat} {c : Call R V} (h : Reads g order seen c)
    (value : V) : Reads g (order ++ [value]) seen c := by
  refine ⟨h.since, h.admitted, ?_⟩
  intro position v hv
  obtain ⟨hsince, horder⟩ := h.current position v hv
  obtain ⟨hlt, -⟩ := List.getElem?_eq_some_iff.1 horder
  exact ⟨hsince, by rw [List.getElem?_append_left hlt, horder]⟩

variable [DecidableEq T] [DecidableEq R] [DecidableEq V] {s u : State T R V}
  {thread : T}

omit [DecidableEq T] [DecidableEq V] in
theorem linear_init : Linear g (State.init g : State T R V) where
  run := .refl
  seen _ := Nat.zero_lt_one
  calls thread c h := by cases h
  answers a h := by cases h
  once := .nil
  before a h := by cases h

omit [DecidableEq T] [DecidableEq V] in
/-- What the threads see is up to them. -/
theorem Linear.of_seen {seen : T → Nat} (h : Linear g s)
    (hmono : ∀ thread, s.seen thread ≤ seen thread)
    (hseen : ∀ thread, seen thread < s.order.length) :
    Linear g { s with seen := seen } where
  run := h.run
  seen := hseen
  calls thread c hc :=
    ⟨(h.calls thread c hc).since.trans (hmono thread),
      (h.calls thread c hc).admitted, (h.calls thread c hc).current⟩
  answers := h.answers
  once := h.once
  before := h.before

omit [DecidableEq V] in
/-- A call that goes on. -/
theorem Linear.of_call (h : Linear g s) {c : Call R V}
    (hc : Reads g s.order (s.seen thread) c) :
    Linear g { s with calls := Function.update s.calls thread (some c) } where
  run := h.run
  seen := h.seen
  calls other c' hc' := by
    have hc' : Function.update s.calls thread (some c) other = some c' := hc'
    by_cases hother : other = thread
    · rw [hother, Function.update_self] at hc'
      cases hc'
      rw [hother]
      exact hc
    · rw [Function.update_of_ne hother] at hc'
      exact h.calls other c' hc'
  answers := h.answers
  once := h.once
  before := h.before

omit [DecidableEq V] in
/-- A call that reads. -/
theorem Linear.observe {c : Call R V} {position : Nat} (h : Linear g s)
    (hc : s.calls thread = some c) (hadmitted : g.refused c.request = false)
    (hstep : observe thread position c s = some u) : Linear g u := by
  unfold Atomic.observe at hstep
  split at hstep
  · rename_i hle
    obtain ⟨value, hvalue, rfl⟩ := Option.map_eq_some_iff.1 hstep
    obtain ⟨hlt, -⟩ := List.getElem?_eq_some_iff.1 hvalue
    have hsince := (h.calls thread c hc).since
    have hseen : Linear g { s with
        seen := Function.update s.seen thread position } := by
      apply h.of_seen
      · intro other
        by_cases hother : other = thread
        · rw [hother, Function.update_self]
          exact hle
        · rw [Function.update_of_ne hother]
      · intro other
        by_cases hother : other = thread
        · rw [hother, Function.update_self]
          exact hlt
        · rw [Function.update_of_ne hother]
          exact h.seen other
    refine hseen.of_call ⟨?_, fun _ => hadmitted, ?_⟩
    · show c.since ≤ Function.update s.seen thread position thread
      rw [Function.update_self]
      exact hsince.trans hle
    · intro position' value' heq
      cases heq
      exact ⟨hsince.trans hle, hvalue⟩
  · cases hstep

omit [DecidableEq V] in
/-- A call that is refused. -/
theorem Linear.refuse {c : Call R V} {position : Nat} (h : Linear g s)
    (hjustified : Justified g s.order
      ⟨c.request, c.since, position, false⟩) :
    Linear g (respond thread c position false s) where
  run := h.run
  seen := h.seen
  calls other c' hc' := by
    have hc' : Function.update s.calls thread none other = some c' := hc'
    by_cases hother : other = thread
    · rw [hother, Function.update_self] at hc'
      cases hc'
    · rw [Function.update_of_ne hother] at hc'
      exact h.calls other c' hc'
  answers a ha := by
    rcases List.mem_append.1 ha with ha | ha
    · exact h.answers a ha
    · rw [List.mem_singleton.1 ha]
      exact hjustified
  once := by
    show ((List.filter _ (s.answers ++ [_])).map _).Pairwise _
    rw [List.filter_append]
    simp only [List.filter_cons, List.filter_nil, Bool.false_eq_true,
      if_false, List.append_nil]
    exact h.once
  before a ha hgranted := by
    rcases List.mem_append.1 ha with ha | ha
    · exact h.before a ha hgranted
    · rw [List.mem_singleton.1 ha] at hgranted
      cases hgranted

omit [DecidableEq V] in
/-- A single step of the object. -/
theorem Linear.write {value : V} {granted : List R} (h : Linear g s)
    (hstep : Run (atomicNext g) anyStep (s.order, s.granted)
      (s.order ++ [value], granted)) :
    Linear g { Atomic.write thread value s with granted := granted } where
  run := h.run.trans hstep
  seen other := by
    show Function.update s.seen thread s.order.length other
      < (s.order ++ [value]).length
    rw [List.length_append, List.length_singleton]
    by_cases hother : other = thread
    · rw [hother, Function.update_self]
      exact Nat.lt_succ_self _
    · rw [Function.update_of_ne hother]
      exact Nat.lt_succ_of_lt (h.seen other)
  calls other c hc := by
    have hreads := (h.calls other c hc).append value
    refine ⟨hreads.since.trans ?_, hreads.admitted, hreads.current⟩
    show s.seen other ≤ Function.update s.seen thread s.order.length other
    by_cases hother : other = thread
    · rw [hother, Function.update_self]
      exact (h.seen thread).le
    · rw [Function.update_of_ne hother]
  answers a ha := (h.answers a ha).append value
  once := h.once
  before a ha hgranted := by
    show a.position + 1 < (s.order ++ [value]).length
    rw [List.length_append, List.length_singleton]
    exact Nat.lt_succ_of_lt (h.before a ha hgranted)

omit [DecidableEq V] in
/-- A call that is granted: the value it has read is the last one. -/
theorem Linear.grant {c : Call R V} {value desired : V} (h : Linear g s)
    (hc : s.calls thread = some c)
    (hadmitted : g.refused c.request = false)
    (hupdate : g.update c.request value = some desired)
    (hlast : s.order.getLast? = some value) :
    Linear g (respond thread c (s.order.length - 1) true
      { Atomic.write thread desired s with
        granted := c.request :: s.granted }) := by
  have hpos : 0 < s.order.length := Nat.zero_lt_of_lt (h.seen thread)
  have hvalue : s.order[s.order.length - 1]? = some value := by
    rw [← List.getLast?_eq_getElem?]
    exact hlast
  have hgranted : atomicNext g (.grant c.request) (s.order, s.granted)
      = some (s.order ++ [desired], c.request :: s.granted) := by
    simp only [atomicNext, hadmitted, Bool.false_eq_true, if_false, hlast,
      Option.bind_some, hupdate, Option.map_some]
  have hwritten : Linear g { Atomic.write thread desired s with
      granted := c.request :: s.granted } :=
    h.write (.single trivial hgranted)
  have hlength : (s.order ++ [desired]).length = s.order.length + 1 := by
    rw [List.length_append, List.length_singleton]
  refine ⟨hwritten.run, hwritten.seen, ?_, ?_, ?_, ?_⟩
  · intro other c' hc'
    have hc' : Function.update s.calls thread none other = some c' := hc'
    by_cases hother : other = thread
    · rw [hother, Function.update_self] at hc'
      cases hc'
    · rw [Function.update_of_ne hother] at hc'
      exact hwritten.calls other c' hc'
  · intro a ha
    rcases List.mem_append.1 ha with ha | ha
    · exact hwritten.answers a ha
    · rw [List.mem_singleton.1 ha]
      refine ⟨?_, fun _ => ⟨hadmitted, value, desired, ?_, ?_, hupdate⟩, ?_⟩
      · have hsince := (h.calls thread c hc).since
        have hseen := h.seen thread
        show c.since ≤ s.order.length - 1
        omega
      · show (s.order ++ [desired])[s.order.length - 1]? = some value
        rw [List.getElem?_append_left (by omega), hvalue]
      · show (s.order ++ [desired])[s.order.length - 1 + 1]? = some desired
        rw [Nat.sub_add_cancel hpos, List.getElem?_append_right (le_refl _),
          Nat.sub_self]
        rfl
      · intro hfalse
        cases hfalse
  · show ((List.filter _ (s.answers ++ [_])).map _).Pairwise _
    rw [List.filter_append, List.map_append, List.pairwise_append]
    refine ⟨h.once, ?_, ?_⟩
    · simp only [List.filter_cons, List.filter_nil, if_true, List.map_cons,
        List.map_nil]
      exact List.pairwise_singleton _ _
    · intro a ha b hb
      obtain ⟨answer, hanswer, rfl⟩ := List.mem_map.1 ha
      obtain ⟨hmem, hgrant⟩ := List.mem_filter.1 hanswer
      simp only [List.filter_cons, List.filter_nil, if_true, List.map_cons,
        List.map_nil, List.mem_singleton] at hb
      have hbefore := h.before answer hmem hgrant
      omega
  · intro a ha hgrant
    show a.position + 1 < (s.order ++ [desired]).length
    rcases List.mem_append.1 ha with ha | ha
    · exact hwritten.before a ha hgrant
    · rw [List.mem_singleton.1 ha, hlength]
      show s.order.length - 1 + 1 < s.order.length + 1
      omega

theorem linear_step {a : Action T R} (h : Linear g s)
    (hstep : next g a s = some u) : Linear g u := by
  cases a with
  | call thread request =>
      simp only [next] at hstep
      split at hstep
      · cases hstep
      · cases hstep
        refine h.of_call ⟨le_refl _, ?_, ?_⟩
        · intro hsome
          cases hsome
        · intro position value hcurrent
          cases hcurrent
  | load thread position =>
      simp only [next] at hstep
      split at hstep
      · cases hstep
      · rename_i c hc
        split at hstep
        · rename_i hready
          exact h.observe hc hready.2 hstep
        · cases hstep
  | exchange thread =>
      simp only [next] at hstep
      split at hstep
      · cases hstep
      · rename_i c hc
        split at hstep
        · cases hstep
        · rename_i position value hcurrent
          split at hstep
          · cases hstep
          · rename_i desired hupdate
            split at hstep
            · rename_i hlast
              cases hstep
              refine h.grant hc ?_ hupdate hlast
              apply (h.calls thread c hc).admitted
              rw [hcurrent]
              rfl
            · cases hstep
  | fail thread position =>
      simp only [next] at hstep
      split at hstep
      · cases hstep
      · rename_i c hc
        split at hstep
        · cases hstep
        · rename_i hcurrent
          split at hstep
          · refine h.observe hc ?_ hstep
            apply (h.calls thread c hc).admitted
            rw [hcurrent]
            rfl
          · cases hstep
  | giveUp thread =>
      simp only [next] at hstep
      split at hstep
      · cases hstep
      · rename_i c hc
        have hreads := h.calls thread c hc
        split at hstep
        · split at hstep
          · rename_i hrefused
            cases hstep
            have hlt := hreads.since.trans_lt (h.seen thread)
            refine h.refuse ⟨le_refl _, nofun, fun _ => ?_⟩
            exact ⟨_, List.getElem?_eq_getElem hlt, Or.inl hrefused⟩
          · cases hstep
        · rename_i position value hcurrent
          split at hstep
          · rename_i hnone
            cases hstep
            obtain ⟨hsince, hvalue⟩ := hreads.current position value hcurrent
            refine h.refuse ⟨hsince, nofun, fun _ => ?_⟩
            exact ⟨value, hvalue, Or.inr (Option.isNone_iff_eq_none.1 hnone)⟩
          · cases hstep
  | giveBack thread request =>
      simp only [next] at hstep
      split at hstep
      · rename_i hready
        obtain ⟨value, hlast, rfl⟩ := Option.map_eq_some_iff.1 hstep
        refine h.write (.single (a := .giveBack request) trivial ?_)
        simp only [atomicNext, hready.2, if_true, hlast, Option.map_some]
      · cases hstep
  | learn thread position =>
      simp only [next] at hstep
      split at hstep
      · rename_i hready
        cases hstep
        apply h.of_seen
        · intro other
          by_cases hother : other = thread
          · rw [hother, Function.update_self]
            exact hready.2.1
          · rw [Function.update_of_ne hother]
        · intro other
          by_cases hother : other = thread
          · rw [hother, Function.update_self]
            exact hready.2.2
          · rw [Function.update_of_ne hother]
            exact h.seen other
      · cases hstep

/-- Every interleaving of the loops is linear. -/
theorem linear_reachable
    (h : Run (next g) anyStep (State.init g : State T R V) s) : Linear g s :=
  h.invariant linear_init fun _ _ _ hlinear _ hstep =>
    linear_step hlinear hstep

end

-- =============================================================== counting

/-- Grants that count: each adds its amount, up to a limit, and takes it
off again when it is given back. -/
structure Counts (g : Grants R V) (value : V → Int) (amount : R → Nat)
    (limit : Nat) : Prop where
  initial : value g.initial = 0
  update : ∀ {request current desired}, g.refused request = false →
    g.update request current = some desired → 0 ≤ value current →
    value current ≤ limit →
    value desired = value current + amount request ∧ value desired ≤ limit
  release : ∀ {request current}, amount request ≤ value current →
    value current ≤ limit →
    value (g.release request current) = value current - amount request

/-- What is counted is what is granted, and within the limit all along. -/
structure Counted (value : V → Int) (amount : R → Nat) (limit : Nat)
    (s : List V × List R) : Prop where
  last : ∀ current, s.1.getLast? = some current →
    value current = (s.2.map amount).sum
  bounds : ∀ current ∈ s.1, 0 ≤ value current ∧ value current ≤ limit

variable {g : Grants R V} {value : V → Int} {amount : R → Nat} {limit : Nat}

/-- The object takes another value. -/
theorem Counted.append {s : List V × List R} {granted : List R} {desired : V}
    (h : Counted value amount limit s)
    (hvalue : value desired = (granted.map amount).sum)
    (hlimit : value desired ≤ limit) :
    Counted value amount limit (s.1 ++ [desired], granted) := by
  refine ⟨?_, ?_⟩
  · intro last hlast
    rw [List.getLast?_concat] at hlast
    cases hlast
    exact hvalue
  · intro other hother
    rcases List.mem_append.1 hother with hother | hother
    · exact h.bounds other hother
    · rw [List.mem_singleton.1 hother]
      exact ⟨by omega, hlimit⟩

/-- What is granted, with one of the grants taken out. -/
theorem sum_erase [DecidableEq R] (amount : R → Nat) {granted : List R}
    {request : R} (h : request ∈ granted) : (granted.map amount).sum
      = amount request + ((granted.erase request).map amount).sum :=
  ((List.perm_cons_erase h).map amount).sum_eq

theorem counted_init (hcounts : Counts g value amount limit) :
    Counted value amount limit ([g.initial], []) where
  last := by
    intro current hlast
    cases hlast
    exact hcounts.initial
  bounds := by
    intro current hmem
    rw [List.mem_singleton.1 hmem, hcounts.initial]
    exact ⟨le_refl _, Int.natCast_nonneg limit⟩

theorem counted_step [DecidableEq R] (hcounts : Counts g value amount limit)
    {a : AtomicAction R} {s u : List V × List R}
    (hcounted : Counted value amount limit s)
    (hstep : atomicNext g a s = some u) : Counted value amount limit u := by
  cases a with
  | grant request =>
      simp only [atomicNext] at hstep
      split at hstep
      · cases hstep
      · rename_i hadmitted
        obtain ⟨desired, hdesired, rfl⟩ := Option.map_eq_some_iff.1 hstep
        obtain ⟨current, hlast, hupdate⟩ :=
          Option.bind_eq_some_iff.1 hdesired
        obtain ⟨hlow, hhigh⟩ :=
          hcounted.bounds current (List.mem_of_getLast? hlast)
        obtain ⟨hvalue, hlimit⟩ := hcounts.update
          (Bool.eq_false_iff.2 hadmitted) hupdate hlow hhigh
        refine hcounted.append ?_ hlimit
        have hsum := hcounted.last current hlast
        rw [hvalue, hsum, List.map_cons, List.sum_cons]
        push_cast
        exact Int.add_comm _ _
  | giveBack request =>
      simp only [atomicNext] at hstep
      split at hstep
      · rename_i hmem
        obtain ⟨current, hlast, rfl⟩ := Option.map_eq_some_iff.1 hstep
        have hsum := hcounted.last current hlast
        have hlimit :=
          (hcounted.bounds current (List.mem_of_getLast? hlast)).2
        have herased := sum_erase amount hmem
        have hreleased : value (g.release request current)
            = value current - amount request :=
          hcounts.release (by omega) hlimit
        exact hcounted.append (by omega) (by omega)
      · cases hstep

theorem counted_reachable [DecidableEq R]
    (hcounts : Counts g value amount limit) {s : List V × List R}
    (h : Run (atomicNext g) anyStep ([g.initial], []) s) :
    Counted value amount limit s :=
  h.invariant (counted_init hcounts)
    fun _ _ _ hcounted _ hstep => counted_step hcounts hcounted hstep

end AowisMap.Lib.Atomic
