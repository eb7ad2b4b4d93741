/-
Finite runs of an action-labelled partial step function, and the
induction every invariant of the development is packaged through.

A component is a state type `S`, a type of actions `A` and a function
`next : A → S → Option S` (`none`: the action is not enabled). `Run
next ok s s'` is a finite run from `s` to `s'` whose every step meets
the side condition `ok`: the unconditional runs are those of
`fun _ _ => True`, and a result that holds of the code under a
condition on its steps is a result about `Run next ok` for that
condition.

- `Run.invariant`: what the first state has and every step keeps, the
  last state has. Each component proves one step lemma and reads its
  safety results off this rule.
- `Run.relates`: the same for a reflexive relation between the first
  and the current state (histories that only grow, marks that only
  move one way).
- `Run.simulates`: where every step of one machine is a run of a second
  one under an abstraction, so is every run.
- `recorded`: the machine that remembers the states it has passed, for
  results that look back along a run.
- `runActions`: a list of actions executed in order, with its bridge
  to `Run`, for runs on fixed inputs.
-/
import Mathlib.Tactic.TypeStar

namespace AowisMap.Lib

variable {S A : Type*}

/-- A finite run of `next` from a fixed first state, every step of
which meets `ok` in the state it leaves. -/
inductive Run (next : A → S → Option S) (ok : A → S → Prop) (s : S) :
    S → Prop
  | refl : Run next ok s s
  | step {s₁ s₂ : S} (a : A) : Run next ok s s₁ → ok a s₁ →
      next a s₁ = some s₂ → Run next ok s s₂

/-- The side condition of an unconditional run. -/
def anyStep : A → S → Prop := fun _ _ => True

namespace Run

variable {next : A → S → Option S} {ok ok' : A → S → Prop}

/-- A property of the first state that every admitted step preserves
holds in the last state. -/
theorem invariant {P : S → Prop} {s s' : S} (hrun : Run next ok s s')
    (hinit : P s)
    (hstep : ∀ a s₁ s₂, P s₁ → ok a s₁ → next a s₁ = some s₂ → P s₂) :
    P s' := by
  induction hrun with
  | refl => exact hinit
  | step a _ hok hnext ih => exact hstep a _ _ ih hok hnext

/-- Runs compose. -/
theorem trans {s s' s'' : S} (h₁ : Run next ok s s')
    (h₂ : Run next ok s' s'') : Run next ok s s'' := by
  induction h₂ with
  | refl => exact h₁
  | step a _ hok hnext ih => exact ih.step a hok hnext

/-- One admitted step is a run. -/
theorem single {s s' : S} {a : A} (hok : ok a s)
    (hnext : next a s = some s') : Run next ok s s' :=
  Run.refl.step a hok hnext

/-- Weakening the side condition keeps the run. -/
theorem mono {s s' : S} (hrun : Run next ok s s')
    (hle : ∀ a s, ok a s → ok' a s) : Run next ok' s s' := by
  induction hrun with
  | refl => exact .refl
  | step a _ hok hnext ih => exact ih.step a (hle _ _ hok) hnext

/-- A reflexive relation to the first state, extended by every admitted
step, relates the two ends of a run. An invariant `P` of the states
passed may be used at each step. -/
theorem relates {P : S → Prop} {R : S → S → Prop} {s s' : S}
    (hrun : Run next ok s s') (hinit : P s) (hrefl : R s s)
    (hP : ∀ a s₁ s₂, P s₁ → ok a s₁ → next a s₁ = some s₂ → P s₂)
    (hR : ∀ a s₁ s₂, P s₁ → R s s₁ → ok a s₁ → next a s₁ = some s₂ →
      R s s₂) : R s s' := by
  have hboth : P s' ∧ R s s' :=
    hrun.invariant (P := fun x => P x ∧ R s x) ⟨hinit, hrefl⟩
      fun a s₁ s₂ h hok hnext =>
        ⟨hP a s₁ s₂ h.1 hok hnext, hR a s₁ s₂ h.1 h.2 hok hnext⟩
  exact hboth.2

/-- Forward simulation with stuttering: every run is a run of a second
machine under the abstraction `f`, if every admitted step is. An
invariant `P` of the states passed may be used at each step. -/
theorem simulates {T B : Type*} {nextB : B → T → Option T}
    {okB : B → T → Prop} {P : S → Prop} (f : S → T) {s s' : S}
    (hrun : Run next ok s s') (hinit : P s)
    (hP : ∀ a s₁ s₂, P s₁ → ok a s₁ → next a s₁ = some s₂ → P s₂)
    (hsim : ∀ a s₁ s₂, P s₁ → ok a s₁ → next a s₁ = some s₂ →
      Run nextB okB (f s₁) (f s₂)) : Run nextB okB (f s) (f s') :=
  hrun.relates (R := fun x y => Run nextB okB (f x) (f y)) hinit .refl hP
    fun a s₁ s₂ hinv hpath hok hnext =>
      hpath.trans (hsim a s₁ s₂ hinv hok hnext)

end Run

/-- The machine that remembers the states it has passed, oldest first. -/
def recorded (next : A → S → Option S) (a : A) (r : List S × S) :
    Option (List S × S) :=
  (next a r.2).map fun s => (r.1 ++ [r.2], s)

/-- A step of the recording machine. -/
theorem recorded_inv {next : A → S → Option S} {a : A}
    {r r' : List S × S} (h : recorded next a r = some r') :
    next a r.2 = some r'.2 ∧ r'.1 = r.1 ++ [r.2] := by
  unfold recorded at h
  obtain ⟨s, hs, rfl⟩ := Option.map_eq_some_iff.1 h
  exact ⟨hs, rfl⟩

/-- Executes a list of actions in order, failing on the first disabled
one. -/
def runActions (next : A → S → Option S) : List A → S → Option S
  | [], s => some s
  | a :: rest, s => (next a s).bind (runActions next rest)

theorem runActions_append (next : A → S → Option S) (as bs : List A)
    (s : S) : runActions next (as ++ bs) s
      = (runActions next as s).bind (runActions next bs) := by
  induction as generalizing s with
  | nil => rfl
  | cons a rest ih =>
      simp only [List.cons_append, runActions]
      cases next a s with
      | none => rfl
      | some s₁ => exact ih s₁

/-- The rest of an execution whose first part is known. -/
theorem runActions_rest {next : A → S → Option S} {as bs : List A}
    {s s₁ s₂ : S} (h₁ : runActions next as s = some s₁)
    (h₂ : runActions next (as ++ bs) s = some s₂) :
    runActions next bs s₁ = some s₂ := by
  rw [runActions_append, h₁] at h₂
  exact h₂

/-- An execution of one action is a step. -/
theorem runActions_one {next : A → S → Option S} {a : A} {s s₁ : S}
    (h : runActions next [a] s = some s₁) : next a s = some s₁ := by
  simpa [runActions] using h

/-- A successful execution of actions that are always admitted is a run.
-/
theorem run_of_admitted {next : A → S → Option S} {ok : A → S → Prop}
    {as : List A} {s s' : S} (h : runActions next as s = some s')
    (hok : ∀ a ∈ as, ∀ u, ok a u) : Run next ok s s' := by
  induction as generalizing s with
  | nil =>
      cases Option.some.inj h
      exact .refl
  | cons a rest ih =>
      simp only [runActions, Option.bind_eq_some_iff] at h
      obtain ⟨s₁, hnext, hrest⟩ := h
      exact (Run.single (hok a List.mem_cons_self s) hnext).trans
        (ih hrest fun b hb => hok b (List.mem_cons_of_mem a hb))

/-- A successful execution is an unconditional run. -/
theorem run_of_runActions {next : A → S → Option S} {as : List A}
    {s s' : S} (h : runActions next as s = some s') :
    Run next anyStep s s' :=
  run_of_admitted h fun _ _ _ => trivial

end AowisMap.Lib
