/-
Programs of storage operations, each of which may fail and between any
two of which the process may die, with the rules to reason about both.

# Programs and fates

`Prog S α` is a program over a stored state `S` that ends in a value of
`α`. Its operations are atomic on the state: `op` changes it, in one way
or another as the operation succeeds or fails, and goes on knowing
which; `look` reads it. `exec` runs a program on a list of fates, one
for each operation. Where the list ends, the process dies before the
next operation: what was stored stays, and no value is returned. Every
list of fates is therefore one way a run of the program can go, and
every way it can go is a list of fates.

`left` is what remains of the list where a run ends, so that a program
that follows can be looked at on its own (`exec_bind_ended`).

# Frames

`Leaves R p` says that `p` keeps a relation between what is stored before
and after, wherever it ends or dies; for a relation that is reflexive and
transitive it is read off the parts of a program.

# Two postconditions

`wp Q C p s` is what must hold in `s` for a run of `p` to satisfy `Q`
with its value where it ends, and `C` wherever it dies (`exec_ended`,
`exec_died`). The rules are one equation per way of building a program,
all tagged for `simp`, and consequence (`wp_mono`).

# The run without failures

`succeed` is the run in which every operation succeeds and nothing dies.
It is the only run whose fates are all good and which ends
(`exec_succeed`).

# Some run

`can Q p s` says that some run of `p` ends with `Q` (`exec_can`). Its
rules choose how an operation goes, where those of `wp` take both ways.
-/
import Mathlib.Tactic.TypeStar

namespace AowisMap.Lib

universe u v

/-- A program of storage operations. -/
inductive Prog (S : Type u) (α : Type v) : Type (max u v)
  | done (a : α)
  | op (act : Bool → S → S) (next : Bool → Prog S α)
  | look (next : S → Prog S α)

namespace Prog

variable {S : Type u} {α β : Type v}

/-- One program, then another on its value. -/
def bind : Prog S α → (α → Prog S β) → Prog S β
  | done a, f => f a
  | op act next, f => op act fun ok => (next ok).bind f
  | look next, f => look fun s => (next s).bind f

instance : Monad (Prog S) where
  pure := done
  bind := bind

/-- An operation that either takes effect or fails and changes nothing;
its value says which. -/
def perform (act : S → S) : Prog S Bool :=
  op (fun ok s => if ok then act s else s) done

/-- An operation that takes effect or fails, and nobody asks which. -/
def unchecked (act : S → S) : Prog S Unit :=
  op (fun ok s => if ok then act s else s) fun _ => done ()

/-- An operation that always takes effect. -/
def always (act : S → S) : Prog S Unit :=
  op (fun _ => act) fun _ => done ()

/-- Reads the stored state. -/
def read (f : S → α) : Prog S α := look fun s => done (f s)

/-- Runs a program: the value where it ends, none where it dies, and
what is stored then. -/
def exec : Prog S α → List Bool → S → Option α × S
  | done a, _, s => (some a, s)
  | op _ _, [], s => (none, s)
  | op act next, ok :: fates, s => (next ok).exec fates (act ok s)
  | look next, fates, s => (next s).exec fates s

/-- The fates that are left where a run ends. -/
def left : Prog S α → List Bool → S → List Bool
  | done _, fates, _ => fates
  | op _ _, [], _ => []
  | op act next, ok :: fates, s => (next ok).left fates (act ok s)
  | look next, fates, s => (next s).left fates s

/-- What makes every run of a program end with `Q` or die in `C`. -/
def wp (Q : α → S → Prop) (C : S → Prop) : Prog S α → S → Prop
  | done a, s => Q a s
  | op act next, s => C s ∧ ∀ ok, (next ok).wp Q C (act ok s)
  | look next, s => (next s).wp Q C s

/-- What lets some run of a program end with `Q`. -/
def can (Q : α → S → Prop) : Prog S α → S → Prop
  | done a, s => Q a s
  | op act next, s => ∃ ok, (next ok).can Q (act ok s)
  | look next, s => (next s).can Q s

/-- Runs a program with every operation succeeding. -/
def succeed : Prog S α → S → α × S
  | done a, s => (a, s)
  | op act next, s => (next true).succeed (act true s)
  | look next, s => (next s).succeed s

variable {Q Q' : α → S → Prop} {C C' : S → Prop}

-- ========================================================== soundness

/-- A run either ends with `Q` or dies in `C`. -/
theorem exec_spec {p : Prog S α} {s : S} (h : p.wp Q C s)
    (fates : List Bool) :
    (∃ a, (p.exec fates s).1 = some a ∧ Q a (p.exec fates s).2) ∨
      ((p.exec fates s).1 = none ∧ C (p.exec fates s).2) := by
  induction p generalizing fates s with
  | done a => exact Or.inl ⟨a, rfl, h⟩
  | op act next ih =>
      cases fates with
      | nil => exact Or.inr ⟨rfl, h.1⟩
      | cons ok fates => exact ih ok (h.2 ok) fates
  | look next ih => exact ih s h fates

/-- Where a run ends, its value and state satisfy `Q`. -/
theorem exec_ended {p : Prog S α} {fates : List Bool} {s : S} {a : α}
    (h : p.wp Q C s) (hend : (p.exec fates s).1 = some a) :
    Q a (p.exec fates s).2 := by
  rcases exec_spec h fates with ⟨b, hb, hQ⟩ | ⟨hnone, -⟩
  · rw [hend] at hb
    cases hb
    exact hQ
  · rw [hend] at hnone
    cases hnone

/-- An invariant holds wherever the run ends or dies. -/
theorem exec_invariant {p : Prog S α} {fates : List Bool} {s : S}
    (h : p.wp (fun _ => C) C s) : C (p.exec fates s).2 := by
  rcases exec_spec h fates with ⟨-, -, hC⟩ | ⟨-, hC⟩
  · exact hC
  · exact hC

-- ============================================================== rules

/-- `wp`, by the form of the program. -/
@[simp] theorem wp_pure (a : α) (s : S) :
    (pure a : Prog S α).wp Q C s ↔ Q a s := Iff.rfl

@[simp] theorem wp_bind {p : Prog S α} {f : α → Prog S β}
    {R : β → S → Prop} {s : S} :
    (p >>= f).wp R C s ↔ p.wp (fun a s' => (f a).wp R C s') C s := by
  show (p.bind f).wp R C s ↔ _
  induction p generalizing s with
  | done a => exact Iff.rfl
  | op act next ih =>
      exact and_congr_right fun _ => forall_congr' fun ok => ih ok
  | look next ih => exact ih s

@[simp] theorem wp_perform {act : S → S} {R : Bool → S → Prop} {s : S} :
    (perform act).wp R C s ↔ C s ∧ R true (act s) ∧ R false s := by
  show C s ∧ (∀ ok, R ok (if ok = true then act s else s)) ↔ _
  simp [Bool.forall_bool, and_comm]

@[simp] theorem wp_unchecked {act : S → S} {R : Unit → S → Prop} {s : S} :
    (unchecked act).wp R C s ↔ C s ∧ R () (act s) ∧ R () s := by
  show C s ∧ (∀ ok, R () (if ok = true then act s else s)) ↔ _
  simp [Bool.forall_bool, and_comm]

@[simp] theorem wp_always {act : S → S} {R : Unit → S → Prop} {s : S} :
    (always act).wp R C s ↔ C s ∧ R () (act s) := by
  show C s ∧ (∀ _ : Bool, R () (act s)) ↔ _
  simp

@[simp] theorem wp_read {f : S → α} {s : S} :
    (read f).wp Q C s ↔ Q (f s) s := Iff.rfl

/-- A conditional program. -/
theorem wp_ite {c : Prop} [Decidable c] {p q : Prog S α} {s : S} :
    (if c then p else q).wp Q C s ↔
      (c → p.wp Q C s) ∧ (¬ c → q.wp Q C s) := by
  by_cases h : c
  · simp [h]
  · simp [h]

/-- Consequence. -/
theorem wp_mono {p : Prog S α} {s : S} (h : p.wp Q C s)
    (hQ : ∀ a s, Q a s → Q' a s) (hC : ∀ s, C s → C' s) :
    p.wp Q' C' s := by
  induction p generalizing s with
  | done a => exact hQ a s h
  | op act next ih => exact ⟨hC s h.1, fun ok => ih ok (h.2 ok)⟩
  | look next ih => exact ih s h

-- ============================================= what a program leaves alone

/-- Wherever a program ends or dies, what is stored then is related to what
it started from. -/
def Leaves (R : S → S → Prop) (p : Prog S α) : Prop :=
  ∀ s, p.wp (fun _ => R s) (R s) s

namespace Leaves

variable {R R' : S → S → Prop} {p q : Prog S α} {f : α → Prog S β}
  {act : S → S}

/-- Who leaves less leaves more. -/
theorem mono (h : Leaves R p) (hle : ∀ s s', R s s' → R' s s') :
    Leaves R' p := fun s =>
  wp_mono (h s) (fun _ s' hR => hle s s' hR) fun s' hR => hle s s' hR

section Refl

variable [Std.Refl R]

/-- A value leaves everything, -/
theorem pure (a : α) : Leaves R (Pure.pure a : Prog S α) :=
  fun s => Std.Refl.refl s

/-- and so does a look at the state. -/
theorem read (g : S → α) : Leaves R (Prog.read g) :=
  fun s => Std.Refl.refl s

/-- An operation that may fail leaves what it does, or nothing. -/
theorem perform (hact : ∀ s, R s (act s)) : Leaves R (Prog.perform act) := by
  intro s
  rw [wp_perform]
  exact ⟨Std.Refl.refl s, hact s, Std.Refl.refl s⟩

/-- So does one whose failure is not noticed. -/
theorem unchecked (hact : ∀ s, R s (act s)) :
    Leaves R (Prog.unchecked act) := by
  intro s
  rw [wp_unchecked]
  exact ⟨Std.Refl.refl s, hact s, Std.Refl.refl s⟩

/-- One that cannot fail leaves what it does. -/
theorem always (hact : ∀ s, R s (act s)) : Leaves R (Prog.always act) := by
  intro s
  rw [wp_always]
  exact ⟨Std.Refl.refl s, hact s⟩

end Refl

/-- Programs one after the other, for a relation that composes. -/
theorem bind [Trans R R R] (hp : Leaves R p) (hf : ∀ a, Leaves R (f a)) :
    Leaves R (p >>= f) := by
  intro s
  rw [wp_bind]
  refine wp_mono (hp s) ?_ fun _ hC => hC
  intro a s' hs'
  exact wp_mono (hf a s') (fun _ _ h => Trans.trans hs' h)
    fun _ h => Trans.trans hs' h

/-- One of two programs. -/
theorem ite {c : Prop} [Decidable c] (hp : Leaves R p) (hq : Leaves R q) :
    Leaves R (if c then p else q) := by
  by_cases h : c
  · rw [if_pos h]
    exact hp
  · rw [if_neg h]
    exact hq

end Leaves

-- ====================================================== one after another

/-- Where the first program ends, the second goes on with the fates that
are left. -/
theorem exec_bind_ended {p : Prog S α} {f : α → Prog S β}
    {fates : List Bool} {s : S} {a : α} (h : (p.exec fates s).1 = some a) :
    (p >>= f).exec fates s
      = (f a).exec (p.left fates s) (p.exec fates s).2 := by
  show (p.bind f).exec fates s = _
  induction p generalizing fates s with
  | done b =>
      cases h
      rfl
  | op act next ih =>
      cases fates with
      | nil => cases h
      | cons ok fates => exact ih ok h
  | look next ih => exact ih s h

/-- Where the first program dies, the second is not run. -/
theorem exec_bind_died {p : Prog S α} {f : α → Prog S β}
    {fates : List Bool} {s : S} (h : (p.exec fates s).1 = none) :
    (p >>= f).exec fates s = (none, (p.exec fates s).2) := by
  show (p.bind f).exec fates s = _
  induction p generalizing fates s with
  | done b => cases h
  | op act next ih =>
      cases fates with
      | nil => rfl
      | cons ok fates => exact ih ok h
  | look next ih => exact ih s h

/-- What a program leaves behind does not depend on the value that is made
of its own. -/
theorem exec_bind_pure {p : Prog S α} {g : α → β} {fates : List Bool}
    {s : S} : ((p >>= fun a => pure (g a)).exec fates s).2
      = (p.exec fates s).2 := by
  cases h : (p.exec fates s).1 with
  | none => rw [exec_bind_died h]
  | some a =>
      rw [exec_bind_ended h]
      rfl

/-- What is left of the fates was among them. -/
theorem mem_of_left {p : Prog S α} {fates : List Bool} {s : S} {ok : Bool}
    (h : ok ∈ p.left fates s) : ok ∈ fates := by
  induction p generalizing fates s with
  | done a => exact h
  | op act next ih =>
      cases fates with
      | nil => cases h
      | cons first fates => exact List.mem_cons_of_mem _ (ih first h)
  | look next ih => exact ih s h

-- ================================================ without failures

section Succeed

variable {p : Prog S α} {f : α → Prog S β} {act : S → S} {s : S}

/-- The run in which no operation fails, by the form of the program. -/
@[simp] theorem succeed_pure (a : α) :
    (pure a : Prog S α).succeed s = (a, s) := rfl

@[simp] theorem succeed_bind :
    (p >>= f).succeed s
      = (f (p.succeed s).1).succeed (p.succeed s).2 := by
  show (p.bind f).succeed s = _
  induction p generalizing s with
  | done a => rfl
  | op act next ih => exact ih true
  | look next ih => exact ih s

@[simp] theorem succeed_perform :
    (perform act).succeed s = (true, act s) := rfl

@[simp] theorem succeed_unchecked :
    (unchecked act).succeed s = ((), act s) := rfl

@[simp] theorem succeed_always :
    (always act).succeed s = ((), act s) := rfl

@[simp] theorem succeed_read {g : S → α} :
    (read g).succeed s = (g s, s) := rfl

/-- A run that ends and meets no failure. -/
theorem exec_succeed {fates : List Bool} {a : α}
    (hfates : ∀ ok ∈ fates, ok = true)
    (hend : (p.exec fates s).1 = some a) :
    a = (p.succeed s).1 ∧ (p.exec fates s).2 = (p.succeed s).2 := by
  induction p generalizing fates s with
  | done b =>
      cases hend
      exact ⟨rfl, rfl⟩
  | op act next ih =>
      cases fates with
      | nil => cases hend
      | cons ok fates =>
          have hok := hfates ok List.mem_cons_self
          subst hok
          exact ih true
            (fun other hmem => hfates other (List.mem_cons_of_mem _ hmem))
            hend
  | look next ih => exact ih s hfates hend

end Succeed

-- ============================================================= some run

section Can

variable {p : Prog S α} {f : α → Prog S β} {act : S → S} {s : S}

/-- A run that ends with `Q`. -/
theorem exec_can (h : p.can Q s) :
    ∃ (fates : List Bool) (a : α),
      (p.exec fates s).1 = some a ∧ Q a (p.exec fates s).2 := by
  induction p generalizing s with
  | done a => exact ⟨[], a, rfl, h⟩
  | op act next ih =>
      obtain ⟨ok, hok⟩ := h
      obtain ⟨fates, a, hend, hQ⟩ := ih ok hok
      exact ⟨ok :: fates, a, hend, hQ⟩
  | look next ih => exact ih s h

/-- Some run of the first can be gone on with. -/
theorem can_bind {R : β → S → Prop} :
    (p >>= f).can R s ↔ p.can (fun a s' => (f a).can R s') s := by
  show (p.bind f).can R s ↔ _
  induction p generalizing s with
  | done a => exact Iff.rfl
  | op act next ih => exact exists_congr fun ok => ih ok
  | look next ih => exact ih s

/-- An operation can succeed, and it can fail. -/
theorem can_perform {R : Bool → S → Prop} :
    (perform act).can R s ↔ R true (act s) ∨ R false s := by
  show (∃ ok, R ok (if ok = true then act s else s)) ↔ _
  simp [Bool.exists_bool, or_comm]

/-- The run without failures is a run. -/
theorem can_succeed (h : Q (p.succeed s).1 (p.succeed s).2) : p.can Q s := by
  induction p generalizing s with
  | done a => exact h
  | op act next ih => exact ⟨true, ih true h⟩
  | look next ih => exact ih s h

end Can

end Prog

end AowisMap.Lib
