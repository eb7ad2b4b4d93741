/-
A search down a ladder of levels: the finest level whose answer settles
it wins, and the first answer that is worth remembering is remembered.

# What the search finds

The levels are asked one after the other, from the top, and each answer
may change the state the next one is asked in. `answer` is what a level
answers when all above it have been asked, so the result can be said
without the search: it is that of the greatest level that settles it
(`search_settled`), and without one the greatest level to remember
(`search_remembered`), if any (`search_exhausted`).
-/
import Mathlib.Tactic.TypeStar

namespace AowisMap.Lib.Descent

/-- What an answer does to the search. -/
inductive Verdict (R : Type*)
  | skip
  | remember
  | settle (result : R)

/-- How a search ends. -/
inductive Outcome (R : Type*)
  | settled (result : R)
  | remembered (level : Nat)
  | exhausted

variable {S A R : Type*}

/-- Asks the levels below a number, from the greatest on. -/
def search (ask : Nat → S → A × S) (judge : Nat → A → Verdict R) :
    Nat → Option Nat → S → Outcome R × S
  | 0, none, s => (.exhausted, s)
  | 0, some level, s => (.remembered level, s)
  | level + 1, memory, s =>
      match judge level (ask level s).1 with
      | .settle result => (.settled result, (ask level s).2)
      | .remember =>
          search ask judge level (some (memory.getD level)) (ask level s).2
      | .skip => search ask judge level memory (ask level s).2

/-- What a level below a number answers once all above it were asked. -/
def answer (ask : Nat → S → A × S) : Nat → S → Nat → A
  | 0, s, level => (ask level s).1
  | top + 1, s, level =>
      if level = top then (ask top s).1
      else answer ask top (ask top s).2 level

/-- The state a level below a number is asked in. -/
def before (ask : Nat → S → A × S) : Nat → S → Nat → S
  | 0, s, _ => s
  | top + 1, s, level =>
      if level = top then s else before ask top (ask top s).2 level

/-- The state once a level and all above it were asked. -/
def after (ask : Nat → S → A × S) : Nat → S → Nat → S
  | 0, s, _ => s
  | top + 1, s, level =>
      if level = top then (ask top s).2
      else after ask top (ask top s).2 level

variable {ask : Nat → S → A × S} {judge : Nat → A → Verdict R}

theorem answer_top (top : Nat) (s : S) :
    answer ask (top + 1) s top = (ask top s).1 := if_pos rfl

theorem answer_below {top level : Nat} (h : level < top) (s : S) :
    answer ask (top + 1) s level = answer ask top (ask top s).2 level :=
  if_neg (Nat.ne_of_lt h)

theorem before_top (top : Nat) (s : S) :
    before ask (top + 1) s top = s := if_pos rfl

theorem before_below {top level : Nat} (h : level < top) (s : S) :
    before ask (top + 1) s level = before ask top (ask top s).2 level :=
  if_neg (Nat.ne_of_lt h)

theorem after_top (top : Nat) (s : S) :
    after ask (top + 1) s top = (ask top s).2 := if_pos rfl

theorem after_below {top level : Nat} (h : level < top) (s : S) :
    after ask (top + 1) s level = after ask top (ask top s).2 level :=
  if_neg (Nat.ne_of_lt h)

/-- A level below a number is asked in the state the finer ones left. -/
theorem answer_before {level : Nat} :
    ∀ {top : Nat} (s : S), level < top →
      answer ask top s level = (ask level (before ask top s level)).1 ∧
      after ask top s level = (ask level (before ask top s level)).2 := by
  intro top
  induction top with
  | zero =>
    intro s hlt
    omega
  | succ top ih =>
    intro s hlt
    by_cases htop : level = top
    · subst htop
      rw [answer_top, after_top, before_top]
      exact ⟨rfl, rfl⟩
    · have hbelow : level < top := by omega
      rw [answer_below hbelow, after_below hbelow, before_below hbelow]
      exact ih _ hbelow

/-- The search goes past an answer that does not settle it. -/
theorem search_pass {top : Nat} {s : S} (memory : Option Nat)
    (h : ∀ result, judge top (ask top s).1 ≠ .settle result) :
    ∃ memory', search ask judge (top + 1) memory s
      = search ask judge top memory' (ask top s).2 := by
  show ∃ memory', (match judge top (ask top s).1 with
    | .settle result => (Outcome.settled result, (ask top s).2)
    | .remember =>
        search ask judge top (some (memory.getD top)) (ask top s).2
    | .skip => search ask judge top memory (ask top s).2) = _
  cases hjudge : judge top (ask top s).1 with
  | skip => exact ⟨memory, rfl⟩
  | remember => exact ⟨_, rfl⟩
  | settle result => exact absurd hjudge (h result)

/-- The greatest level that settles it is the one that is found. -/
theorem search_settled {level : Nat} {result : R} :
    ∀ {top : Nat} (memory : Option Nat) (s : S), level < top →
      judge level (answer ask top s level) = .settle result →
      (∀ finer, level < finer → finer < top → ∀ other,
        judge finer (answer ask top s finer) ≠ .settle other) →
      search ask judge top memory s
        = (.settled result, after ask top s level) := by
  intro top
  induction top with
  | zero =>
    intro memory s hlt
    omega
  | succ top ih =>
    intro memory s hlt hjudge hfiner
    by_cases htop : level = top
    · subst htop
      rw [answer_top] at hjudge
      rw [after_top]
      unfold search
      rw [hjudge]
    · have hbelow : level < top := by omega
      have hpass := hfiner top hbelow (by omega)
      rw [answer_top] at hpass
      obtain ⟨memory', hsearch⟩ := search_pass memory hpass
      rw [answer_below hbelow] at hjudge
      rw [hsearch, after_below hbelow]
      refine ih memory' _ hbelow hjudge fun finer hlow hhigh => ?_
      have hother := hfiner finer hlow (by omega)
      rwa [answer_below hhigh] at hother

/-- A level that was remembered stays so if none settles it. -/
theorem search_memory {level : Nat} :
    ∀ {top : Nat} (s : S),
      (∀ coarser, coarser < top → ∀ result,
        judge coarser (answer ask top s coarser) ≠ .settle result) →
      (search ask judge top (some level) s).1 = .remembered level := by
  intro top
  induction top with
  | zero =>
    intro s _
    rfl
  | succ top ih =>
    intro s hnone
    have hrest : ∀ coarser, coarser < top → ∀ result,
        judge coarser (answer ask top (ask top s).2 coarser)
          ≠ .settle result := by
      intro coarser hlt
      have hother := hnone coarser (by omega)
      rwa [answer_below hlt] at hother
    have htop := hnone top (by omega)
    rw [answer_top] at htop
    unfold search
    cases hjudge : judge top (ask top s).1 with
    | skip => exact ih _ hrest
    | remember => exact ih _ hrest
    | settle result => exact absurd hjudge (htop result)

/-- Without a level that settles it, the greatest one to remember. -/
theorem search_remembered {level : Nat} :
    ∀ {top : Nat} (s : S), level < top →
      judge level (answer ask top s level) = .remember →
      (∀ finer, level < finer → finer < top →
        judge finer (answer ask top s finer) = .skip) →
      (∀ coarser, coarser < level → ∀ result,
        judge coarser (answer ask top s coarser) ≠ .settle result) →
      (search ask judge top none s).1 = .remembered level := by
  intro top
  induction top with
  | zero =>
    intro s hlt
    omega
  | succ top ih =>
    intro s hlt hjudge hfiner hcoarser
    by_cases htop : level = top
    · subst htop
      rw [answer_top] at hjudge
      unfold search
      rw [hjudge]
      refine search_memory _ fun coarser hlow => ?_
      have hother := hcoarser coarser hlow
      rwa [answer_below hlow] at hother
    · have hbelow : level < top := by omega
      have hskip := hfiner top hbelow (by omega)
      rw [answer_top] at hskip
      rw [answer_below hbelow] at hjudge
      unfold search
      rw [hskip]
      refine ih _ hbelow hjudge ?_ ?_
      · intro finer hlow hhigh
        have hother := hfiner finer hlow (by omega)
        rwa [answer_below hhigh] at hother
      · intro coarser hlow
        have hother := hcoarser coarser hlow
        rwa [answer_below (by omega)] at hother

/-- Without a level that settles it and without one to remember. -/
theorem search_exhausted :
    ∀ {top : Nat} (s : S),
      (∀ level, level < top → judge level (answer ask top s level) = .skip) →
      (search ask judge top none s).1 = .exhausted := by
  intro top
  induction top with
  | zero =>
    intro s _
    rfl
  | succ top ih =>
    intro s hskip
    have htop := hskip top (by omega)
    rw [answer_top] at htop
    unfold search
    rw [htop]
    refine ih _ fun level hlt => ?_
    have hother := hskip level (by omega)
    rwa [answer_below hlt] at hother

/-- Whatever every question keeps, the search keeps. -/
theorem search_keeps {P : S → Prop} :
    ∀ (top : Nat) (memory : Option Nat) (s : S),
      (∀ level s, level < top → P s → P (ask level s).2) → P s →
      P (search ask judge top memory s).2 := by
  intro top
  induction top with
  | zero =>
    intro memory s _ hs
    cases memory with
    | none => exact hs
    | some level => exact hs
  | succ top ih =>
    intro memory s hask hs
    have hnext := hask top s (Nat.lt_succ_self top) hs
    have hrest : ∀ level s, level < top → P s → P (ask level s).2 :=
      fun level s hlt => hask level s (Nat.lt_succ_of_lt hlt)
    unfold search
    cases judge top (ask top s).1 with
    | skip => exact ih _ _ hrest hnext
    | remember => exact ih _ _ hrest hnext
    | settle result => exact hnext

end AowisMap.Lib.Descent
