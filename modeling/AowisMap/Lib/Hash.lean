/-
Finite maps with a size: the `QHash` of the modelled code, as Mathlib's
`AList` at a constant value type, and the additive measures over its
entries.

A hash owns counted things (waiters in lists, jobs in stages, bytes in
reservations), and the invariants of the development say that a counter
equals the total of a measure over the entries. `total f m` is that
total; every update of the map has one equation for it, so a
counter invariant is a line of arithmetic at each step:

- `total_insert`, `total_erase`: with the entry that was there before
  accounted for (`valueOr`);
- `total_filterMapValues`: the bulk update that maps every value or
  drops its key;
- `carrying_erase`, `carrying_insert`, `carrying_replace`: the same where
  the measure counts the entries of a label.
-/
import Mathlib.Algebra.BigOperators.Group.List.Basic
import Mathlib.Algebra.GroupWithZero.Nat
import Mathlib.Data.List.AList

namespace AowisMap.Lib

variable {K V W : Type*}

/-- A finite map from `K` to `V` without repeated keys. -/
abbrev QHash (K V : Type*) := AList (fun _ : K => V)

namespace QHash

-- ========================================================== totals

/-- The sum of a measure over the entries of a map. -/
def total (f : K → V → Nat) (m : QHash K V) : Nat :=
  (m.entries.map fun e => f e.1 e.2).sum

@[simp] theorem total_empty (f : K → V → Nat) :
    total f (∅ : QHash K V) = 0 := rfl

/-- Totals of pointwise sums split. -/
theorem total_add (f g : K → V → Nat) (m : QHash K V) :
    total (fun k v => f k v + g k v) m = total f m + total g m := by
  unfold total
  rw [← List.sum_map_add]

/-- The values of a map. -/
def values (m : QHash K V) : List V := m.entries.map (·.2)

/-- The total of an indicator counts. -/
theorem total_indicator (p : V → Bool) (m : QHash K V) :
    total (fun _ v => if p v then 1 else 0) m = m.values.countP p := by
  unfold total values
  induction m.entries with
  | nil => rfl
  | cons e l ih =>
      rw [List.map_cons, List.sum_cons, List.map_cons, List.countP_cons, ih]
      exact Nat.add_comm _ _

variable [DecidableEq K]

theorem mem_values {m : QHash K V} {v : V} :
    v ∈ m.values ↔ ∃ k, m.lookup k = some v := by
  unfold values
  rw [List.mem_map]
  constructor
  · intro h
    obtain ⟨e, he, rfl⟩ := h
    exact ⟨e.1, AList.mem_lookup_iff.2 he⟩
  · intro h
    obtain ⟨k, hk⟩ := h
    exact ⟨⟨k, v⟩, AList.mem_lookup_iff.1 hk, rfl⟩

/-- The measure of the entry at a key, 0 where there is none. -/
def measureAt (f : K → V → Nat) (k : K) (m : QHash K V) : Nat :=
  match m.lookup k with
  | some v => f k v
  | none => 0

theorem measureAt_some {f : K → V → Nat} {k : K} {m : QHash K V} {v : V}
    (h : m.lookup k = some v) : measureAt f k m = f k v := by
  simp only [measureAt, h]

theorem measureAt_none {f : K → V → Nat} {k : K} {m : QHash K V}
    (h : m.lookup k = none) : measureAt f k m = 0 := by
  simp only [measureAt, h]

/-- A lookup behind an insertion. -/
theorem lookup_insert_if (k : K) (v : V) (m : QHash K V) (k' : K) :
    (m.insert k v).lookup k' = if k' = k then some v else m.lookup k' := by
  by_cases hk : k' = k
  · rw [hk, AList.lookup_insert, if_pos rfl]
  · rw [AList.lookup_insert_ne hk, if_neg hk]

/-- The list-level erase equation behind `total_erase`. -/
private theorem sum_kerase (f : K → V → Nat) (k : K) :
    ∀ l : List (Sigma fun _ : K => V), l.NodupKeys →
      (l.map fun e => f e.1 e.2).sum
        = ((l.kerase k).map fun e => f e.1 e.2).sum
          + (match l.dlookup k with | some v => f k v | none => 0) := by
  intro l hnd
  induction l with
  | nil => rfl
  | cons e l ih =>
      obtain ⟨k', v⟩ := e
      have htail : l.NodupKeys := (List.nodupKeys_cons.1 hnd).2
      by_cases hk : k = k'
      · subst hk
        rw [List.kerase_cons_eq (β := fun _ : K => V) (s := ⟨k, v⟩) rfl,
          List.dlookup_cons_eq]
        simp only [List.map_cons, List.sum_cons]
        omega
      · rw [List.kerase_cons_ne hk,
          List.dlookup_cons_ne l ⟨k', v⟩ hk]
        have := ih htail
        simp only [List.map_cons, List.sum_cons]
        omega

/-- Erasing a key takes exactly its entry's measure off the total. -/
theorem total_erase (f : K → V → Nat) (k : K) (m : QHash K V) :
    total f m = total f (m.erase k) + measureAt f k m :=
  sum_kerase f k m.entries m.nodupKeys

/-- Inserting replaces the measure of the entry that was there. -/
theorem total_insert (f : K → V → Nat) (k : K) (v : V) (m : QHash K V) :
    total f (m.insert k v) + measureAt f k m = total f m + f k v := by
  have herase := total_erase f k m
  have hins : total f (m.insert k v) = f k v + total f (m.erase k) := rfl
  omega

/-- An entry's measure is at most the total. -/
theorem measure_le_total {f : K → V → Nat} {k : K} {v : V}
    {m : QHash K V} (h : m.lookup k = some v) : f k v ≤ total f m := by
  rw [total_erase f k m, measureAt_some h]
  omega

-- ==================================================== bulk updates

/-- Maps every value, dropping the keys whose new value is `none`. -/
def filterMapValues (g : K → V → Option W) (m : QHash K V) : QHash K W :=
  ⟨m.entries.filterMap fun e => (g e.1 e.2).map (Sigma.mk e.1), by
    have hsub : ∀ l : List (Sigma fun _ : K => V),
        ((l.filterMap fun e => (g e.1 e.2).map
          (Sigma.mk (β := fun _ : K => W) e.1)).keys).Sublist l.keys := by
      intro l
      induction l with
      | nil => exact List.Sublist.slnil
      | cons e l ih =>
          cases hg : g e.1 e.2 with
          | none =>
              rw [List.filterMap_cons_none (by simp [hg])]
              exact ih.cons _
          | some w =>
              rw [List.filterMap_cons_some (b := ⟨e.1, w⟩) (by simp [hg])]
              exact ih.cons_cons _
    exact (hsub m.entries).nodup m.nodupKeys⟩

/-- A bulk update, read at one key. -/
@[simp] theorem lookup_filterMapValues (g : K → V → Option W)
    (m : QHash K V) (k : K) :
    (filterMapValues g m).lookup k = (m.lookup k).bind (g k) := by
  have hlist : ∀ l : List (Sigma fun _ : K => V), l.NodupKeys →
      (l.filterMap fun e => (g e.1 e.2).map
          (Sigma.mk (β := fun _ : K => W) e.1)).dlookup k
        = (l.dlookup k).bind (g k) := by
    intro l hnd
    induction l with
    | nil => rfl
    | cons e l ih =>
        obtain ⟨k', v⟩ := e
        obtain ⟨hnot, htail⟩ := List.nodupKeys_cons.1 hnd
        by_cases hk : k = k'
        · subst hk
          rw [List.dlookup_cons_eq]
          cases hg : g k v with
          | none =>
              rw [List.filterMap_cons_none (by simp [hg]), ih htail,
                List.dlookup_eq_none.2 hnot]
              simp [hg]
          | some w =>
              rw [List.filterMap_cons_some (b := ⟨k, w⟩) (by simp [hg]),
                List.dlookup_cons_eq]
              simp [hg]
        · rw [List.dlookup_cons_ne l ⟨k', v⟩ hk]
          cases hg : g k' v with
          | none =>
              rw [List.filterMap_cons_none (by simp [hg])]
              exact ih htail
          | some w =>
              rw [List.filterMap_cons_some (b := ⟨k', w⟩) (by simp [hg]),
                List.dlookup_cons_ne (β := fun _ : K => W) _ ⟨k', w⟩ hk]
              exact ih htail
  exact hlist m.entries m.nodupKeys

omit [DecidableEq K] in
/-- The total after a bulk update, as a total over the old map. -/
theorem total_filterMapValues (g : K → V → Option W) (f : K → W → Nat)
    (m : QHash K V) :
    total f (filterMapValues g m)
      = total (fun k v => match g k v with
          | some w => f k w
          | none => 0) m := by
  show ((m.entries.filterMap fun e => (g e.1 e.2).map
      (Sigma.mk (β := fun _ : K => W) e.1)).map fun e => f e.1 e.2).sum
    = (m.entries.map _).sum
  induction m.entries with
  | nil => rfl
  | cons e l ih =>
      cases hg : g e.1 e.2 with
      | none =>
          rw [List.filterMap_cons_none (by simp [hg])]
          simp only [List.map_cons, List.sum_cons, hg, ih, zero_add]
      | some w =>
          rw [List.filterMap_cons_some (b := ⟨e.1, w⟩) (by simp [hg])]
          simp only [List.map_cons, List.sum_cons, hg, ih]

/-- Totals of measures that agree on the entries agree. -/
theorem total_congr {f g : K → V → Nat} {m : QHash K V}
    (h : ∀ k v, m.lookup k = some v → f k v = g k v) :
    total f m = total g m := by
  unfold total
  congr 1
  refine List.map_congr_left fun e he => ?_
  exact h e.1 e.2 (AList.mem_lookup_iff.2 he)

/-- Totals of a measure that is below another on the entries are below. -/
theorem total_mono {f g : K → V → Nat} {m : QHash K V}
    (h : ∀ k v, m.lookup k = some v → f k v ≤ g k v) :
    total f m ≤ total g m := by
  have hsplit := total_add f (fun k v => g k v - f k v) m
  have heq : total (fun k v => f k v + (g k v - f k v)) m = total g m := by
    apply total_congr
    intro k v hk
    exact Nat.add_sub_cancel' (h k v hk)
  omega

-- ============================================================ labels

section Labels

variable {L : Type*} [DecidableEq L]

/-- How many entries carry a label. -/
def carrying (label : V → L) (l : L) (m : QHash K V) : Nat :=
  total (fun _ v => if label v = l then 1 else 0) m

/-- An entry of its own label counts. -/
theorem carrying_pos {label : V → L} {k : K} {v : V} {m : QHash K V}
    (h : m.lookup k = some v) : 1 ≤ carrying label (label v) m := by
  have hle := measure_le_total
    (f := fun (_ : K) (w : V) => if label w = label v then 1 else 0) h
  rw [if_pos rfl] at hle
  exact hle

/-- Erasing an entry takes it off the count of its label. -/
theorem carrying_erase {label : V → L} {k : K} {v : V} {m : QHash K V}
    (h : m.lookup k = some v) (l : L) :
    carrying label l m = carrying label l (m.erase k)
      + if label v = l then 1 else 0 := by
  unfold carrying
  rw [total_erase _ k m, measureAt_some h]

/-- A new entry is counted under its label. -/
theorem carrying_insert {label : V → L} {k : K} {v : V} {m : QHash K V}
    (h : m.lookup k = none) (l : L) :
    carrying label l (m.insert k v) = carrying label l m
      + if label v = l then 1 else 0 := by
  have hinsert := total_insert
    (fun (_ : K) (w : V) => if label w = l then 1 else 0) k v m
  rw [measureAt_none h, Nat.add_zero] at hinsert
  exact hinsert

/-- Replacing an entry under its label changes no count. -/
theorem carrying_replace {label : V → L} {k : K} {v w : V} {m : QHash K V}
    (h : m.lookup k = some v) (hlabel : label w = label v) (l : L) :
    carrying label l (m.insert k w) = carrying label l m := by
  have hinsert := total_insert
    (fun (_ : K) (w : V) => if label w = l then 1 else 0) k w m
  rw [measureAt_some h, hlabel] at hinsert
  exact Nat.add_right_cancel hinsert

end Labels

-- ====================================================== many removals

end QHash

end AowisMap.Lib
