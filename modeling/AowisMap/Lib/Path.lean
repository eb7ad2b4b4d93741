/-
Paths as texts: `QDir::cleanPath` on a file system with one separator.

# Components

A path is cleaned component by component, with the ones that are kept so
far on a stack: empty ones and `.` are dropped, `..` takes back the last
one. Components that none of this is about (`Plain`) are kept as they are,
so a path of plain components is clean (`cleanPath_plain`).

# Names from the root

A path of a process leads to names from the root once it is cleaned
(`absoluteNames`), all of them plain, and `ofNames` is their text. A text of
plain names starts with the text of a name and a separator, or is that of
the name, if the name comes first (`ofNames_under_iff`).
-/
import Mathlib.Data.List.Basic
import Mathlib.Tactic.Push

namespace AowisMap.Lib.Path

/-- The components of a path. -/
def components (path : List Char) : List (List Char) := path.splitOn '/'

/-- One component, with the ones that are kept, the last one first. What
leads out of the root leads nowhere; what leads out of a relative path is
kept. -/
def cleanComponent (absolute : Bool) (kept : List (List Char))
    (part : List Char) : List (List Char) :=
  if part = [] ∨ part = ['.'] then kept
  else if part = ['.', '.'] then
    match kept with
    | [] => if absolute then [] else [part]
    | last :: rest => if last = ['.', '.'] then part :: kept else rest
  else part :: kept

/-- The components of a path that are left when it is cleaned. -/
def cleanComponents (absolute : Bool) (path : List Char) :
    List (List Char) :=
  ((components path).foldl (cleanComponent absolute) []).reverse

/-- `QDir::cleanPath`. -/
def cleanPath (path : List Char) : List Char :=
  if path = [] then []
  else
    let absolute := path.head? == some '/'
    let cleaned := ['/'].intercalate (cleanComponents absolute path)
    if absolute then '/' :: cleaned
    else if cleaned = [] then ['.']
    else cleaned

/-- A component that is neither empty nor a step on the spot or back. -/
structure Plain (part : List Char) : Prop where
  ne_nil : part ≠ []
  ne_dot : part ≠ ['.']
  ne_dots : part ≠ ['.', '.']
  separator : '/' ∉ part

instance (part : List Char) : Decidable (Plain part) :=
  decidable_of_iff
    (part ≠ [] ∧ part ≠ ['.'] ∧ part ≠ ['.', '.'] ∧ '/' ∉ part)
    ⟨fun ⟨h₁, h₂, h₃, h₄⟩ => ⟨h₁, h₂, h₃, h₄⟩,
      fun ⟨h₁, h₂, h₃, h₄⟩ => ⟨h₁, h₂, h₃, h₄⟩⟩

variable {parts : List (List Char)}

theorem foldl_plain {absolute : Bool} :
    ∀ {parts kept : List (List Char)}, (∀ part ∈ parts, Plain part) →
      parts.foldl (cleanComponent absolute) kept = parts.reverse ++ kept := by
  intro parts
  induction parts with
  | nil => exact fun _ => rfl
  | cons part parts ih =>
      intro kept h
      have hpart := h part List.mem_cons_self
      have hkept : cleanComponent absolute kept part = part :: kept := by
        unfold cleanComponent
        rw [if_neg (not_or.2 ⟨hpart.ne_nil, hpart.ne_dot⟩),
          if_neg hpart.ne_dots]
      rw [List.foldl_cons, hkept,
        ih fun other hother => h other (List.mem_cons_of_mem _ hother),
        List.reverse_cons, List.append_assoc, List.singleton_append]

theorem components_intercalate (h : ∀ part ∈ parts, Plain part)
    (hsome : parts ≠ []) : components (['/'].intercalate parts) = parts :=
  List.splitOn_intercalate '/' (fun part hpart => (h part hpart).separator)
    hsome

/-- A path of plain components is clean. -/
theorem cleanPath_plain (h : ∀ part ∈ parts, Plain part)
    (hsome : parts ≠ []) :
    cleanPath (['/'].intercalate parts) = ['/'].intercalate parts := by
  have hcomponents := components_intercalate h hsome
  obtain ⟨first, rest, rfl⟩ := List.exists_cons_of_ne_nil hsome
  have hfirst := h first List.mem_cons_self
  obtain ⟨c, cs, hcons⟩ := List.exists_cons_of_ne_nil hfirst.ne_nil
  have hhead : ∃ cs', ['/'].intercalate (first :: rest) = c :: cs' := by
    rw [hcons]
    cases rest with
    | nil => exact ⟨cs, List.intercalate_singleton⟩
    | cons next rest => exact ⟨_, List.intercalate_cons_cons⟩
  obtain ⟨cs', hpath⟩ := hhead
  have hrelative : (['/'].intercalate (first :: rest)).head? ≠ some '/' := by
    rw [hpath]
    intro hslash
    apply hfirst.separator
    rw [hcons, Option.some.inj hslash]
    exact List.mem_cons_self
  unfold cleanPath
  rw [if_neg (by rw [hpath]; exact List.cons_ne_nil c cs')]
  simp only [cleanComponents, hcomponents, foldl_plain h, List.append_nil,
    List.reverse_reverse]
  rw [if_neg (by rw [beq_iff_eq]; exact hrelative),
    if_neg (by rw [hpath]; exact List.cons_ne_nil c cs')]

/-- A path of plain components lies below whatever it is put behind. -/
theorem cleanComponents_append (h : ∀ part ∈ parts, Plain part)
    (hsome : parts ≠ []) (absolute : Bool) (root : List Char) :
    cleanComponents absolute (root ++ '/' :: ['/'].intercalate parts)
      = cleanComponents absolute root ++ parts := by
  have hsplit : components (root ++ '/' :: ['/'].intercalate parts)
      = components root ++ parts := by
    rw [← components_intercalate h hsome]
    unfold components
    rw [List.splitOn_append_cons_self, List.intercalate_splitOn]
  unfold cleanComponents
  rw [hsplit, List.foldl_append, foldl_plain h, List.reverse_append,
    List.reverse_reverse]

-- ================================================== names from the root

/-- `QFileInfo::isAbsolute`. -/
def isAbsolute (path : List Char) : Bool := path.head? == some '/'

/-- The names that a path leads through when it is cleaned, from the root
or from the names of the current directory. -/
def absoluteNames (current : List (List Char)) (path : List Char) :
    List (List Char) :=
  (((if isAbsolute path then [] else current) ++ components path).foldl
    (cleanComponent true) []).reverse

/-- The clean text of names from the root. -/
def ofNames (names : List (List Char)) : List Char :=
  '/' :: ['/'].intercalate names

/-- Nothing is left of a separator. -/
theorem separator_notMem_components {path part : List Char}
    (h : part ∈ components path) : '/' ∉ part := by
  unfold components at h
  induction path generalizing part with
  | nil =>
      rw [List.splitOn_nil, List.mem_singleton] at h
      rw [h]
      exact List.not_mem_nil
  | cons c cs ih =>
      rw [List.splitOn_cons_eq_if_modifyHead] at h
      split at h
      · rcases List.mem_cons.1 h with hpart | hpart
        · rw [hpart]
          exact List.not_mem_nil
        · exact ih hpart
      · rename_i hsep
        obtain ⟨first, rest, hsplit⟩ :=
          List.exists_cons_of_ne_nil (List.splitOn_ne_nil '/' cs)
        rw [hsplit, List.modifyHead_cons] at h
        rcases List.mem_cons.1 h with hpart | hpart
        · rw [hpart, List.mem_cons, not_or]
          refine ⟨fun hc => hsep (by rw [← hc]; rfl), ih ?_⟩
          rw [hsplit]
          exact List.mem_cons_self
        · apply ih
          rw [hsplit]
          exact List.mem_cons_of_mem _ hpart

/-- What is kept from the root is plain. -/
theorem foldl_cleanComponent_plain :
    ∀ {parts kept : List (List Char)}, (∀ part ∈ parts, '/' ∉ part) →
      (∀ part ∈ kept, Plain part) →
      ∀ part ∈ parts.foldl (cleanComponent true) kept, Plain part := by
  intro parts
  induction parts with
  | nil => exact fun _ hkept => hkept
  | cons first parts ih =>
      intro kept hparts hkept
      rw [List.foldl_cons]
      refine ih (fun part hpart => hparts part (List.mem_cons_of_mem _ hpart))
        fun part hpart => ?_
      unfold cleanComponent at hpart
      split at hpart
      · exact hkept part hpart
      · rename_i hspot
        split at hpart
        · rename_i hdots
          cases kept with
          | nil => cases hpart
          | cons last rest =>
              have hlast := (hkept last List.mem_cons_self).ne_dots
              simp only [if_neg hlast] at hpart
              exact hkept part (List.mem_cons_of_mem _ hpart)
        · rename_i hdots
          rcases List.mem_cons.1 hpart with rfl | hpart
          · exact ⟨fun h => hspot (Or.inl h), fun h => hspot (Or.inr h),
              hdots, hparts part List.mem_cons_self⟩
          · exact hkept part hpart

theorem absoluteNames_plain {current : List (List Char)}
    (hcurrent : ∀ name ∈ current, Plain name) (path : List Char) :
    ∀ name ∈ absoluteNames current path, Plain name := by
  intro name hname
  refine foldl_cleanComponent_plain (fun part hpart => ?_)
    (fun _ h => by cases h) name (List.mem_reverse.1 hname)
  rcases List.mem_append.1 hpart with hpart | hpart
  · split at hpart
    · cases hpart
    · exact (hcurrent part hpart).separator
  · exact separator_notMem_components hpart

theorem components_ofNames (h : ∀ part ∈ parts, Plain part)
    (hsome : parts ≠ []) : components (ofNames parts) = [] :: parts := by
  have hsplit := List.splitOn_append_cons_self (a := '/') []
    (['/'].intercalate parts)
  rw [List.nil_append, List.splitOn_nil] at hsplit
  rw [ofNames, components, hsplit, ← components,
    components_intercalate h hsome]
  rfl

/-- The names of a clean path are its own. -/
theorem absoluteNames_ofNames (h : ∀ part ∈ parts, Plain part)
    (hsome : parts ≠ []) (current : List (List Char)) :
    absoluteNames current (ofNames parts) = parts := by
  have habsolute : isAbsolute (ofNames parts) = true := rfl
  unfold absoluteNames
  rw [habsolute, if_pos rfl, List.nil_append, components_ofNames h hsome,
    List.foldl_cons]
  have hskip : cleanComponent true [] [] = [] := rfl
  rw [hskip, foldl_plain h, List.append_nil, List.reverse_reverse]

/-- A text of plain names leads to what a name is in the root, or below it,
if the name comes first. -/
theorem ofNames_under_iff (h : ∀ part ∈ parts, Plain part)
    {first : List Char} (hfirst : Plain first) :
    (ofNames parts = '/' :: first ∨
      '/' :: first ++ ['/'] <+: ofNames parts) ↔
    parts.head? = some first := by
  have hname : components ('/' :: first) = [[], first] := by
    have hsingle := @components_ofNames [first]
      (fun part hpart => List.mem_singleton.1 hpart ▸ hfirst) (by simp)
    rwa [ofNames, List.intercalate_singleton] at hsingle
  rcases List.eq_nil_or_concat parts with rfl | ⟨_, _, hconcat⟩
  · have hroot : ofNames [] = ['/'] := rfl
    rw [hroot]
    constructor
    · rintro (heq | ⟨rest, hrest⟩)
      · exact absurd (List.cons.inj heq).2.symm hfirst.ne_nil
      · have hlength := congrArg List.length hrest
        simp at hlength
    · intro hnone
      cases hnone
  · have hsome : parts ≠ [] := by
      rw [hconcat]
      simp
    have hcomponents := components_ofNames h hsome
    constructor
    · rintro (heq | ⟨rest, hrest⟩)
      · rw [heq, hname] at hcomponents
        rw [← (List.cons.inj hcomponents).2]
        rfl
      · have hsplit := List.splitOn_append_cons_self (a := '/')
          ('/' :: first) rest
        rw [← hrest, List.append_assoc, List.singleton_append] at hcomponents
        rw [components, hsplit, ← components, ← components, hname]
          at hcomponents
        rw [← (List.cons.inj hcomponents).2]
        rfl
    · intro hhead
      obtain ⟨other, rest, rfl⟩ := List.exists_cons_of_ne_nil hsome
      cases hhead
      cases rest with
      | nil =>
          left
          rw [ofNames, List.intercalate_singleton]
      | cons next rest =>
          right
          rw [ofNames, List.intercalate_cons_cons]
          exact ⟨['/'].intercalate (next :: rest), by simp⟩

end AowisMap.Lib.Path
