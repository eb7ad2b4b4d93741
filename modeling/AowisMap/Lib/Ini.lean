/-
INI files, as a settings reader takes them: lines, sections, keys and
values, on lists of characters.

# Lines

`scan` cuts a text into lines. Outside double quotes a line ends at a line
feed or a carriage return, and a semicolon begins a comment; inside them
the line goes on. A backslash takes the next character with it. `run`
follows the scanner through characters that all stay in the line, so a
text that is read as one line is one with a `run` (`scan_of_run`).

# Names and values

A section is named by what stands before the first closing bracket of
its line, and a key by what stands before the first equals sign outside
quotes; both are percent-decoded, with a backslash for the separator of
groups (`unescapedKey`). A value is read by `readValue`: outside quotes a
comma makes it a list, a doubled at sign at its head stands for one, and
behind a single one comes a variant, which `unescapedValue` takes for a
text.

A decoded name is never longer than what it was written as
(`length_unescapedKey_le`), and one of the same length holds no escape
(`unescapedKey_eq_map`).
-/
import AowisMap.Lib.QString
import Mathlib.Data.List.Dedup

namespace AowisMap.Lib.Ini

-- ================================================================ lines

/-- What the scanner is in: a line, double quotes, a comment, or behind a
backslash (inside quotes or not). -/
inductive Mode
  | plain | quoted | comment | escaped (quoted : Bool)
deriving DecidableEq, Repr

/-- What becomes of a character: it stays in the line, it is dropped, or
it ends the line. -/
inductive Advance
  | keep (mode : Mode)
  | drop (mode : Mode)
  | cut
deriving DecidableEq, Repr

def advance : Mode → Char → Advance
  | .plain, c =>
      if c = '\n' ∨ c = '\r' then .cut
      else if c = ';' then .drop .comment
      else if c = '"' then .keep .quoted
      else if c = '\\' then .keep (.escaped false)
      else .keep .plain
  | .quoted, c =>
      if c = '"' then .keep .plain
      else if c = '\\' then .keep (.escaped true)
      else .keep .quoted
  | .comment, c => if c = '\n' ∨ c = '\r' then .cut else .drop .comment
  | .escaped quoted, _ => .keep (if quoted then .quoted else .plain)

/-- The lines of a text, without their comments, the current one having
been read so far. -/
def scan : Mode → List Char → List Char → List (List Char)
  | _, text, [] => [text]
  | mode, text, c :: cs =>
      match advance mode c with
      | .keep mode' => scan mode' (text ++ [c]) cs
      | .drop mode' => scan mode' text cs
      | .cut => text :: scan .plain [] cs

/-- The mode behind characters that all stay in the line. -/
def run : Mode → List Char → Option Mode
  | mode, [] => some mode
  | mode, c :: cs =>
      match advance mode c with
      | .keep mode' => run mode' cs
      | .drop _ => none
      | .cut => none

variable {mode mode' : Mode} {text cs ds : List Char}

/-- The scanner, one character further: it keeps it, -/
theorem scan_keep {c : Char} (h : advance mode c = .keep mode') :
    scan mode text (c :: cs) = scan mode' (text ++ [c]) cs := by
  rw [scan, h]

/-- drops it, -/
theorem scan_drop {c : Char} (h : advance mode c = .drop mode') :
    scan mode text (c :: cs) = scan mode' text cs := by
  rw [scan, h]

/-- or ends the line. -/
theorem scan_cut {c : Char} (h : advance mode c = .cut) :
    scan mode text (c :: cs) = text :: scan .plain [] cs := by
  rw [scan, h]

/-- The first character of a run stays in the line. -/
theorem run_cons {c : Char} : run mode (c :: cs) = some mode' ↔
    ∃ mode₁, advance mode c = .keep mode₁ ∧ run mode₁ cs = some mode' := by
  rw [run]
  cases hadvance : advance mode c with
  | keep mode₁ => simp
  | drop mode₁ => simp
  | cut => simp

/-- A run through one text and on through another. -/
theorem run_append : run mode (cs ++ ds) = some mode' ↔
    ∃ mode₁, run mode cs = some mode₁ ∧ run mode₁ ds = some mode' := by
  induction cs generalizing mode with
  | nil => simp [run]
  | cons c cs ih =>
      rw [List.cons_append, run_cons]
      constructor
      · rintro ⟨mode₁, hadvance, hrun⟩
        obtain ⟨mode₂, hfirst, hlast⟩ := ih.1 hrun
        exact ⟨mode₂, run_cons.2 ⟨mode₁, hadvance, hfirst⟩, hlast⟩
      · rintro ⟨mode₂, hfirst, hlast⟩
        obtain ⟨mode₁, hadvance, hrun⟩ := run_cons.1 hfirst
        exact ⟨mode₁, hadvance, ih.2 ⟨mode₂, hrun, hlast⟩⟩

/-- Characters that stay in the line are added to it. -/
theorem scan_of_run (h : run mode cs = some mode') :
    scan mode text (cs ++ ds) = scan mode' (text ++ cs) ds := by
  induction cs generalizing mode text with
  | nil =>
      cases h
      rw [List.nil_append, List.append_nil]
  | cons c cs ih =>
      obtain ⟨mode₁, hadvance, hrun⟩ := run_cons.1 h
      rw [List.cons_append, scan_keep hadvance, ih hrun, List.append_assoc]
      rfl

/-- Characters without a meaning for the scanner. -/
def isOrdinary (c : Char) : Bool :=
  c != '\n' && c != '\r' && c != ';' && c != '"' && c != '\\'

/-- Ordinary characters stay in their line. -/
theorem run_ordinary (h : ∀ c ∈ cs, isOrdinary c = true) :
    run .plain cs = some .plain := by
  induction cs with
  | nil => rfl
  | cons c cs ih =>
      have hc := h c List.mem_cons_self
      simp only [isOrdinary, Bool.and_eq_true, bne_iff_ne] at hc
      refine run_cons.2 ⟨.plain, by simp [advance, hc], ih fun d hd => ?_⟩
      exact h d (List.mem_cons_of_mem c hd)

/-- Without a backslash no escape opens. -/
theorem run_noEscape (h : run mode cs = some mode')
    (hmode : ∀ quoted, mode ≠ .escaped quoted) (hslash : '\\' ∉ cs) :
    ∀ quoted, mode' ≠ .escaped quoted := by
  induction cs generalizing mode with
  | nil =>
      cases h
      exact hmode
  | cons c cs ih =>
      rw [List.mem_cons, not_or] at hslash
      obtain ⟨mode₁, hadvance, hrun⟩ := run_cons.1 h
      refine ih hrun (fun quoted heq => ?_) hslash.2
      subst heq
      cases mode with
      | escaped inside => exact hmode inside rfl
      | comment =>
          simp only [advance] at hadvance
          split at hadvance <;> cases hadvance
      | plain =>
          simp only [advance, if_neg (Ne.symm hslash.1)] at hadvance
          split at hadvance
          · cases hadvance
          split at hadvance
          · cases hadvance
          split at hadvance <;> cases hadvance
      | quoted =>
          simp only [advance, if_neg (Ne.symm hslash.1)] at hadvance
          split at hadvance <;> cases hadvance

/-- The mode behind any characters. -/
def after : Mode → List Char → Mode
  | mode, [] => mode
  | mode, c :: cs =>
      match advance mode c with
      | .keep mode' => after mode' cs
      | .drop mode' => after mode' cs
      | .cut => after .plain cs

/-- What the scanner is in after one text and another. -/
theorem after_append : after mode (cs ++ ds) = after (after mode cs) ds := by
  induction cs generalizing mode with
  | nil => rfl
  | cons c cs ih =>
      rw [List.cons_append, after, after]
      cases advance mode c with
      | keep mode₁ => exact ih
      | drop mode₁ => exact ih
      | cut => exact ih

/-- A run that stays in the line ends where the scanner is. -/
theorem after_of_run (h : run mode cs = some mode') : after mode cs = mode' := by
  induction cs generalizing mode with
  | nil => exact Option.some.inj h
  | cons c cs ih =>
      obtain ⟨mode₁, hadvance, hrun⟩ := run_cons.1 h
      rw [after, hadvance]
      exact ih hrun

/-- A new line begins behind `cs`: at its head, or where a line was
ended. -/
def IsStart (cs : List Char) : Prop :=
  cs = [] ∨ ∃ before c, cs = before ++ [c] ∧
    advance (after .plain before) c = .cut

/-- Only line feeds and carriage returns end lines. -/
theorem advance_cut {c : Char} (h : advance mode c = .cut) :
    c = '\n' ∨ c = '\r' := by
  by_contra hend
  cases mode with
  | plain =>
      simp only [advance, if_neg hend] at h
      split at h
      · cases h
      split at h
      · cases h
      split at h
      · cases h
      · cases h
  | quoted =>
      simp only [advance] at h
      split at h
      · cases h
      split at h
      · cases h
      · cases h
  | comment =>
      simp only [advance, if_neg hend] at h
      cases h
  | escaped quoted => cases h

/-- Only comments are dropped. -/
theorem advance_drop {c : Char} (h : advance mode c = .drop mode') :
    mode' = .comment := by
  cases mode with
  | escaped quoted => cases h
  | comment =>
      simp only [advance] at h
      split at h
      · cases h
      · cases h
        rfl
  | plain =>
      simp only [advance] at h
      split at h
      · cases h
      split at h
      · cases h
        rfl
      split at h
      · cases h
      split at h
      · cases h
      · cases h
  | quoted =>
      simp only [advance] at h
      split at h
      · cases h
      split at h
      · cases h
      · cases h

/-- A comment keeps nothing. -/
theorem advance_comment {c : Char} : advance .comment c ≠ .keep mode' := by
  simp only [advance]
  split
  · simp
  · simp

/-- A line starts plain. -/
theorem IsStart.after (h : IsStart cs) : Ini.after .plain cs = .plain := by
  rcases h with rfl | ⟨before, c, rfl, hcut⟩
  · rfl
  · rw [after_append, Ini.after, hcut]
    rfl

/-- It starts at the top or behind a line end. -/
theorem IsStart.last (h : IsStart cs) {c : Char} (hc : cs.getLast? = some c) :
    c = '\n' ∨ c = '\r' := by
  rcases h with rfl | ⟨before, d, rfl, hcut⟩
  · cases hc
  · rw [List.getLast?_concat, Option.some.injEq] at hc
    exact hc ▸ advance_cut hcut

/-- No line begins inside another one. -/
theorem IsStart.not_inside (h : IsStart cs) {c : Char}
    (hrun : run .plain (ds ++ [c]) = some mode) :
    ¬ IsStart (cs ++ (ds ++ [c])) := by
  obtain ⟨mode₁, hfirst, hlast⟩ := run_append.1 hrun
  obtain ⟨mode₂, hkeep, -⟩ := run_cons.1 hlast
  rintro (hnil | ⟨before, d, heq, hcut⟩)
  · simp at hnil
  · rw [← List.append_assoc] at heq
    obtain ⟨rfl, hd⟩ := List.append_inj' heq rfl
    cases hd
    rw [after_append, h.after, after_of_run hfirst, hkeep] at hcut
    cases hcut

/-- What comes before the start of a line is read as lines of its own. -/
theorem scan_start (h : IsStart cs) (ds : List Char) :
    ∃ lines, scan .plain [] (cs ++ ds) = lines ++ scan .plain [] ds := by
  have hcut : ∀ (before : List Char) (mode : Mode) (text : List Char) (c : Char),
      advance (Ini.after mode before) c = .cut →
      ∃ lines, scan mode text (before ++ c :: ds)
        = lines ++ scan .plain [] ds := by
    intro before
    induction before with
    | nil => exact fun mode text c hc => ⟨[text], scan_cut hc⟩
    | cons d before ih =>
        intro mode text c hc
        rw [Ini.after] at hc
        rw [List.cons_append]
        cases hadvance : advance mode d with
        | keep mode₁ =>
            rw [hadvance] at hc
            rw [scan_keep hadvance]
            exact ih mode₁ _ c hc
        | drop mode₁ =>
            rw [hadvance] at hc
            rw [scan_drop hadvance]
            exact ih mode₁ _ c hc
        | cut =>
            rw [hadvance] at hc
            obtain ⟨lines, hlines⟩ := ih .plain [] c hc
            exact ⟨text :: lines, by rw [scan_cut hadvance, hlines]; rfl⟩
  rcases h with rfl | ⟨before, c, rfl, hc⟩
  · exact ⟨[], rfl⟩
  · obtain ⟨lines, hlines⟩ := hcut before .plain [] c hc
    exact ⟨lines, by rw [List.append_assoc]; exact hlines⟩

/-- Where a line that was read begins. -/
theorem scan_line {lines later : List (List Char)} {line : List Char}
    (h : scan .plain [] cs = lines ++ line :: later) :
    ∃ before ds, cs = before ++ ds ∧ IsStart before ∧
      scan .plain [] ds = line :: later := by
  have hsplit : ∀ (cs : List Char) (mode : Mode) (text : List Char)
      (lines : List (List Char)), scan mode text cs = lines ++ line :: later →
      lines = [] ∨ ∃ before c ds, cs = before ++ c :: ds ∧
        advance (Ini.after mode before) c = .cut ∧
        scan .plain [] ds = line :: later := by
    intro cs
    induction cs with
    | nil =>
        intro mode text lines hscan
        cases lines with
        | nil => exact Or.inl rfl
        | cons first lines => simp [scan] at hscan
    | cons c cs ih =>
        intro mode text lines hscan
        cases hadvance : advance mode c with
        | keep mode₁ =>
            rw [scan_keep hadvance] at hscan
            refine (ih mode₁ _ lines hscan).imp_right ?_
            rintro ⟨before, d, ds, rfl, hcut, hrest⟩
            exact ⟨c :: before, d, ds, rfl, by rw [Ini.after, hadvance]; exact hcut,
              hrest⟩
        | drop mode₁ =>
            rw [scan_drop hadvance] at hscan
            refine (ih mode₁ _ lines hscan).imp_right ?_
            rintro ⟨before, d, ds, rfl, hcut, hrest⟩
            exact ⟨c :: before, d, ds, rfl, by rw [Ini.after, hadvance]; exact hcut,
              hrest⟩
        | cut =>
            rw [scan_cut hadvance] at hscan
            cases lines with
            | nil => exact Or.inl rfl
            | cons first lines =>
                have htail := (List.cons.inj hscan).2
                refine Or.inr ?_
                rcases ih .plain [] lines htail with
                  rfl | ⟨before, d, ds, rfl, hcut, hrest⟩
                · exact ⟨[], c, cs, rfl, hadvance, htail⟩
                · exact ⟨c :: before, d, ds, rfl,
                    by rw [Ini.after, hadvance]; exact hcut, hrest⟩
  rcases hsplit cs .plain [] lines h with
    rfl | ⟨before, c, ds, rfl, hcut, hrest⟩
  · exact ⟨[], cs, rfl, Or.inl rfl, h⟩
  · exact ⟨before ++ [c], ds, by rw [List.append_assoc]; rfl,
      Or.inr ⟨before, c, rfl, hcut⟩, hrest⟩

/-- What was read of a line is its head. -/
theorem scan_text (mode : Mode) (text cs : List Char) :
    ∃ kept lines, scan mode text cs = (text ++ kept) :: lines := by
  induction cs generalizing mode text with
  | nil => exact ⟨[], [], by rw [List.append_nil]; rfl⟩
  | cons c cs ih =>
      cases hadvance : advance mode c with
      | keep mode₁ =>
          obtain ⟨kept, lines, hscan⟩ := ih mode₁ (text ++ [c])
          exact ⟨c :: kept, lines, by
            rw [scan_keep hadvance, hscan, List.append_assoc]; rfl⟩
      | drop mode₁ =>
          obtain ⟨kept, lines, hscan⟩ := ih mode₁ text
          exact ⟨kept, lines, by rw [scan_drop hadvance, hscan]⟩
      | cut =>
          exact ⟨[], scan .plain [] cs, by
            rw [scan_cut hadvance, List.append_nil]⟩

/-- The first line is the head of the text, as far as it stays in the
line. -/
theorem scan_first {lines : List (List Char)} {line : List Char}
    (h : scan .plain [] cs = line :: lines) :
    line <+: cs ∧ ∃ mode, run .plain line = some mode := by
  have hfirst : ∀ (cs : List Char) (mode : Mode) (text line : List Char),
      scan mode text cs = line :: lines → ∃ kept, line = text ++ kept ∧
        kept <+: cs ∧ (∃ mode', run mode kept = some mode') ∧
        (mode = .comment → kept = []) := by
    intro cs
    induction cs with
    | nil =>
        intro mode text line hscan
        obtain ⟨rfl, -⟩ := List.cons.inj hscan
        exact ⟨[], (List.append_nil _).symm, List.prefix_rfl, ⟨mode, rfl⟩,
          fun _ => rfl⟩
    | cons c cs ih =>
        intro mode text line hscan
        cases hadvance : advance mode c with
        | keep mode₁ =>
            rw [scan_keep hadvance] at hscan
            obtain ⟨kept, rfl, hpre, ⟨mode', hrun⟩, -⟩ :=
              ih mode₁ _ line hscan
            refine ⟨c :: kept, by rw [List.append_assoc]; rfl,
              List.cons_prefix_cons.2 ⟨rfl, hpre⟩,
              ⟨mode', run_cons.2 ⟨mode₁, hadvance, hrun⟩⟩, ?_⟩
            rintro rfl
            exact absurd hadvance advance_comment
        | drop mode₁ =>
            rw [scan_drop hadvance] at hscan
            obtain ⟨kept, rfl, -, -, hcomment⟩ := ih mode₁ _ line hscan
            have hkept := hcomment (advance_drop hadvance)
            exact ⟨[], by rw [hkept], List.nil_prefix, ⟨mode, rfl⟩,
              fun _ => rfl⟩
        | cut =>
            rw [scan_cut hadvance] at hscan
            obtain ⟨rfl, -⟩ := List.cons.inj hscan
            exact ⟨[], (List.append_nil _).symm, List.nil_prefix, ⟨mode, rfl⟩,
              fun _ => rfl⟩
  obtain ⟨kept, rfl, hpre, hrun, -⟩ := hfirst cs .plain [] line h
  exact ⟨hpre, hrun⟩

-- ================================================================ names

/-- The value of hexadecimal digits. -/
def hex? (digits : List Char) : Option Nat :=
  digits.foldl (fun value digit =>
    value.bind fun n =>
      if digit.isDigit then some (16 * n + (digit.toNat - 48))
      else if 'a' ≤ digit ∧ digit ≤ 'f' then
        some (16 * n + (digit.toNat - 87))
      else if 'A' ≤ digit ∧ digit ≤ 'F' then
        some (16 * n + (digit.toNat - 55))
      else none) (some 0)

/-- The escape behind a percent sign, two digits or a `U` and four: its
character, and how long it is. -/
def escapeAt : List Char → Option (Char × Nat)
  | 'U' :: cs =>
      if 4 ≤ cs.length then (hex? (cs.take 4)).map fun n => (Char.ofNat n, 5)
      else none
  | cs =>
      if 2 ≤ cs.length then (hex? (cs.take 2)).map fun n => (Char.ofNat n, 2)
      else none

/-- The name that was written as `cs`; `skip` counts the characters of an
escape still to be dropped. -/
def unescapedKey : Nat → List Char → List Char
  | _, [] => []
  | skip + 1, _ :: cs => unescapedKey skip cs
  | 0, c :: cs =>
      if c = '\\' then '/' :: unescapedKey 0 cs
      else if c = '%' then
        match escapeAt cs with
        | some (d, length) => d :: unescapedKey length cs
        | none => '%' :: unescapedKey 0 cs
      else c :: unescapedKey 0 cs

/-- A name is no longer than what it was written as. -/
theorem length_unescapedKey_le (skip : Nat) (cs : List Char) :
    (unescapedKey skip cs).length ≤ cs.length := by
  induction cs generalizing skip with
  | nil => simp [unescapedKey]
  | cons c cs ih =>
      cases skip with
      | succ skip =>
          rw [unescapedKey, List.length_cons]
          have hle := ih skip
          omega
      | zero =>
          have hle := ih 0
          rw [unescapedKey, List.length_cons]
          split
          · rw [List.length_cons]
            omega
          split
          · split
            · rename_i length _
              have hlength := ih length
              rw [List.length_cons]
              omega
            · rw [List.length_cons]
              omega
          · rw [List.length_cons]
            omega

/-- Skipped characters are lost. -/
theorem length_unescapedKey_skip {skip : Nat} {cs : List Char}
    (h : cs ≠ []) :
    (unescapedKey (skip + 1) cs).length < cs.length := by
  cases cs with
  | nil => exact absurd rfl h
  | cons c cs =>
      rw [unescapedKey, List.length_cons]
      have hle := length_unescapedKey_le skip cs
      omega

/-- An escape takes at least one character. -/
theorem escapeAt_length {c : Char} {length : Nat}
    (h : escapeAt cs = some (c, length)) :
    ∃ skip, length = skip + 1 ∧ cs ≠ [] := by
  unfold escapeAt at h
  split at h
  · split at h
    · obtain ⟨n, -, heq⟩ := Option.map_eq_some_iff.1 h
      cases heq
      exact ⟨4, rfl, by simp⟩
    · cases h
  · split at h
    · rename_i hlength
      obtain ⟨n, -, heq⟩ := Option.map_eq_some_iff.1 h
      cases heq
      refine ⟨1, rfl, ?_⟩
      rintro rfl
      simp at hlength
    · cases h

/-- A name of full length holds no escape: it was written as it is, but
for backslashes. -/
theorem unescapedKey_eq_map (h : (unescapedKey 0 cs).length = cs.length) :
    unescapedKey 0 cs = cs.map fun c => if c = '\\' then '/' else c := by
  induction cs with
  | nil => rfl
  | cons c cs ih =>
      rw [unescapedKey] at h ⊢
      rw [List.map_cons]
      split
      · rename_i hslash
        rw [if_pos hslash] at h
        rw [ih (Nat.succ.inj h)]
      rename_i hslash
      rw [if_neg hslash] at h
      split
      · rename_i hpercent
        rw [if_pos hpercent] at h
        cases hescape : escapeAt cs with
        | none =>
            rw [hescape] at h
            rw [ih (Nat.succ.inj h), hpercent]
        | some escape =>
            -- an escape is longer than its character
            obtain ⟨d, length⟩ := escape
            rw [hescape] at h
            obtain ⟨skip, rfl, hne⟩ := escapeAt_length hescape
            have hlt := @length_unescapedKey_skip skip cs hne
            have hlength := Nat.succ.inj h
            omega
      · rename_i hpercent
        rw [if_neg hpercent] at h
        rw [ih (Nat.succ.inj h)]

/-- Characters before any escape or separator are kept. -/
theorem unescapedKey_append (h : ∀ c ∈ cs, c ≠ '\\' ∧ c ≠ '%')
    (ds : List Char) : unescapedKey 0 (cs ++ ds) = cs ++ unescapedKey 0 ds := by
  induction cs with
  | nil => rfl
  | cons c cs ih =>
      obtain ⟨hslash, hpercent⟩ := h c List.mem_cons_self
      rw [List.cons_append, unescapedKey, if_neg hslash, if_neg hpercent, ih
        fun d hd => h d (List.mem_cons_of_mem c hd)]
      rfl

-- =============================================================== values

/-- A value: a text, or a list of texts, which reads as none. -/
inductive Value
  | text (cs : List Char)
  | list
deriving DecidableEq, Repr

/-- The character an escape in a value stands for: control characters by
their letters, and quotes, the question mark and the backslash. -/
def escapeCode (c : Char) : Option Char :=
  if c = '"' ∨ c = '?' ∨ c = '\\' ∨ c.toNat = 39 then some c
  else ([('a', 7), ('b', 8), ('f', 12), ('n', 10), ('r', 13), ('t', 9),
    ('v', 11)].lookup c).map Char.ofNat

/-- What is read of a value, none for a list; `quoted` inside quotes,
`escaped` behind a backslash. Unknown escapes are dropped. -/
def unquote : (quoted escaped : Bool) → List Char → Option (List Char)
  | _, _, [] => some []
  | quoted, true, c :: cs =>
      (unquote quoted false cs).map fun rest => (escapeCode c).toList ++ rest
  | quoted, false, c :: cs =>
      if c = '\\' then unquote quoted true cs
      else if c = '"' then unquote (!quoted) false cs
      else if c = ',' ∧ quoted = false then none
      else (unquote quoted false cs).map fun rest => c :: rest

/-- What a value says, with an at sign at its head taken for what it
announces: a doubled one stands for one, behind a single one comes a
variant. -/
inductive Reading
  | string (text : List Char)
  | list
  | variant (text : List Char)
deriving DecidableEq, Repr

/-- At signs at the head of a text. -/
def readAt : List Char → Reading
  | '@' :: '@' :: cs => .string ('@' :: cs)
  | '@' :: cs => .variant ('@' :: cs)
  | cs => .string cs

/-- A text without an at sign at its head says itself. -/
theorem readAt_of_ne {text : List Char} (h : text.head? ≠ some '@') :
    readAt text = .string text := by
  cases text with
  | nil => rfl
  | cons c cs =>
      have hc : c ≠ '@' := fun heq => h (congrArg some heq)
      unfold readAt
      split
      · rename_i heq
        exact absurd (List.cons.inj heq).1 hc
      · rename_i heq
        exact absurd (List.cons.inj heq).1 hc
      · rfl

/-- The at sign in front of a text is doubled exactly when there is
one. -/
theorem readAt_doubled (value : List Char) :
    readAt ((if value.head? = some '@' then ['@'] else []) ++ value)
      = .string value := by
  by_cases hhead : value.head? = some '@'
  · obtain ⟨cs, rfl⟩ := List.head?_eq_some_iff.1 hhead
    rfl
  · rw [if_neg hhead, List.nil_append, readAt_of_ne hhead]

/-- `QByteArray::trimmed`. -/
def trimmed (cs : List Char) : List Char :=
  QString.trimmedBy QString.isByteSpace cs

/-- Reads what stands behind the equals sign of a line. -/
def readValue (raw : List Char) : Reading :=
  match unquote false false (trimmed raw) with
  | some text => readAt text
  | none => .list

/-- The value of a reading. A variant stays the text it was written as. -/
def Reading.value : Reading → Value
  | .string text => .text text
  | .variant text => .text text
  | .list => .list

/-- The value that was written as `cs`. -/
def unescapedValue (cs : List Char) : Value :=
  (readValue cs).value

-- =============================================================== reading

/-- What was read so far: the prefix of the keys to come, the entries, the
last one first, and whether all lines were well formed. -/
structure Settings where
  group : List Char := []
  entries : List (List Char × Value) := []
  wellFormed : Bool := true
deriving Repr

/-- Blanks before a line. -/
def isBlank (c : Char) : Bool := c == ' ' || c == '\t'

/-- The prefix of the keys of a section, from what stands behind its
opening bracket: the general section has none, and a percent sign keeps a
group of that name apart from it. -/
def sectionGroup (cs : List Char) : List Char :=
  let name := trimmed (cs.takeWhile fun c => c != ']')
  let lower := name.map Char.toLower
  if lower = "general".toList then []
  else if lower = "%general".toList then name.tail ++ ['/']
  else unescapedKey 0 name ++ ['/']

/-- What stands before the first equals sign outside quotes, and behind
it; `key` has been read so far. -/
def splitAtEquals : (mode : Mode) → (key cs : List Char) →
    Option (List Char × List Char)
  | _, _, [] => none
  | mode, key, c :: cs =>
      if mode = .plain ∧ c = '=' then some (key, cs)
      else match advance mode c with
      | .keep mode' => splitAtEquals mode' (key ++ [c]) cs
      | .drop _ => none
      | .cut => none

/-- Reads a line. -/
def readLine (settings : Settings) (line : List Char) : Settings :=
  match line.dropWhile isBlank with
  | [] => settings
  | '[' :: cs =>
      { settings with
        group := sectionGroup cs
        wellFormed := settings.wellFormed && decide (']' ∈ cs) }
  | cs =>
      match splitAtEquals .plain [] cs with
      | some (key, value) =>
          { settings with
            entries := (settings.group
              ++ unescapedKey 0 (trimmed key), unescapedValue value)
              :: settings.entries }
      | none => { settings with wellFormed := false }

/-- Reads a text. -/
def readText (text : List Char) : Settings :=
  (scan .plain [] text).foldl readLine {}

/-- The prefix of keys that a line opens, if it is one of a section. -/
def openedGroup (line : List Char) : Option (List Char) :=
  match line.dropWhile isBlank with
  | '[' :: cs => some (sectionGroup cs)
  | _ => none

/-- The prefixes of keys that the sections of a text open. -/
def openedGroups (text : List Char) : List (List Char) :=
  (scan .plain [] text).filterMap openedGroup

/-- The value of a key, the last one that was given. -/
def Settings.value (settings : Settings) (key : List Char) : Option Value :=
  settings.entries.lookup key

/-- The group a key lies in: what stands before its first separator. -/
def groupOf (key : List Char) : Option (List Char) :=
  if '/' ∈ key then some (key.takeWhile fun c => c != '/') else none

/-- The groups of the first level. -/
def Settings.childGroups (settings : Settings) : List (List Char) :=
  (settings.entries.filterMap fun entry => groupOf entry.1).dedup

/-- The group of a key behind its separator. -/
theorem groupOf_append {group : List Char} (h : '/' ∉ group)
    (rest : List Char) : groupOf (group ++ '/' :: rest) = some group := by
  have hkeep : ∀ c ∈ group, (c != '/') = true := by
    intro c hc
    rw [bne_iff_ne]
    rintro rfl
    exact h hc
  rw [groupOf, if_pos (by simp), List.takeWhile_append_of_pos hkeep]
  simp

/-- A group of the first level is the first part of some key. -/
theorem mem_childGroups {settings : Settings} {group : List Char} :
    group ∈ settings.childGroups ↔
      ∃ entry ∈ settings.entries, groupOf entry.1 = some group := by
  rw [Settings.childGroups, List.mem_dedup, List.mem_filterMap]

-- ======================================================= what was read

/-- A line that begins with no bracket is one of a key. -/
theorem readLine_key {line cs : List Char} {c : Char}
    (hdrop : line.dropWhile isBlank = c :: cs) (hc : c ≠ '[')
    (settings : Settings) : readLine settings line =
      match splitAtEquals .plain [] (c :: cs) with
      | some (key, value) =>
          { settings with
            entries := (settings.group
              ++ unescapedKey 0 (trimmed key), unescapedValue value)
              :: settings.entries }
      | none => { settings with wellFormed := false } := by
  unfold readLine
  rw [hdrop]
  split
  · rename_i heq
    cases heq
  · rename_i heq
    exact absurd (List.cons.inj heq).1 hc
  · rfl

/-- A line that begins otherwise opens no section. -/
theorem openedGroup_key {line cs : List Char} {c : Char}
    (hdrop : line.dropWhile isBlank = c :: cs) (hc : c ≠ '[') :
    openedGroup line = none := by
  unfold openedGroup
  rw [hdrop]
  split
  · rename_i heq
    exact absurd (List.cons.inj heq).1 hc
  · rfl

/-- One line opens a group, or adds at most its entry. -/
theorem readLine_inv (settings : Settings) (line : List Char) :
    (readLine settings line).group
        = (openedGroup line).getD settings.group ∧
    ((readLine settings line).entries = settings.entries ∨
      openedGroup line = none ∧
      ∃ key rest value, splitAtEquals .plain [] (line.dropWhile isBlank)
          = some (key, rest) ∧
        (readLine settings line).entries
          = (settings.group ++ unescapedKey 0 (trimmed key), value)
            :: settings.entries) := by
  cases hline : line.dropWhile isBlank with
  | nil =>
      unfold readLine openedGroup
      rw [hline]
      exact ⟨rfl, Or.inl rfl⟩
  | cons c cs =>
      by_cases hc : c = '['
      · subst hc
        unfold readLine openedGroup
        rw [hline]
        exact ⟨rfl, Or.inl rfl⟩
      · rw [readLine_key hline hc, openedGroup_key hline hc]
        cases hsplit : splitAtEquals .plain [] (c :: cs) with
        | none => exact ⟨rfl, Or.inl rfl⟩
        | some pair =>
            obtain ⟨key, rest⟩ := pair
            exact ⟨rfl, Or.inr ⟨rfl, key, rest, _, rfl, rfl⟩⟩

/-- The group that is open behind lines was opened by one of them, if any
opens one. -/
theorem foldl_group (lines : List (List Char)) (settings : Settings) :
    (∃ line ∈ lines, openedGroup line
        = some (lines.foldl readLine settings).group) ∨
      (lines.foldl readLine settings).group = settings.group ∧
        ∀ line ∈ lines, openedGroup line = none := by
  induction lines generalizing settings with
  | nil => exact Or.inr ⟨rfl, by simp⟩
  | cons line lines ih =>
      rw [List.foldl_cons]
      rcases ih (readLine settings line) with
        ⟨later, hlater, hopened⟩ | ⟨hgroup, hnone⟩
      · exact Or.inl ⟨later, List.mem_cons_of_mem line hlater, hopened⟩
      · rw [hgroup, (readLine_inv settings line).1]
        cases hopened : openedGroup line with
        | some group => exact Or.inl ⟨line, List.mem_cons_self, hopened⟩
        | none =>
            refine Or.inr ⟨rfl, fun other hother => ?_⟩
            rcases List.mem_cons.1 hother with rfl | hother
            · exact hopened
            · exact hnone other hother

/-- An entry comes from a line, under the group that was open there. -/
theorem foldl_entries {lines : List (List Char)} {settings : Settings}
    {entry : List Char × Value}
    (h : entry ∈ (lines.foldl readLine settings).entries) :
    entry ∈ settings.entries ∨ ∃ before line later key rest,
      lines = before ++ line :: later ∧ openedGroup line = none ∧
      splitAtEquals .plain [] (line.dropWhile isBlank) = some (key, rest) ∧
      entry.1 = (before.foldl readLine settings).group
        ++ unescapedKey 0 (trimmed key) := by
  induction lines generalizing settings with
  | nil => exact Or.inl h
  | cons line lines ih =>
      rcases ih h with
        hmem | ⟨before, other, later, key, rest, rfl, hnone, hsplit, hkey⟩
      · rcases (readLine_inv settings line).2 with
          heq | ⟨hnone, key, rest, value, hsplit, heq⟩
        · exact Or.inl (heq ▸ hmem)
        · rw [heq] at hmem
          rcases List.mem_cons.1 hmem with rfl | hold
          · exact Or.inr
              ⟨[], line, lines, key, rest, rfl, hnone, hsplit, rfl⟩
          · exact Or.inl hold
      · exact Or.inr ⟨line :: before, other, later, key, rest, rfl, hnone,
          hsplit, hkey⟩

/-- In a text that reads well every section has its closing bracket. -/
theorem foldl_wellFormed {lines : List (List Char)} {settings : Settings}
    (h : (lines.foldl readLine settings).wellFormed = true) :
    settings.wellFormed = true ∧ ∀ line ∈ lines, ∀ cs,
      line.dropWhile isBlank = '[' :: cs → ']' ∈ cs := by
  induction lines generalizing settings with
  | nil => exact ⟨h, by simp⟩
  | cons line lines ih =>
      obtain ⟨hfirst, hrest⟩ := ih h
      have hline : settings.wellFormed = true ∧ ∀ cs,
          line.dropWhile isBlank = '[' :: cs → ']' ∈ cs := by
        cases hdrop : line.dropWhile isBlank with
        | nil =>
            unfold readLine at hfirst
            rw [hdrop] at hfirst
            exact ⟨hfirst, by simp⟩
        | cons c cs =>
            by_cases hc : c = '['
            · subst hc
              unfold readLine at hfirst
              rw [hdrop] at hfirst
              simp only [Bool.and_eq_true, decide_eq_true_eq] at hfirst
              refine ⟨hfirst.1, fun ds hds => ?_⟩
              rw [← (List.cons.inj hds).2]
              exact hfirst.2
            · refine ⟨?_, fun ds hds => absurd (List.cons.inj hds).1 hc⟩
              rw [readLine_key hdrop hc] at hfirst
              cases hsplit : splitAtEquals .plain [] (c :: cs) with
              | none =>
                  rw [hsplit] at hfirst
                  cases hfirst
              | some pair =>
                  rw [hsplit] at hfirst
                  exact hfirst
      refine ⟨hline.1, fun other hother => ?_⟩
      rcases List.mem_cons.1 hother with rfl | hother
      · exact hline.2
      · exact hrest other hother

end AowisMap.Lib.Ini
