/-
Qt string operations the modelled code computes keys and paths with, on
lists of characters: `QString::arg` with its numbered place markers,
`QString::replace`, `QString::split` on a character (`List.splitOn`) and
`QString::toInt` in base ten.

# Formatting reads back

A key is formatted by a chain of `arg` and read back by `split` and
`toInt`. Two facts carry the round trip: `arg` copies a prefix without a
percent sign (`arg_append`), and `toInt` reads what `number` printed
(`toInt_number`). Both hold for all texts; a key format is then an
instance of them.

# Markers in a text that is filled in

A text that is put in for a marker may hold markers of its own, and the
next `arg` then fills those. No marker reaches over a separator, so a key
of a text and three numbers (`fourPlaces`) can be looked at place by place:
it is the text and the numbers where the text's markers are numbered above
four (`fourPlaces_high`), and where one is not the text does not stand in
the key (`fourPlaces_low`).
-/
import Mathlib.Data.List.Basic
import Mathlib.Data.List.TakeWhile
import Mathlib.Tactic.Push

namespace AowisMap.Lib.QString

-- ============================================================ numbers

/-- `QString::number` of an integer, base ten. -/
def number (n : Int) : List Char :=
  if 0 ≤ n then Nat.toDigits 10 n.toNat else '-' :: Nat.toDigits 10 (-n).toNat

/-- The bounds of a C++ `int`. -/
def fitsInt (n : Int) : Bool := -2147483648 ≤ n && n ≤ 2147483647

/-- The digits of an unsigned number. -/
def toNat? (cs : List Char) : Option Nat :=
  if cs ≠ [] ∧ cs.all Char.isDigit then some (Nat.ofDigitChars 10 cs 0)
  else none

/-- A signed number. -/
def toSigned? : List Char → Option Int
  | '-' :: cs => (toNat? cs).map fun n : Nat => -(n : Int)
  | '+' :: cs => (toNat? cs).map Int.ofNat
  | cs => (toNat? cs).map Int.ofNat

/-- What is left of a text without the white space at its ends. -/
def trimmedBy (space : Char → Bool) (cs : List Char) : List Char :=
  ((cs.dropWhile space).reverse.dropWhile space).reverse

/-- The white space of a `QByteArray`. -/
def isByteSpace (c : Char) : Bool :=
  c == ' ' || (decide (0x09 ≤ c.toNat) && decide (c.toNat ≤ 0x0D))

/-- `QChar::isSpace`. -/
def isSpace (c : Char) : Bool :=
  isByteSpace c ||
    [0x85, 0xA0, 0x1680, 0x2028, 0x2029, 0x202F, 0x205F, 0x3000].contains
      c.toNat ||
    (decide (0x2000 ≤ c.toNat) && decide (c.toNat ≤ 0x200A))

/-- `QString::trimmed`. -/
def trimmed (cs : List Char) : List Char := trimmedBy isSpace cs

/-- `QString::toInt`. -/
def toInt (cs : List Char) : Option Int :=
  match toSigned? (trimmed cs) with
  | some n => if fitsInt n then some n else none
  | none => none

/-- The bounds of a `qlonglong`. -/
def fitsLongLong (n : Int) : Bool :=
  -9223372036854775808 ≤ n && n ≤ 9223372036854775807

/-- `QString::toLongLong`. -/
def toLongLong (cs : List Char) : Option Int :=
  match toSigned? (trimmed cs) with
  | some n => if fitsLongLong n then some n else none
  | none => none

-- ======================================================= place markers

/-- The number after a percent sign, one or two digits, with the number
of characters read. -/
def markerDigits : List Char → Option (Nat × Nat)
  | d :: e :: _ =>
      if d.isDigit then
        if e.isDigit then
          some (10 * (d.toNat - 48) + (e.toNat - 48), 2)
        else some (d.toNat - 48, 1)
      else none
  | [d] => if d.isDigit then some (d.toNat - 48, 1) else none
  | [] => none

/-- The place marker at the head of a text, if there is one: its number
and its length. -/
def marker : List Char → Option (Nat × Nat)
  | '%' :: 'L' :: cs => (markerDigits cs).map fun m => (m.1, m.2 + 2)
  | '%' :: cs => (markerDigits cs).map fun m => (m.1, m.2 + 1)
  | _ => none

/-- The lowest place marker of a text. -/
def lowestMarker : List Char → Option Nat
  | [] => none
  | c :: cs =>
      match marker (c :: cs), lowestMarker cs with
      | some m, some n => some (min m.1 n)
      | some m, none => some m.1
      | none, rest => rest

/-- Replaces every place marker of one number; `skip` counts the
characters of a replaced marker still to be dropped. -/
def replaceMarker (n : Nat) (value : List Char) :
    Nat → List Char → List Char
  | _, [] => []
  | skip + 1, _ :: cs => replaceMarker n value skip cs
  | 0, c :: cs =>
      match marker (c :: cs) with
      | some m =>
          if m.1 = n then value ++ replaceMarker n value (m.2 - 1) cs
          else c :: replaceMarker n value 0 cs
      | none => c :: replaceMarker n value 0 cs

/-- `QString::arg`: the value in place of the lowest marker, wherever it
stands; the text itself when it has none. -/
def arg (text value : List Char) : List Char :=
  match lowestMarker text with
  | some n => replaceMarker n value 0 text
  | none => text

/-- `QString::replace` of every occurrence of a text. -/
def replaceAll (before after : List Char) : Nat → List Char → List Char
  | _, [] => []
  | skip + 1, _ :: cs => replaceAll before after skip cs
  | 0, c :: cs =>
      if before ≠ [] ∧ before.isPrefixOf (c :: cs) then
        after ++ replaceAll before after (before.length - 1) cs
      else c :: replaceAll before after 0 cs

-- ==================================================== numbers read back

/-- Bytes that are no white space stand for no white space. -/
theorem isByteSpace_of_isSpace {c : Char} (h : isSpace c = false) :
    isByteSpace c = false := by
  unfold isSpace at h
  rw [Bool.or_assoc, Bool.or_eq_false_iff] at h
  exact h.1

/-- Letters, digits and signs are no white space. -/
theorem isSpace_of_visible {c : Char} (hfirst : 32 < c.toNat)
    (hlast : c.toNat < 127) : isSpace c = false := by
  have hblank : c ≠ ' ' := by
    rintro rfl
    exact absurd hfirst (by decide)
  unfold isSpace isByteSpace
  simp only [List.contains_eq_mem, List.mem_cons, List.not_mem_nil, or_false,
    Bool.or_eq_false_iff, Bool.and_eq_false_iff, decide_eq_false_iff_not,
    beq_eq_false_iff_ne, ne_eq]
  exact ⟨⟨⟨hblank, by omega⟩, by omega⟩, by omega⟩

/-- Digits are no white space. -/
theorem isSpace_of_isDigit {c : Char} (h : c.isDigit) :
    isSpace c = false := by
  rw [Char.isDigit, Bool.and_eq_true, decide_eq_true_eq,
    decide_eq_true_eq] at h
  have hfirst : 48 ≤ c.toNat := UInt32.le_iff_toNat_le.1 h.1
  have hlast : c.toNat ≤ 57 := UInt32.le_iff_toNat_le.1 h.2
  exact isSpace_of_visible (by omega) (by omega)

/-- The digits of a number. -/
theorem digits_of_number (n : Nat) :
    Nat.toDigits 10 n ≠ [] ∧ ∀ c ∈ Nat.toDigits 10 n, c.isDigit :=
  ⟨Nat.toDigits_ne_nil, fun _ hc =>
    Nat.isDigit_of_mem_toDigits (by decide) (by decide) hc⟩

/-- Unsigned numbers read back. -/
theorem toNat?_toDigits (n : Nat) : toNat? (Nat.toDigits 10 n) = some n := by
  obtain ⟨hne, hdigits⟩ := digits_of_number n
  unfold toNat?
  rw [if_pos ⟨hne, List.all_eq_true.2 hdigits⟩,
    Nat.ofDigitChars_ten_toDigits]

/-- A printed number is digits, behind a minus sign when negative. -/
theorem mem_number {n : Int} {c : Char} (h : c ∈ number n) :
    c = '-' ∨ c.isDigit := by
  unfold number at h
  split at h
  · exact Or.inr ((digits_of_number _).2 c h)
  · rcases List.mem_cons.1 h with h | h
    · exact Or.inl h
    · exact Or.inr ((digits_of_number _).2 c h)

/-- A printed number holds digits and a minus sign only. -/
theorem not_mem_number {c : Char} (hminus : c ≠ '-')
    (hdigit : c.isDigit = false) (n : Int) : c ∉ number n := by
  intro hmem
  rcases mem_number hmem with rfl | hd
  · exact hminus rfl
  · rw [hdigit] at hd
    cases hd

theorem number_ne_nil (n : Int) : number n ≠ [] := by
  unfold number
  split
  · exact (digits_of_number _).1
  · simp

/-- Nothing to drop before a first character that stays. -/
theorem dropWhile_eq_self {p : Char → Bool} {cs : List Char}
    (h : ∀ c, cs.head? = some c → p c = false) : cs.dropWhile p = cs := by
  cases cs with
  | nil => rfl
  | cons c cs => rw [List.dropWhile_cons, h c rfl]; rfl

section

variable {space : Char → Bool}

/-- Nothing to trim off a text without white space at its ends. -/
theorem trimmedBy_eq_self {cs : List Char}
    (hhead : ∀ c, cs.head? = some c → space c = false)
    (hlast : ∀ c, cs.getLast? = some c → space c = false) :
    trimmedBy space cs = cs := by
  have hreverse : ∀ c, cs.reverse.head? = some c → space c = false := by
    intro c hc
    rw [List.head?_reverse] at hc
    exact hlast c hc
  rw [trimmedBy, dropWhile_eq_self hhead, dropWhile_eq_self hreverse,
    List.reverse_reverse]

/-- A trimmed text ends in no white space. -/
theorem trimmedBy_last {cs : List Char} {c : Char}
    (h : (trimmedBy space cs).getLast? = some c) : space c = false := by
  rw [trimmedBy, List.getLast?_reverse] at h
  have hnot := List.head?_dropWhile_not space (cs.dropWhile space).reverse
  rw [h] at hnot
  exact hnot

/-- Nor does it begin with any. -/
theorem trimmedBy_head {cs : List Char} {c : Char}
    (h : (trimmedBy space cs).head? = some c) : space c = false := by
  rw [trimmedBy, List.head?_reverse] at h
  obtain ⟨front, hfront⟩ :=
    @List.dropWhile_suffix _ (cs.dropWhile space).reverse space
  have hlast : (cs.dropWhile space).head? = some c := by
    rw [← List.getLast?_reverse, ← hfront, List.getLast?_append, h]
    rfl
  have hnot := List.head?_dropWhile_not space cs
  rw [hlast] at hnot
  exact hnot

/-- Nothing is left of white space, and of nothing else. -/
theorem trimmedBy_eq_nil_iff {cs : List Char} :
    trimmedBy space cs = [] ↔ ∀ c ∈ cs, space c = true := by
  rw [trimmedBy, List.reverse_eq_nil_iff, List.dropWhile_eq_nil_iff]
  constructor
  · intro h
    rw [← List.dropWhile_eq_nil_iff]
    cases hrest : cs.dropWhile space with
    | nil => rfl
    | cons d ds =>
        have hnot := List.head?_dropWhile_not space cs
        rw [hrest] at hnot h
        have hspace := h d (List.mem_reverse.2 List.mem_cons_self)
        exact absurd (hspace.symm.trans hnot) (by decide)
  · intro h c hc
    exact h c ((List.dropWhile_sublist _).subset (List.mem_reverse.1 hc))

theorem trimmedBy_trimmedBy (cs : List Char) :
    trimmedBy space (trimmedBy space cs) = trimmedBy space cs :=
  trimmedBy_eq_self (fun _ h => trimmedBy_head h) fun _ h => trimmedBy_last h

/-- Trimming only leaves out. -/
theorem trimmedBy_sublist (cs : List Char) :
    (trimmedBy space cs).Sublist cs := by
  refine (List.reverse_sublist.2 (List.dropWhile_sublist _)).trans ?_
  rw [List.reverse_reverse]
  exact List.dropWhile_sublist _

/-- Nothing to trim off a text without white space. -/
theorem trimmedBy_of_no_space {cs : List Char}
    (h : ∀ c ∈ cs, space c = false) : trimmedBy space cs = cs :=
  trimmedBy_eq_self (fun c hc => h c (List.mem_of_head? hc))
    fun c hc => h c (List.mem_of_getLast? hc)

end

/-- Signed numbers read back. -/
theorem toSigned?_number (n : Int) : toSigned? (number n) = some n := by
  unfold number
  split
  · rename_i hn
    obtain ⟨hne, hdigits⟩ := digits_of_number n.toNat
    have hread := toNat?_toDigits n.toNat
    have hval : ((n.toNat : Nat) : Int) = n := Int.toNat_of_nonneg hn
    cases hd : Nat.toDigits 10 n.toNat with
    | nil => exact absurd hd hne
    | cons d ds =>
        rw [hd] at hread
        have hdigit : d.isDigit := hdigits d (by rw [hd]; simp)
        have hminus : d ≠ '-' := by
          rintro rfl
          cases hdigit
        have hplus : d ≠ '+' := by
          rintro rfl
          cases hdigit
        have hcase : toSigned? (d :: ds)
            = (toNat? (d :: ds)).map Int.ofNat := by
          unfold toSigned?
          split
          · rename_i heq
            exact absurd (List.cons.inj heq).1 hminus
          · rename_i heq
            exact absurd (List.cons.inj heq).1 hplus
          · rfl
        rw [hcase, hread, Option.map_some]
        exact congrArg some hval
  · rename_i hn
    have hval : -(((-n).toNat : Nat) : Int) = n := by omega
    show (toNat? _).map _ = _
    rw [toNat?_toDigits, Option.map_some, hval]

/-- A printed number has no white space around it. -/
theorem toSigned?_trimmed_number (n : Int) :
    toSigned? (trimmed (number n)) = some n := by
  have hspace : ∀ c ∈ number n, isSpace c = false := by
    intro c hc
    rcases mem_number hc with rfl | hdigit
    · decide
    · exact isSpace_of_isDigit hdigit
  rw [trimmed, trimmedBy_of_no_space hspace, toSigned?_number]

/-- `toInt` reads back what `number` printed. -/
theorem toInt_number {n : Int} (h : fitsInt n) :
    toInt (number n) = some n := by
  unfold toInt
  rw [toSigned?_trimmed_number]
  simp only [h, if_true]

/-- A text that starts with another character starts with no marker. -/
theorem marker_of_ne {c : Char} (cs : List Char) (h : c ≠ '%') :
    marker (c :: cs) = none := by
  unfold marker
  split
  · rename_i heq
    exact absurd (List.cons.inj heq).1 h
  · rename_i heq
    exact absurd (List.cons.inj heq).1 h
  · rfl

/-- A prefix without a percent sign has no marker. -/
theorem lowestMarker_append {xs : List Char} (h : '%' ∉ xs)
    (cs : List Char) : lowestMarker (xs ++ cs) = lowestMarker cs := by
  induction xs with
  | nil => rfl
  | cons x xs ih =>
      have hx : x ≠ '%' := by
        rintro rfl
        exact h List.mem_cons_self
      rw [List.cons_append, lowestMarker, marker_of_ne _ hx]
      exact ih fun hmem => h (List.mem_cons_of_mem _ hmem)

/-- A text without a percent sign has no marker. -/
theorem lowestMarker_plain {xs : List Char} (h : '%' ∉ xs) :
    lowestMarker xs = none := by
  have happend := lowestMarker_append h []
  rw [List.append_nil] at happend
  exact happend

/-- A prefix without a percent sign is copied. -/
theorem replaceMarker_append {xs : List Char} (h : '%' ∉ xs) (n : Nat)
    (value cs : List Char) :
    replaceMarker n value 0 (xs ++ cs)
      = xs ++ replaceMarker n value 0 cs := by
  induction xs with
  | nil => rfl
  | cons x xs ih =>
      have hx : x ≠ '%' := by
        rintro rfl
        exact h List.mem_cons_self
      rw [List.cons_append, replaceMarker, marker_of_ne _ hx]
      simp only [List.cons_append]
      rw [ih fun hmem => h (List.mem_cons_of_mem _ hmem)]

/-- `arg` copies a prefix without a percent sign. -/
theorem arg_append {xs : List Char} (h : '%' ∉ xs) (cs value : List Char) :
    arg (xs ++ cs) value = xs ++ arg cs value := by
  unfold arg
  rw [lowestMarker_append h]
  cases lowestMarker cs with
  | none => rfl
  | some n => exact replaceMarker_append h n value cs

-- ===================================================== separators

/-- A character that stands in no place marker. -/
structure Separator (c : Char) : Prop where
  percent : c ≠ '%'
  long : c ≠ 'L'
  digit : c.isDigit = false

theorem separator_slash : Separator '/' := ⟨by decide, by decide, rfl⟩

theorem separator_underscore : Separator '_' := ⟨by decide, by decide, rfl⟩

section Separated

variable {c : Char} (h : Separator c) (xs cs : List Char)

include h in
/-- No marker reaches over a separator. -/
theorem markerDigits_separated :
    markerDigits (xs ++ c :: cs) = markerDigits xs := by
  match xs with
  | [] => cases cs with
    | nil => simp [markerDigits, h.digit]
    | cons d cs => simp [markerDigits, h.digit]
  | [d] => simp [markerDigits, h.digit]
  | d :: e :: rest => rfl

/-- A marker is a percent sign, an `L` or none, and digits. -/
theorem marker_percent (cs : List Char) :
    marker ('%' :: cs) = match cs with
      | 'L' :: cs => (markerDigits cs).map fun m => (m.1, m.2 + 2)
      | cs => (markerDigits cs).map fun m => (m.1, m.2 + 1) := by
  match cs with
  | [] => rfl
  | d :: ds =>
      by_cases hd : d = 'L'
      · subst hd
        rfl
      · simp [marker, hd]

include h in
theorem marker_separated : marker (xs ++ c :: cs) = marker xs := by
  match xs with
  | [] => exact marker_of_ne cs h.percent
  | x :: xs =>
      by_cases hx : x = '%'
      · subst hx
        match xs with
        | [] =>
            have hnone := markerDigits_separated h [] cs
            rw [List.nil_append] at hnone
            have hlong := h.long
            rw [List.cons_append, List.nil_append, marker_percent]
            split
            · rename_i heq
              exact absurd (List.cons.inj heq).1 hlong
            · rw [hnone]
              rfl
        | y :: xs =>
            rw [List.cons_append, marker_percent, marker_percent]
            by_cases hy : y = 'L'
            · subst hy
              simp only [List.cons_append]
              rw [markerDigits_separated h]
            · have hrest := markerDigits_separated h (y :: xs) cs
              split
              · rename_i heq
                exact absurd (List.cons.inj heq).1 hy
              · split
                · rename_i heq
                  exact absurd (List.cons.inj heq).1 hy
                · rw [hrest]
      · rw [List.cons_append, marker_of_ne _ hx, marker_of_ne _ hx]

/-- The markers of a text with a separator are those of its parts. -/
theorem lowestMarker_cons (d : Char) (cs : List Char) :
    lowestMarker (d :: cs)
      = Option.merge min ((marker (d :: cs)).map Prod.fst)
        (lowestMarker cs) := by
  rw [lowestMarker]
  cases marker (d :: cs) with
  | none => cases lowestMarker cs <;> rfl
  | some m => cases lowestMarker cs <;> rfl

include h in
theorem lowestMarker_separated :
    lowestMarker (xs ++ c :: cs)
      = Option.merge min (lowestMarker xs) (lowestMarker cs) := by
  induction xs with
  | nil =>
      rw [List.nil_append, lowestMarker_cons, marker_of_ne cs h.percent]
      cases lowestMarker cs <;> rfl
  | cons x xs ih =>
      have hmarker := marker_separated h (x :: xs) cs
      have hassoc (a b d : Option Nat) : Option.merge min
          (Option.merge min a b) d = Option.merge min a (Option.merge min b d) :=
        Std.Associative.assoc a b d
      rw [List.cons_append] at hmarker ⊢
      rw [lowestMarker_cons, lowestMarker_cons, hmarker, ih, hassoc]

/-- A marker starts with a percent sign and lies within the text. -/
theorem marker_some {d : Char} {cs : List Char} {m : Nat × Nat}
    (hm : marker (d :: cs) = some m) :
    d = '%' ∧ 1 ≤ m.2 ∧ m.2 ≤ cs.length + 1 := by
  have hdigits : ∀ {ds : List Char} {p : Nat × Nat},
      markerDigits ds = some p → p.2 ≤ ds.length := by
    intro ds p hp
    unfold markerDigits at hp
    split at hp
    · split at hp
      · split at hp
        · cases hp
          simp
        · cases hp
          simp
      · cases hp
    · split at hp
      · cases hp
        simp
      · cases hp
    · cases hp
  unfold marker at hm
  split at hm
  · rename_i heq
    cases heq
    obtain ⟨p, hp, rfl⟩ := Option.map_eq_some_iff.1 hm
    have hle := hdigits hp
    refine ⟨rfl, by omega, ?_⟩
    rw [List.length_cons]
    omega
  · rename_i heq
    cases heq
    obtain ⟨p, hp, rfl⟩ := Option.map_eq_some_iff.1 hm
    have hle := hdigits hp
    exact ⟨rfl, by omega, by omega⟩
  · cases hm

include h in
/-- Replacing acts on both sides of a separator. -/
theorem replaceMarker_separated (n : Nat) (value : List Char) {skip : Nat}
    (hskip : skip ≤ xs.length) :
    replaceMarker n value skip (xs ++ c :: cs)
      = replaceMarker n value skip xs ++ c :: replaceMarker n value 0 cs := by
  induction xs generalizing skip with
  | nil =>
      obtain rfl : skip = 0 := Nat.le_zero.1 hskip
      show replaceMarker n value 0 (c :: cs)
        = c :: replaceMarker n value 0 cs
      rw [replaceMarker, marker_of_ne cs h.percent]
  | cons x xs ih =>
      cases skip with
      | succ skip => exact ih (Nat.le_of_succ_le_succ hskip)
      | zero =>
          have hmarker := marker_separated h (x :: xs) cs
          rw [List.cons_append] at hmarker ⊢
          rw [replaceMarker, replaceMarker, hmarker]
          cases hm : marker (x :: xs) with
          | none =>
              simp only
              rw [ih (Nat.zero_le _)]
              rfl
          | some m =>
              have hlength := (marker_some hm).2.2
              simp only
              split
              · rw [ih (by omega), List.append_assoc]
              · rw [ih (Nat.zero_le _)]
                rfl

/-- A number below every marker is that of none. -/
theorem replaceMarker_below {n : Nat} (value : List Char) {cs : List Char}
    (hn : ∀ k, lowestMarker cs = some k → n < k) :
    replaceMarker n value 0 cs = cs := by
  induction cs with
  | nil => rfl
  | cons d cs ih =>
      rw [lowestMarker_cons] at hn
      have hrest : replaceMarker n value 0 cs = cs := by
        apply ih
        intro k hk
        rw [hk] at hn
        cases hm : marker (d :: cs) with
        | none =>
            rw [hm] at hn
            exact hn k rfl
        | some m =>
            rw [hm] at hn
            exact Nat.lt_of_lt_of_le (hn _ rfl) (Nat.min_le_right _ _)
      rw [replaceMarker]
      cases hm : marker (d :: cs) with
      | none => simp only [hrest]
      | some m =>
          have hne : m.1 ≠ n := by
            rw [hm] at hn
            cases hlow : lowestMarker cs with
            | none =>
                rw [hlow] at hn
                exact Nat.ne_of_gt (hn m.1 rfl)
            | some k =>
                rw [hlow] at hn
                exact Nat.ne_of_gt (Nat.lt_of_lt_of_le (hn _ rfl)
                  (Nat.min_le_left _ _))
          simp only [if_neg hne, hrest]

/-- A text keeps its percent signs at most. -/
theorem count_replaceMarker_le {n : Nat} {value : List Char}
    (hvalue : '%' ∉ value) (cs : List Char) :
    ∀ skip, (replaceMarker n value skip cs).count '%' ≤ cs.count '%' := by
  induction cs with
  | nil => exact fun skip => by cases skip <;> exact Nat.le_refl _
  | cons d cs ih =>
      intro skip
      have hcons : cs.count '%' ≤ (d :: cs).count '%' :=
        List.count_le_count_cons
      cases skip with
      | succ skip => exact Nat.le_trans (ih skip) hcons
      | zero =>
          have hkept : (d :: replaceMarker n value 0 cs).count '%'
              ≤ (d :: cs).count '%' := by
            rw [List.count_cons, List.count_cons]
            exact Nat.add_le_add_right (ih 0) _
          rw [replaceMarker]
          split
          · split
            · rw [List.count_append, List.count_eq_zero.2 hvalue, Nat.zero_add]
              exact Nat.le_trans (ih _) hcons
            · exact hkept
          · exact hkept

/-- Nothing else comes into a text. -/
theorem mem_of_mem_replaceMarker {n : Nat} {value : List Char} {d : Char}
    {cs : List Char} {skip : Nat} (hd : d ∈ replaceMarker n value skip cs) :
    d ∈ value ∨ d ∈ cs := by
  induction cs generalizing skip with
  | nil => cases skip <;> cases hd
  | cons e cs ih =>
      cases skip with
      | succ skip => exact (ih hd).imp_right (List.mem_cons_of_mem _)
      | zero =>
          have hkept : d ∈ e :: replaceMarker n value 0 cs →
              d ∈ value ∨ d ∈ e :: cs := by
            intro hmem
            rcases List.mem_cons.1 hmem with rfl | hmem
            · exact Or.inr List.mem_cons_self
            · exact (ih hmem).imp_right (List.mem_cons_of_mem _)
          rw [replaceMarker] at hd
          split at hd
          · split at hd
            · rcases List.mem_append.1 hd with hd | hd
              · exact Or.inl hd
              · exact (ih hd).imp_right (List.mem_cons_of_mem _)
            · exact hkept hd
          · exact hkept hd

include h in
/-- `arg` acts on both sides of a separator. -/
theorem arg_separated {n : Nat} (value : List Char)
    (hn : Option.merge min (lowestMarker xs) (lowestMarker cs) = some n) :
    arg (xs ++ c :: cs) value
      = replaceMarker n value 0 xs ++ c :: replaceMarker n value 0 cs := by
  rw [arg, lowestMarker_separated h, hn]
  exact replaceMarker_separated h xs cs n value (Nat.zero_le _)

include h in
/-- A first place whose markers are higher is copied. -/
theorem arg_kept {n : Nat} (value : List Char)
    (hn : lowestMarker cs = some n)
    (hhigh : ∀ k, lowestMarker xs = some k → n < k) :
    arg (xs ++ c :: cs) value = xs ++ c :: arg cs value := by
  have hmerge : Option.merge min (lowestMarker xs) (lowestMarker cs)
      = some n := by
    rw [hn]
    cases hlow : lowestMarker xs with
    | none => rfl
    | some k =>
        have hlt := hhigh k hlow
        show some (min k n) = some n
        rw [Nat.min_eq_right (by omega)]
  rw [arg_separated h xs cs value hmerge, replaceMarker_below value hhigh,
    arg, hn]

variable {xs cs} {value : List Char}

include h in
/-- `arg` keeps every separator. -/
theorem mem_arg {text : List Char} (hmem : c ∈ text) (value : List Char) :
    c ∈ arg text value := by
  obtain ⟨xs, cs, rfl⟩ := List.append_of_mem hmem
  cases hn : Option.merge min (lowestMarker xs) (lowestMarker cs) with
  | none =>
      rw [arg, lowestMarker_separated h, hn]
      exact hmem
  | some n =>
      rw [arg_separated h xs cs value hn]
      exact List.mem_append_right _ List.mem_cons_self

/-- A text that starts as `first` did, with no more percent signs in its
first place, or with fewer. -/
def FirstPlace (c : Char) (percents : Nat) (text : List Char) : Prop :=
  ∃ first rest, text = first ++ c :: rest ∧ c ∉ first ∧
    first.count '%' ≤ percents

include h in
/-- `arg` puts no percent sign into the first place. -/
theorem FirstPlace.arg {percents : Nat} {text : List Char}
    (htext : FirstPlace c percents text) (hsep : c ∉ value)
    (hvalue : '%' ∉ value) : FirstPlace c percents (arg text value) := by
  obtain ⟨first, rest, rfl, hfirst, hcount⟩ := htext
  cases hn : Option.merge min (lowestMarker first) (lowestMarker rest) with
  | none =>
      rw [QString.arg, lowestMarker_separated h, hn]
      exact ⟨first, rest, rfl, hfirst, hcount⟩
  | some n =>
      rw [arg_separated h first rest value hn]
      refine ⟨_, _, rfl, ?_, ?_⟩
      · intro hmem
        rcases mem_of_mem_replaceMarker hmem with hmem | hmem
        · exact hsep hmem
        · exact hfirst hmem
      · exact Nat.le_trans (count_replaceMarker_le hvalue first 0) hcount

end Separated

-- ============================================================= replacing

/-- A prefix that cannot start an occurrence is copied. -/
theorem replaceAll_append {c : Char} {xs : List Char} (h : c ∉ xs)
    (before after cs : List Char) :
    replaceAll (c :: before) after 0 (xs ++ cs)
      = xs ++ replaceAll (c :: before) after 0 cs := by
  induction xs with
  | nil => rfl
  | cons x xs ih =>
      have hx : c ≠ x := by
        rintro rfl
        exact h List.mem_cons_self
      rw [List.cons_append, replaceAll, if_neg]
      · rw [ih fun hmem => h (List.mem_cons_of_mem _ hmem), List.cons_append]
      · rintro ⟨-, hhead⟩
        simp [List.isPrefixOf, hx] at hhead

-- ===================================================== keys of places

section Places

variable {c : Char} (h : Separator c) (hminus : c ≠ '-') (x y z : Int)

include h in
/-- The places behind the first one, filled with three numbers; each `arg`
fills the lowest marker that is left. -/
theorem arg_places :
    lowestMarker ('%' :: '2' :: c :: '%' :: '3' :: c :: ['%', '4'])
        = some 2 ∧
      arg ('%' :: '2' :: c :: '%' :: '3' :: c :: ['%', '4']) (number x)
        = number x ++ c :: '%' :: '3' :: c :: ['%', '4'] ∧
    lowestMarker (number x ++ c :: '%' :: '3' :: c :: ['%', '4'])
        = some 3 ∧
      arg (number x ++ c :: '%' :: '3' :: c :: ['%', '4']) (number y)
        = number x ++ c :: (number y ++ c :: ['%', '4']) ∧
    lowestMarker (number x ++ c :: (number y ++ c :: ['%', '4']))
        = some 4 ∧
      arg (number x ++ c :: (number y ++ c :: ['%', '4'])) (number z)
        = number x ++ c :: (number y ++ c :: number z) := by
  have hdigit := h.digit
  have hc := h.percent
  have hnumber := not_mem_number (c := '%') (by simp) rfl
  have hx : '%' ∉ number x ++ [c] := by
    simp [hnumber, Ne.symm hc]
  have hy : '%' ∉ number x ++ [c] ++ number y ++ [c] := by
    simp [hnumber, Ne.symm hc]
  refine ⟨?_, ?_, ?_, ?_, ?_, ?_⟩
  · simp [lowestMarker, marker, markerDigits, hdigit, hc]
  · simp [arg, lowestMarker, replaceMarker, marker, markerDigits, hdigit, hc]
  · rw [← List.singleton_append, ← List.append_assoc, lowestMarker_append hx]
    simp [lowestMarker, marker, markerDigits, hdigit, hc]
  · rw [← List.singleton_append, ← List.append_assoc, arg_append hx]
    simp [arg, lowestMarker, replaceMarker, marker, markerDigits, hdigit, hc]
  · have hsplit : number x ++ c :: (number y ++ c :: ['%', '4'])
        = number x ++ [c] ++ number y ++ [c] ++ ['%', '4'] := by simp
    rw [hsplit, lowestMarker_append hy]
    simp [lowestMarker, marker, markerDigits]
  · have hsplit : number x ++ c :: (number y ++ c :: ['%', '4'])
        = number x ++ [c] ++ number y ++ [c] ++ ['%', '4'] := by simp
    rw [hsplit, arg_append hy]
    simp [arg, lowestMarker, replaceMarker, marker, markerDigits]

include h in
/-- The first of four places is filled with a text. -/
theorem arg_first (text : List Char) :
    arg ('%' :: '1' :: c :: '%' :: '2' :: c :: '%' :: '3' :: c
        :: ['%', '4']) text
      = text ++ c :: ('%' :: '2' :: c :: '%' :: '3' :: c :: ['%', '4']) := by
  have hdigit := h.digit
  have hc := h.percent
  simp [arg, lowestMarker, replaceMarker, marker, markerDigits, hdigit, hc]

/-- A key of four places: a text and three numbers between separators,
filled by a chain of `arg`. -/
def fourPlaces (c : Char) (text : List Char) (x y z : Int) : List Char :=
  arg (arg (arg (arg ('%' :: '1' :: c :: '%' :: '2' :: c :: '%' :: '3'
    :: c :: ['%', '4']) text) (number x)) (number y)) (number z)

include h in
/-- A text whose markers are behind the four places. -/
theorem fourPlaces_high {text : List Char}
    (hhigh : ∀ k, lowestMarker text = some k → 4 < k) :
    fourPlaces c text x y z
      = text ++ c :: (number x ++ c :: (number y ++ c :: number z)) := by
  obtain ⟨hlow₂, harg₂, hlow₃, harg₃, hlow₄, harg₄⟩ := arg_places h x y z
  rw [fourPlaces, arg_first h,
    arg_kept h text _ _ hlow₂ fun k hk => by have := hhigh k hk; omega,
    harg₂,
    arg_kept h text _ _ hlow₃ fun k hk => by have := hhigh k hk; omega,
    harg₃, arg_kept h text _ _ hlow₄ hhigh, harg₄]

include h in
/-- A text without a percent sign has no marker at all. -/
theorem fourPlaces_plain {text : List Char} (htext : '%' ∉ text) :
    fourPlaces c text x y z
      = text ++ c :: (number x ++ c :: (number y ++ c :: number z)) := by
  apply fourPlaces_high h
  intro k hk
  rw [lowestMarker_plain htext] at hk
  cases hk

end Places
/-- What stands before the last separator is determined. -/
theorem append_sep_inj {c : Char} {xs ys as bs : List Char} (ha : c ∉ as)
    (hb : c ∉ bs) (h : xs ++ c :: as = ys ++ c :: bs) : xs = ys := by
  rcases List.append_eq_append_iff.1 h with ⟨ds, rfl, hds⟩ | ⟨ds, rfl, hds⟩
  · cases ds with
    | nil => exact (List.append_nil xs).symm
    | cons d ds =>
        refine absurd ?_ ha
        rw [(List.cons.inj hds).2]
        exact List.mem_append_right _ List.mem_cons_self
  · cases ds with
    | nil => exact List.append_nil ys
    | cons d ds =>
        refine absurd ?_ hb
        rw [(List.cons.inj hds).2]
        exact List.mem_append_right _ List.mem_cons_self

/-- The text of a key of four places is determined. -/
theorem fourPlaces_inj {c : Char} (hminus : c ≠ '-')
    (hdigit : c.isDigit = false) {text text' : List Char}
    {x y z x' y' z' : Int}
    (h : text ++ c :: (number x ++ c :: (number y ++ c :: number z))
      = text' ++ c :: (number x' ++ c :: (number y' ++ c :: number z'))) :
    text = text' := by
  have hnumber := not_mem_number hminus hdigit
  have hlast : text ++ c :: (number x ++ c :: number y)
      = text' ++ c :: (number x' ++ c :: number y') := by
    refine append_sep_inj (hnumber z) (hnumber z') ?_
    simpa only [List.append_assoc, List.cons_append] using h
  have hmiddle : text ++ c :: number x = text' ++ c :: number x' := by
    refine append_sep_inj (hnumber y) (hnumber y') ?_
    simpa only [List.append_assoc, List.cons_append] using hlast
  exact append_sep_inj (hnumber x) (hnumber x') hmiddle

end AowisMap.Lib.QString
