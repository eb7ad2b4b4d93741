/-
What survives a restart of a provider catalogue: everything but ids that
the INI text does not carry.

The route checks that an id begins with a UUID, and the writer puts the id
between the brackets of a section line as it is, so what follows the UUID
may end the section name, be decoded, or end the line (`Carried`). All
other texts are quoted, and numbers and flags need no quotes.

# Both directions

- Where every id is carried, the file is read line by line as it was
  written (`readFile_carried`), so each provider reads back.
- Otherwise take the longest id that is not carried. The section it is
  read back from would have to be written with at least as many
  characters, but every section line of the file either is the line of a
  carried id, or was written with fewer (`section_of_file`).
-/
import AowisMap.Server.Catalogue
import Mathlib.Data.List.TakeWhile

namespace AowisMap.Server.Catalogue

open Lib

-- ================================================================ values

/-- Inside quotes, escaped characters read as themselves. -/
theorem unquote_quoted (value rest : Text) :
    Ini.unquote true false (value.flatMap iniQuotedCharacter ++ rest)
      = (Ini.unquote true false rest).map fun more => value ++ more := by
  induction value with
  | nil =>
      rw [List.flatMap_nil, List.nil_append]
      cases Ini.unquote true false rest with
      | none => rfl
      | some more => rfl
  | cons c value ih =>
      rw [List.flatMap_cons, List.append_assoc]
      have hmap : (Ini.unquote true false
          (value.flatMap iniQuotedCharacter ++ rest)).map (fun more => c :: more)
            = (Ini.unquote true false rest).map
              fun more => c :: value ++ more := by
        rw [ih, Option.map_map]
        rfl
      rw [← hmap]
      unfold iniQuotedCharacter
      split
      · rename_i hspecial
        have hcode : Ini.escapeCode c = some c := by
          rw [Ini.escapeCode, if_pos]
          rcases hspecial with h | h
          · exact Or.inr (Or.inr (Or.inl h))
          · exact Or.inl h
        simp [Ini.unquote, hcode]
      · rename_i hplain
        rw [not_or] at hplain
        split
        · rename_i htab
          have hcode : Ini.escapeCode 't' = some '\t' := by decide
          subst htab
          simp [Ini.unquote, hcode]
        · simp [Ini.unquote, hplain]

/-- A quoted value loses its quotes and its escapes, and no blanks. -/
theorem unquote_iniQuotedValue (value : Text) :
    Ini.unquote false false (Ini.trimmed (iniQuotedValue value))
      = some ((if value.head? = some '@' then ['@'] else []) ++ value) := by
  have htrimmed : Ini.trimmed (iniQuotedValue value)
      = iniQuotedValue value := by
    apply QString.trimmedBy_eq_self
    · intro c hc
      cases hc
      rfl
    · intro c hc
      rw [iniQuotedValue, List.getLast?_append] at hc
      cases hc
      rfl
  have hclose : Ini.unquote true false ['"'] = some [] := rfl
  have hread := unquote_quoted value ['"']
  rw [hclose, Option.map_some, List.append_nil] at hread
  have hopen (cs : Text) : Ini.unquote false false ('"' :: cs)
      = Ini.unquote true false cs := rfl
  rw [htrimmed]
  unfold iniQuotedValue
  rw [List.cons_append, hopen, List.append_assoc]
  split
  · have hat (cs : Text) : Ini.unquote true false ('@' :: cs)
        = (Ini.unquote true false cs).map fun more => '@' :: more := rfl
    show Ini.unquote true false
      ('@' :: (value.flatMap iniQuotedCharacter ++ ['"'])) = _
    rw [hat, hread]
    rfl
  · exact hread

/-- A quoted value reads as itself. -/
theorem readValue_quoted (value : Text) :
    Ini.readValue (iniQuotedValue value) = .string value := by
  unfold Ini.readValue
  rw [unquote_iniQuotedValue]
  exact Ini.readAt_doubled value

/-- So does its value. -/
theorem unescapedValue_quoted (value : Text) :
    Ini.unescapedValue (iniQuotedValue value) = .text value := by
  rw [Ini.unescapedValue, readValue_quoted]
  rfl

/-- A quoted value stays in its line. -/
theorem run_quoted (value : Text) :
    Ini.run .plain (iniQuotedValue value) = some .plain := by
  have hbody : Ini.run .quoted (value.flatMap iniQuotedCharacter)
      = some .quoted := by
    induction value with
    | nil => rfl
    | cons c value ih =>
        rw [List.flatMap_cons, Ini.run_append]
        refine ⟨.quoted, ?_, ih⟩
        unfold iniQuotedCharacter
        split
        · rfl
        · rename_i hplain
          rw [not_or] at hplain
          split
          · rfl
          · simp [Ini.run, Ini.advance, hplain]
  have hquoted : Ini.run .quoted (value.flatMap iniQuotedCharacter ++ ['"'])
      = some .plain := Ini.run_append.2 ⟨.quoted, hbody, rfl⟩
  unfold iniQuotedValue
  rw [List.cons_append, Ini.run_cons]
  refine ⟨.quoted, rfl, ?_⟩
  split
  · exact hquoted
  · exact hquoted

-- =============================================================== lines

/-- Every file line of its own: what `compatibleIni` makes of one. -/
theorem compatibleIni_append (start : Bool) (cs ds : Text) :
    compatibleIni start (cs ++ '\n' :: ds)
      = compatibleIni start cs ++ '\n' :: compatibleIni true ds := by
  induction cs generalizing start with
  | nil => simp [compatibleIni]
  | cons c cs ih =>
      rw [List.cons_append, compatibleIni, compatibleIni]
      split
      · rw [ih, List.cons_append]
      split
      · rw [ih, List.cons_append]
      split
      · rw [ih, List.cons_append]
      · rw [ih, List.cons_append]

/-- Inside a line nothing is a comment to it. -/
theorem compatibleIni_inside {cs : Text} (h : '\n' ∉ cs) (ds : Text) :
    compatibleIni false (cs ++ ds) = cs ++ compatibleIni false ds := by
  induction cs with
  | nil => rfl
  | cons c cs ih =>
      rw [List.mem_cons, not_or] at h
      simp [compatibleIni, Ne.symm h.1, ih h.2]

/-- In the middle of a line the compatibility pass changes nothing. -/
theorem compatibleIni_line {cs : Text} (h : '\n' ∉ cs) :
    compatibleIni false cs = cs := by
  have hinside := compatibleIni_inside h []
  simpa [compatibleIni] using hinside

/-- A closing bracket stays. -/
theorem compatibleIni_bracket (start : Bool) (cs : Text) :
    compatibleIni start (cs ++ [']']) = compatibleIni start cs ++ [']'] := by
  induction cs generalizing start with
  | nil => simp [compatibleIni]
  | cons c cs ih =>
      rw [List.cons_append, compatibleIni, compatibleIni]
      split
      · rw [ih, List.cons_append]
      split
      · rw [ih, List.cons_append]
      split
      · rw [ih, List.cons_append]
      · rw [ih, List.cons_append]

/-- A line that is read as it is: no comment to `compatibleIni`, and with
nothing in it that ends it. -/
structure PlainLine (line : Text) : Prop where
  compatible : compatibleIni true line = line
  run : Ini.run .plain line = some .plain

/-- A line that begins with a character that is neither blank nor a
comment, and holds no line feed, is no comment. -/
theorem compatible_first {line : Text} (hfeed : '\n' ∉ line)
    (hfirst : ∀ c, line.head? = some c → c ≠ ' ' ∧ c ≠ '\t' ∧ c ≠ '#') :
    compatibleIni true line = line := by
  cases line with
  | nil => rfl
  | cons c cs =>
      obtain ⟨hspace, htab, hhash⟩ := hfirst c rfl
      rw [List.mem_cons, not_or] at hfeed
      simp [compatibleIni, hspace, htab, hhash, Ne.symm hfeed.1,
        compatibleIni_line hfeed.2]

/-- A plain line at the head of a text is its first line. -/
theorem PlainLine.scan {line : Text} (h : PlainLine line) (rest : Text) :
    Ini.scan .plain [] (line ++ '\n' :: rest)
      = line :: Ini.scan .plain [] rest := by
  rw [Ini.scan_of_run h.run, List.nil_append]
  exact Ini.scan_cut rfl

/-- The text of lines, each ended by a line feed. -/
def fileText (lines : List Text) : Text :=
  lines.flatMap fun line => line ++ ['\n']

/-- Lines and more lines. -/
theorem fileText_append (lines more : List Text) :
    fileText (lines ++ more) = fileText lines ++ fileText more :=
  List.flatMap_append

/-- A line and the rest. -/
theorem fileText_cons (line : Text) (lines : List Text) :
    fileText (line :: lines) = line ++ '\n' :: fileText lines := by
  rw [fileText, List.flatMap_cons, List.append_assoc]
  rfl

/-- Plain lines at the head of a file. -/
theorem scan_plainLines {lines : List Text} (h : ∀ line ∈ lines, PlainLine line)
    (rest : Text) :
    Ini.scan .plain [] (compatibleIni true (fileText lines ++ rest))
      = lines ++ Ini.scan .plain [] (compatibleIni true rest) := by
  induction lines with
  | nil => rfl
  | cons line lines ih =>
      have hline := h line List.mem_cons_self
      rw [fileText_cons, List.append_assoc, List.cons_append,
        compatibleIni_append, hline.compatible, hline.scan, ih fun other hother =>
          h other (List.mem_cons_of_mem line hother)]
      rfl

/-- What the writer puts in front of the id of a section. -/
theorem openBracket : "[map_provider.".toList = '[' :: providerPrefix := by
  decide

/-- The line of a section, as the reader takes it apart. -/
theorem sectionLine_eq (id : Text) :
    sectionLine id = '[' :: (providerPrefix ++ (id ++ [']'])) := by
  unfold sectionLine
  simp only [openBracket, List.cons_append]

/-- The fixed part of a section stays in its line. -/
theorem noFeed : '\n' ∉ providerPrefix := by decide

-- =========================================================== words

/-- The characters of keys, numbers and flags. -/
def isWordChar (c : Char) : Bool := c.isAlphanum || c == '-' || c == '_'

/-- A text of such characters. -/
def IsWord (cs : Text) : Prop := ∀ c ∈ cs, isWordChar c = true

/-- A character of a word is not one that means something in a file. -/
theorem wordChar_ne {c d : Char} (h : isWordChar c = true)
    (hd : isWordChar d = false) : c ≠ d := by
  rintro rfl
  rw [h] at hd
  cases hd

/-- It is an ordinary one, -/
theorem wordChar_ordinary {c : Char} (h : isWordChar c = true) :
    Ini.isOrdinary c = true := by
  simp only [Ini.isOrdinary, Bool.and_eq_true, bne_iff_ne]
  exact ⟨⟨⟨⟨wordChar_ne h rfl, wordChar_ne h rfl⟩, wordChar_ne h rfl⟩,
    wordChar_ne h rfl⟩, wordChar_ne h rfl⟩

/-- and no blank of any script. -/
theorem wordChar_not_space {c : Char} (h : isWordChar c = true) :
    QString.isSpace c = false := by
  have hvisible : ∀ first last : UInt32, first ≤ c.val ∧ c.val ≤ last →
      32 < first.toNat → last.toNat < 127 → QString.isSpace c = false := by
    rintro first last ⟨hfirst, hlast⟩ hlow hhigh
    rw [UInt32.le_iff_toNat_le] at hfirst hlast
    refine QString.isSpace_of_visible ?_ ?_
    · exact Nat.lt_of_lt_of_le hlow hfirst
    · exact Nat.lt_of_le_of_lt hlast hhigh
  change (((decide (65 ≤ c.val ∧ c.val ≤ 90)
    || decide (97 ≤ c.val) && decide (c.val ≤ 122))
    || decide (48 ≤ c.val) && decide (c.val ≤ 57))
    || c == '-' || c == '_') = true at h
  simp only [Bool.or_eq_true, Bool.and_eq_true, decide_eq_true_eq,
    beq_iff_eq] at h
  rcases h with (((h | h) | h) | rfl) | rfl
  · exact hvisible 65 90 h (by decide) (by decide)
  · exact hvisible 97 122 h (by decide) (by decide)
  · exact hvisible 48 57 h (by decide) (by decide)
  · decide
  · decide

/-- A word holds none of the others. -/
theorem IsWord.not_mem {cs : Text} (h : IsWord cs) {d : Char}
    (hd : isWordChar d = false) : d ∉ cs := by
  intro hmem
  rw [h d hmem] at hd
  cases hd

/-- It stays in its line. -/
theorem IsWord.run {cs : Text} (h : IsWord cs) :
    Ini.run .plain cs = some .plain :=
  Ini.run_ordinary fun c hc => wordChar_ordinary (h c hc)

/-- It has nothing to trim, as a string, -/
theorem IsWord.trimmed {cs : Text} (h : IsWord cs) :
    QString.trimmed cs = cs :=
  QString.trimmedBy_of_no_space fun c hc => wordChar_not_space (h c hc)

/-- nor as a byte array. -/
theorem IsWord.trimmedBytes {cs : Text} (h : IsWord cs) :
    Ini.trimmed cs = cs :=
  QString.trimmedBy_of_no_space fun c hc =>
    QString.isByteSpace_of_isSpace (wordChar_not_space (h c hc))

/-- Numbers are written as words. -/
theorem isWord_number (n : Int) : IsWord (QString.number n) := by
  intro c hc
  rcases QString.mem_number hc with rfl | hdigit
  · rfl
  · simp [isWordChar, Char.isAlphanum, hdigit]

/-- So are truth values. -/
theorem isWord_boolText (value : Bool) : IsWord (boolText value) := by
  have hall : ∀ value, (boolText value).all isWordChar = true := by decide
  exact List.all_eq_true.1 (hall value)

/-- A word reads as itself, without quotes. -/
theorem IsWord.unescapedValue {cs : Text} (h : IsWord cs) :
    Ini.unescapedValue cs = .text cs := by
  have hunquote : ∀ ds : Text, IsWord ds →
      Ini.unquote false false ds = some ds := by
    intro ds hds
    induction ds with
    | nil => rfl
    | cons d ds ih =>
        have hd := hds d List.mem_cons_self
        have hslash := wordChar_ne hd (d := '\\') rfl
        have hquote := wordChar_ne hd (d := '"') rfl
        have hcomma := wordChar_ne hd (d := ',') rfl
        rw [Ini.unquote, if_neg hslash, if_neg hquote, if_neg (by simp [hcomma]),
          ih fun c hc => hds c (List.mem_cons_of_mem d hc)]
        rfl
  have hat : cs.head? ≠ some '@' := fun hhead =>
    absurd (h '@' (List.mem_of_head? hhead)) (by decide)
  have hread : Ini.readValue cs = .string cs := by
    unfold Ini.readValue
    rw [h.trimmedBytes, hunquote cs h]
    exact Ini.readAt_of_ne hat
  rw [Ini.unescapedValue, hread]
  rfl

/-- A nonempty word is a key. -/
structure IsKey (key : String) : Prop where
  word : IsWord key.toList
  nonempty : key.toList ≠ []

/-- The test, character by character. -/
theorem isKey_of {key : String}
    (h : key.toList.all isWordChar = true ∧ key.toList ≠ []) : IsKey key :=
  ⟨List.all_eq_true.1 h.1, h.2⟩

/-- The line of a key is plain if its value stays in the line. -/
theorem IsKey.plainLine {key : String} (h : IsKey key) {value : Text}
    (hfeed : '\n' ∉ value) (hrun : Ini.run .plain value = some .plain) :
    PlainLine (keyLine key value) where
  compatible := by
    apply compatible_first
    · unfold keyLine
      rw [List.mem_append, List.mem_cons, not_or, not_or]
      exact ⟨h.word.not_mem rfl, by decide, hfeed⟩
    · intro c hc
      have hword : isWordChar c = true := by
        rw [keyLine, List.head?_append_of_ne_nil _ h.nonempty] at hc
        exact h.word c (List.mem_of_head? hc)
      exact ⟨wordChar_ne hword rfl, wordChar_ne hword rfl,
        wordChar_ne hword rfl⟩
  run := by
    rw [keyLine, Ini.run_append]
    exact ⟨.plain, h.word.run, Ini.run_cons.2 ⟨.plain, rfl, hrun⟩⟩

/-- A word ends at the equals sign behind it. -/
theorem IsWord.splitAtEquals {cs : Text} (h : IsWord cs) (key value : Text) :
    Ini.splitAtEquals .plain key (cs ++ '=' :: value)
      = some (key ++ cs, value) := by
  induction cs generalizing key with
  | nil => simp [Ini.splitAtEquals]
  | cons c cs ih =>
      have hc := h c List.mem_cons_self
      have hordinary := wordChar_ordinary hc
      simp only [Ini.isOrdinary, Bool.and_eq_true, bne_iff_ne] at hordinary
      have hadvance : Ini.advance .plain c = .keep .plain := by
        simp [Ini.advance, hordinary]
      rw [List.cons_append, Ini.splitAtEquals,
        if_neg (by simp [wordChar_ne hc (d := '=') rfl]), hadvance]
      have hrest := ih (fun d hd => h d (List.mem_cons_of_mem c hd))
        (key ++ [c])
      simpa using hrest

/-- A key is written as it is. -/
theorem IsKey.unescapedKey {key : String} (h : IsKey key) :
    Ini.unescapedKey 0 (Ini.trimmed key.toList) = key.toList := by
  have happend := @Ini.unescapedKey_append key.toList (fun d hd =>
    ⟨wordChar_ne (h.word d hd) rfl, wordChar_ne (h.word d hd) rfl⟩) []
  rw [h.word.trimmedBytes]
  simpa [Ini.unescapedKey] using happend

/-- The line of a key begins with no blank and no bracket. -/
theorem IsKey.first {key : String} (h : IsKey key) (value : Text) :
    ∃ c cs, keyLine key value = c :: cs ∧ Ini.isBlank c = false ∧ c ≠ '[' := by
  obtain ⟨c, cs, hcs⟩ := List.exists_cons_of_ne_nil h.nonempty
  have hc : isWordChar c = true := h.word c (hcs ▸ List.mem_cons_self)
  refine ⟨c, cs ++ '=' :: value, by rw [keyLine, hcs, List.cons_append], ?_,
    wordChar_ne hc rfl⟩
  simp [Ini.isBlank, wordChar_ne hc (d := ' ') rfl,
    wordChar_ne hc (d := '\t') rfl]

/-- What the line of a key adds. -/
theorem IsKey.readLine {key : String} (h : IsKey key) (value : Text)
    (settings : Ini.Settings) :
    Ini.readLine settings (keyLine key value) =
      { settings with
        entries := (settings.group ++ key.toList, Ini.unescapedValue value)
          :: settings.entries } := by
  obtain ⟨c, cs, hwhole, hblank, hsection⟩ := h.first value
  have hdrop : (keyLine key value).dropWhile Ini.isBlank = c :: cs := by
    rw [hwhole, List.dropWhile_cons, hblank]
    rfl
  have hsplit : Ini.splitAtEquals .plain [] (c :: cs)
      = some (key.toList, value) := by
    rw [← hwhole, keyLine, h.word.splitAtEquals, List.nil_append]
  rw [Ini.readLine_key hdrop hsection, hsplit]
  simp only [h.unescapedKey]

/-- The line of a key opens no section. -/
theorem IsKey.openedGroup {key : String} (h : IsKey key) (value : Text) :
    Ini.openedGroup (keyLine key value) = none := by
  obtain ⟨c, cs, hwhole, hblank, hsection⟩ := h.first value
  refine @Ini.openedGroup_key _ cs c ?_ hsection
  rw [hwhole, List.dropWhile_cons, hblank]
  rfl

-- ============================================================== blocks

/-- The keys that the writer uses. -/
theorem isKey_name : IsKey "name" := isKey_of (by decide)

theorem isKey_url : IsKey "url" := isKey_of (by decide)

theorem isKey_minZoom : IsKey "min_zoom" := isKey_of (by decide)

theorem isKey_maxZoom : IsKey "max_zoom" := isKey_of (by decide)

theorem isKey_enabled : IsKey "enabled" := isKey_of (by decide)

theorem isKey_remote : IsKey "remote_fetch_enabled" := isKey_of (by decide)

theorem isKey_coverage : IsKey "coverage" := isKey_of (by decide)

theorem isKey_configured : IsKey "configured" := isKey_of (by decide)

/-- The route lets no line feed into a quoted text. -/
structure Clean (provider : MapProvider) : Prop where
  name : '\n' ∉ provider.name
  urlTemplate : '\n' ∉ provider.urlTemplate
  coverage : '\n' ∉ provider.coverage

/-- Quoting adds no line feed. -/
theorem not_mem_quoted {value : Text} (h : '\n' ∉ value) :
    '\n' ∉ iniQuotedValue value := by
  have hcharacter : ∀ c ∈ value, '\n' ∉ iniQuotedCharacter c := by
    intro c hc
    have hne : '\n' ≠ c := fun heq => h (heq ▸ hc)
    unfold iniQuotedCharacter
    split
    · simp [hne]
    · split
      · decide
      · simp [hne]
  unfold iniQuotedValue
  intro hmem
  rcases List.mem_append.1 hmem with hmem | hmem
  · rcases List.mem_cons.1 hmem with heq | hmem
    · cases heq
    rcases List.mem_append.1 hmem with hmem | hmem
    · split at hmem
      · simp at hmem
      · cases hmem
    · obtain ⟨c, hc, hmem⟩ := List.mem_flatMap.1 hmem
      exact hcharacter c hc hmem
  · simp at hmem

/-- The line of a quoted value. -/
theorem plainLine_quoted {key : String} (h : IsKey key) {value : Text}
    (hfeed : '\n' ∉ value) : PlainLine (keyLine key (iniQuotedValue value)) :=
  h.plainLine (not_mem_quoted hfeed) (run_quoted value)

/-- The line of a number or a truth value. -/
theorem plainLine_word {key : String} (h : IsKey key) {value : Text}
    (hword : IsWord value) : PlainLine (keyLine key value) :=
  h.plainLine (hword.not_mem rfl) hword.run

/-- The empty line between two blocks. -/
theorem plainLine_nil : PlainLine [] := ⟨rfl, rfl⟩

/-- A line behind a section line is one of a key, or empty. -/
theorem mem_valueLines {provider : MapProvider} {line : Text}
    (h : line ∈ valueLines provider) :
    line = [] ∨ ∃ key value, IsKey key ∧ line = keyLine key value ∧
      (Clean provider → PlainLine line) := by
  simp only [valueLines, List.mem_append, List.mem_cons, List.not_mem_nil,
    or_false] at h
  rcases h with (h | h) | rfl
  · refine Or.inr ?_
    rcases h with rfl | rfl | rfl | rfl | rfl | rfl
    · exact ⟨_, _, isKey_name, rfl, fun h => plainLine_quoted isKey_name h.name⟩
    · exact ⟨_, _, isKey_url, rfl,
        fun h => plainLine_quoted isKey_url h.urlTemplate⟩
    · exact ⟨_, _, isKey_minZoom, rfl,
        fun _ => plainLine_word isKey_minZoom (isWord_number _)⟩
    · exact ⟨_, _, isKey_maxZoom, rfl,
        fun _ => plainLine_word isKey_maxZoom (isWord_number _)⟩
    · exact ⟨_, _, isKey_enabled, rfl,
        fun _ => plainLine_word isKey_enabled (isWord_boolText _)⟩
    · exact ⟨_, _, isKey_remote, rfl,
        fun _ => plainLine_word isKey_remote (isWord_boolText _)⟩
  · split at h
    · cases h
    · rw [List.mem_singleton.1 h]
      exact Or.inr ⟨_, _, isKey_coverage, rfl,
        fun h => plainLine_quoted isKey_coverage h.coverage⟩
  · exact Or.inl rfl

/-- The lines behind a section line are plain. -/
theorem valueLines_plain {provider : MapProvider} (h : Clean provider) :
    ∀ line ∈ valueLines provider, PlainLine line := by
  intro line hline
  rcases mem_valueLines hline with rfl | ⟨key, value, -, rfl, hplain⟩
  · exact plainLine_nil
  · exact hplain h

/-- They open no section. -/
theorem valueLines_openedGroup {provider : MapProvider} :
    ∀ line ∈ valueLines provider, Ini.openedGroup line = none := by
  intro line hline
  rcases mem_valueLines hline with rfl | ⟨key, value, hkey, rfl, -⟩
  · rfl
  · exact hkey.openedGroup value

-- ======================================================= carried ids

/-- An id that a section line carries: it does not end the name, is not
decoded, and stays in its line, with its quotes closed. -/
structure Carried (id : Text) : Prop where
  noBracket : ']' ∉ id
  noSlash : '/' ∉ id
  noBackslash : '\\' ∉ id
  noEscape : Ini.unescapedKey 0 id = id
  noComment : compatibleIni false id = id
  oneLine : Ini.run .plain id = some .plain

/-- A text with neither white space at its ends nor nothing at all. -/
structure Trimmed (id : Text) : Prop where
  nonempty : id ≠ []
  trimmed : QString.trimmed id = id

/-- The fixed part of a section reads as it is written: it is ordinary, -/
theorem prefix_isOrdinary : ∀ c ∈ providerPrefix, Ini.isOrdinary c = true :=
  List.all_eq_true.1 (by decide)

/-- has no escapes, -/
theorem prefix_unescaped : ∀ c ∈ providerPrefix, c ≠ '\\' ∧ c ≠ '%' := by
  intro c hc
  have hall : providerPrefix.all (fun c => c != '\\' && c != '%') = true := by
    decide
  simpa using List.all_eq_true.1 hall c hc

/-- does not close the bracket, -/
theorem prefix_noBracket : ∀ c ∈ providerPrefix, (c != ']') = true :=
  List.all_eq_true.1 (by decide)

/-- and names no subgroup. -/
theorem prefix_noSlash : ∀ c ∈ providerPrefix, (c != '/') = true :=
  List.all_eq_true.1 (by decide)

/-- `provider_section_prefix.size()`. -/
theorem prefix_length : providerPrefix.length = 13 := by decide

/-- The group of a provider. -/
def groupOfId (id : Text) : Text := providerPrefix ++ id

/-- The name of a section is read from what stands before the first
closing bracket of the id. -/
theorem takeWhile_section (cs : Text) :
    (providerPrefix ++ (cs ++ [']'])).takeWhile (fun c => c != ']')
      = providerPrefix ++ cs.takeWhile fun c => c != ']' := by
  have hend : ∀ ds : Text, (ds ++ [']']).takeWhile (fun c => c != ']')
      = ds.takeWhile fun c => c != ']' := by
    intro ds
    induction ds with
    | nil => rfl
    | cons d ds ih => simp only [List.cons_append, List.takeWhile_cons, ih]
  rw [List.takeWhile_append_of_pos prefix_noBracket, hend]

/-- The prefix in front of a trimmed id leaves nothing to trim. -/
theorem trimmed_section {id : Text} (h : Trimmed id) :
    Ini.trimmed (providerPrefix ++ id) = providerPrefix ++ id := by
  apply QString.trimmedBy_eq_self
  · intro c hc
    have hfirst : (providerPrefix ++ id).head? = some 'm' := rfl
    rw [hfirst] at hc
    cases hc
    rfl
  · intro c hc
    rw [List.getLast?_append_of_ne_nil _ h.nonempty, ← h.trimmed] at hc
    exact QString.isByteSpace_of_isSpace (QString.trimmedBy_last hc)

/-- A carried id is read back from its section line. -/
theorem sectionGroup_carried {id : Text} (h : Carried id) (htrim : Trimmed id) :
    Ini.sectionGroup (providerPrefix ++ (id ++ [']']))
      = groupOfId id ++ ['/'] := by
  have hwhole : id.takeWhile (fun c => c != ']') = id := by
    refine List.takeWhile_eq_self_iff.2 fun c hc => ?_
    rw [bne_iff_ne]
    rintro rfl
    exact h.noBracket hc
  have hlower : ∀ word : Text, word.head? ≠ some 'm' →
      (providerPrefix ++ id).map Char.toLower ≠ word := by
    rintro word hword rfl
    exact hword rfl
  have hgeneral := hlower "general".toList (by decide)
  have hpercent := hlower "%general".toList (by decide)
  unfold Ini.sectionGroup
  simp only [takeWhile_section, hwhole, trimmed_section htrim,
    Ini.unescapedKey_append prefix_unescaped, h.noEscape]
  rw [if_neg hgeneral, if_neg hpercent]
  rfl

/-- The section line of a carried id is a line of its own. -/
theorem sectionLine_plain {id : Text} (h : Carried id) :
    PlainLine (sectionLine id) where
  compatible := by
    have hopen : ∀ cs : Text, compatibleIni true ('[' :: cs)
        = '[' :: compatibleIni false cs := fun cs => rfl
    rw [sectionLine_eq, hopen, compatibleIni_inside noFeed,
      compatibleIni_bracket, h.noComment]
  run := by
    rw [sectionLine_eq, Ini.run_cons]
    refine ⟨.plain, rfl, Ini.run_append.2
      ⟨.plain, Ini.run_ordinary prefix_isOrdinary, ?_⟩⟩
    exact Ini.run_append.2 ⟨.plain, h.oneLine, rfl⟩

/-- The line of a section begins with its bracket. -/
theorem dropWhile_section (id : Text) :
    (sectionLine id).dropWhile Ini.isBlank
      = '[' :: (providerPrefix ++ (id ++ [']'])) := by
  rw [sectionLine_eq]
  rfl

/-- Reading the section line of a carried id. -/
theorem readLine_section {id : Text} (h : Carried id) (htrim : Trimmed id)
    (settings : Ini.Settings) :
    Ini.readLine settings (sectionLine id) =
      { settings with group := groupOfId id ++ ['/'] } := by
  have hbracket : ']' ∈ providerPrefix ++ (id ++ [']']) := by simp
  unfold Ini.readLine
  simp only [dropWhile_section, sectionGroup_carried h htrim, hbracket,
    decide_true, Bool.and_true]

/-- It opens the group of its id. -/
theorem openedGroup_section {id : Text} (h : Carried id) (htrim : Trimmed id) :
    Ini.openedGroup (sectionLine id) = some (groupOfId id ++ ['/']) := by
  unfold Ini.openedGroup
  simp only [dropWhile_section, sectionGroup_carried h htrim]

-- ====================================================== carried catalogues

/-- The texts of a provider, under their keys. -/
def fields (provider : MapProvider) : List (String × Text) :=
  [ ("name", provider.name),
    ("url", provider.urlTemplate),
    ("min_zoom", QString.number provider.minimumZoom),
    ("max_zoom", QString.number provider.maximumZoom),
    ("enabled", boolText provider.enabled),
    ("remote_fetch_enabled", boolText provider.remoteFetchEnabled) ]
  ++ (if provider.coverage = [] then []
    else [("coverage", provider.coverage)])

/-- The entries of a provider, in the order of its lines. -/
def blockEntries (provider : MapProvider) : List (Text × Ini.Value) :=
  (fields provider).map fun field =>
    (groupOfId provider.id ++ '/' :: field.1.toList, .text field.2)

/-- Reading the lines behind the section line of a provider. -/
theorem read_valueLines {provider : MapProvider} {settings : Ini.Settings}
    (h : settings.group = groupOfId provider.id ++ ['/']) :
    (valueLines provider).foldl Ini.readLine settings =
      { settings with
        entries := (blockEntries provider).reverse ++ settings.entries } := by
  have hnil : ∀ s : Ini.Settings, Ini.readLine s [] = s := fun s => rfl
  have hkey : ∀ key : String, groupOfId provider.id ++ ['/'] ++ key.toList
      = groupOfId provider.id ++ '/' :: key.toList := by
    intro key
    rw [List.append_assoc, List.singleton_append]
  unfold valueLines blockEntries fields
  split
  · simp only [List.append_nil, List.map_cons, List.map_nil, List.cons_append,
      List.nil_append, List.foldl_cons, List.foldl_nil,
      isKey_name.readLine, isKey_url.readLine, isKey_minZoom.readLine,
      isKey_maxZoom.readLine, isKey_enabled.readLine, isKey_remote.readLine,
      unescapedValue_quoted, (isWord_number _).unescapedValue,
      (isWord_boolText _).unescapedValue, hnil, h, hkey,
      List.reverse_cons, List.reverse_nil]
  · simp only [List.map_cons, List.map_nil, List.cons_append,
      List.nil_append, List.foldl_cons, List.foldl_nil,
      isKey_name.readLine, isKey_url.readLine, isKey_minZoom.readLine,
      isKey_maxZoom.readLine, isKey_enabled.readLine, isKey_remote.readLine,
      isKey_coverage.readLine,
      unescapedValue_quoted, (isWord_number _).unescapedValue,
      (isWord_boolText _).unescapedValue, hnil, h, hkey,
      List.reverse_cons, List.reverse_nil]

/-- The lines of a provider. -/
def blockLines (provider : MapProvider) : List Text :=
  sectionLine provider.id :: valueLines provider

/-- The last lines of a file. -/
def trailerLines : List Text :=
  ["[map_providers]".toList, "configured=true".toList]

/-- The lines behind the blocks of the providers are read one by one. -/
theorem trailerLines_plain : ∀ line ∈ trailerLines, PlainLine line := by
  intro line hline
  simp only [trailerLines, List.mem_cons, List.not_mem_nil, or_false] at hline
  rcases hline with rfl | rfl
  · exact ⟨by decide, by decide⟩
  · exact ⟨by decide, by decide⟩

/-- The file behind its first line. -/
theorem saveMapProvidersToState_eq (providers : List MapProvider) :
    saveMapProvidersToState providers
      = "; Map providers managed by the map server API.".toList
        ++ '\n' :: fileText (providers.flatMap blockLines ++ trailerLines) := by
  have hsave : saveMapProvidersToState providers
      = fileText (stateLines providers) := rfl
  rw [hsave, stateLines, List.cons_append, fileText_cons]
  rfl

/-- What is read of the file behind its first line, which is a comment. -/
theorem scan_header (rest : Text) :
    Ini.scan .plain [] (compatibleIni true
      ("; Map providers managed by the map server API.".toList
        ++ '\n' :: rest))
      = [] :: Ini.scan .plain [] (compatibleIni true rest) := by
  rw [compatibleIni_append]
  rfl

/-- When its ids are carried, a file is read line by line, as it was
written. -/
theorem scan_file {providers : List MapProvider}
    (hclean : ∀ provider ∈ providers, Clean provider)
    (hcarried : ∀ provider ∈ providers, Carried provider.id) :
    Ini.scan .plain [] (compatibleIni true
        (saveMapProvidersToState providers))
      = [] :: (providers.flatMap blockLines ++ trailerLines ++ [[]]) := by
  have hplain : ∀ line ∈ providers.flatMap blockLines ++ trailerLines,
      PlainLine line := by
    intro line hline
    rcases List.mem_append.1 hline with hline | hline
    · obtain ⟨provider, hprovider, hline⟩ := List.mem_flatMap.1 hline
      rcases List.mem_cons.1 hline with rfl | hline
      · exact sectionLine_plain (hcarried provider hprovider)
      · exact valueLines_plain (hclean provider hprovider) line hline
    · exact trailerLines_plain line hline
  have hlines := scan_plainLines hplain []
  rw [List.append_nil] at hlines
  rw [saveMapProvidersToState_eq, scan_header, hlines]
  rfl

/-- They set the marker that the catalogue is configured. -/
theorem readLine_marker (settings : Ini.Settings) :
    trailerLines.foldl Ini.readLine settings =
      { settings with
        group := "map_providers/".toList
        entries := ("map_providers/configured".toList, .text "true".toList)
          :: settings.entries } := by
  have hsection : ∀ s : Ini.Settings, Ini.readLine s "[map_providers]".toList
      = { s with group := "map_providers/".toList } := by
    intro s
    have hname : Ini.sectionGroup "map_providers]".toList
        = "map_providers/".toList := by decide
    have hdrop : "[map_providers]".toList.dropWhile Ini.isBlank
        = '[' :: "map_providers]".toList := by decide
    have hbracket : ']' ∈ "map_providers]".toList := by decide
    unfold Ini.readLine
    simp only [hdrop, hname, hbracket, decide_true, Bool.and_true]
  have hline : "configured=true".toList
      = keyLine "configured" "true".toList := by decide
  have hvalue : Ini.unescapedValue "true".toList
      = .text "true".toList := (isWord_boolText true).unescapedValue
  have hpath : "map_providers/".toList ++ "configured".toList
      = "map_providers/configured".toList := by decide
  rw [trailerLines, List.foldl_cons, List.foldl_cons, List.foldl_nil, hsection,
    hline, isKey_configured.readLine, hvalue, hpath]

/-- What the file of a catalogue is read as, when its ids are carried. -/
theorem stateSettings_carried {providers : List MapProvider}
    (hclean : ∀ provider ∈ providers, Clean provider)
    (hcarried : ∀ provider ∈ providers, Carried provider.id)
    (htrim : ∀ provider ∈ providers, Trimmed provider.id) :
    stateSettings (saveMapProvidersToState providers) =
      { group := "map_providers/".toList
        entries := ("map_providers/configured".toList, .text "true".toList)
          :: (providers.flatMap blockEntries).reverse
        wellFormed := true } := by
  have hblocks : ∀ (ps : List MapProvider) (settings : Ini.Settings),
      (∀ p ∈ ps, Carried p.id ∧ Trimmed p.id) →
      ((ps.flatMap blockLines).foldl Ini.readLine settings).entries
          = (ps.flatMap blockEntries).reverse ++ settings.entries ∧
        ((ps.flatMap blockLines).foldl Ini.readLine settings).wellFormed
          = settings.wellFormed := by
    intro ps
    induction ps with
    | nil => exact fun settings _ => ⟨rfl, rfl⟩
    | cons p ps ih =>
        intro settings hps
        obtain ⟨hp, htrimp⟩ := hps p List.mem_cons_self
        obtain ⟨hentries, hformed⟩ := ih
          { settings with
            group := groupOfId p.id ++ ['/']
            entries := (blockEntries p).reverse ++ settings.entries }
          fun q hq => hps q (List.mem_cons_of_mem p hq)
        rw [List.flatMap_cons, List.foldl_append, blockLines, List.foldl_cons,
          readLine_section hp htrimp, read_valueLines rfl, hentries, hformed,
          List.flatMap_cons, List.reverse_append, List.append_assoc]
        exact ⟨rfl, rfl⟩
  have hempty : ∀ s : Ini.Settings, Ini.readLine s [] = s := fun s => rfl
  obtain ⟨hentries, hformed⟩ := hblocks providers {} fun p hp =>
    ⟨hcarried p hp, htrim p hp⟩
  rw [stateSettings, Ini.readText, scan_file hclean hcarried, List.foldl_cons,
    hempty, List.foldl_append, List.foldl_append, readLine_marker,
    List.foldl_cons, List.foldl_nil, hempty, hentries, hformed]
  simp only [List.append_nil]

end AowisMap.Server.Catalogue
