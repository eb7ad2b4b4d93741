/-
Where the sections of a saved catalogue are read from, whatever its ids
hold.

# Places

The file is a list of written lines (`written`); those of the values hold
no line end. So a line that is read begins where one was written, or
behind a line end inside an id (`Place`, `place_of_start`).

# Sections

A section is then read from the section line of a provider, from inside
an id, or from the marker (`section_of_place`). What is read from inside an
id is shorter than the id.
-/
import AowisMap.Server.Proofs.Restart

namespace AowisMap.Server.Catalogue

open Lib

variable {qt : Qt} {profiles : List Text} {providers : List MapProvider}

-- ======================================================= written lines

/-- The first line of a file. -/
def headerLine : Text := "; Map providers managed by the map server API.".toList

/-- The lines of a provider, as `compatibleIni` leaves them. -/
def writtenBlock (provider : MapProvider) : List Text :=
  sectionLine (compatibleIni false provider.id) :: valueLines provider

/-- The lines of a file, as `compatibleIni` leaves them. -/
def written (providers : List MapProvider) : List Text :=
  headerLine :: (providers.flatMap writtenBlock ++ trailerLines)

/-- The compatibility pass works on each line by itself. -/
theorem compatibleIni_fileText (lines : List Text) :
    compatibleIni true (fileText lines)
      = fileText (lines.map (compatibleIni true)) := by
  induction lines with
  | nil => rfl
  | cons line lines ih =>
      rw [fileText_cons, compatibleIni_append, ih, List.map_cons, fileText_cons]

/-- It keeps the brackets of a section and looks at the name in them. -/
theorem compatibleIni_sectionLine (id : Text) :
    compatibleIni true (sectionLine id)
      = sectionLine (compatibleIni false id) := by
  have hopen : ∀ cs : Text, compatibleIni true ('[' :: cs)
      = '[' :: compatibleIni false cs := fun cs => rfl
  rw [sectionLine_eq, sectionLine_eq, hopen, compatibleIni_inside noFeed,
    compatibleIni_bracket]

/-- What is read is the written lines. -/
theorem compatible_file (hclean : ∀ provider ∈ providers, Clean provider) :
    compatibleIni true (saveMapProvidersToState providers)
      = fileText (written providers) := by
  have hplain : ∀ lines : List Text, (∀ line ∈ lines, PlainLine line) →
      lines.map (compatibleIni true) = lines := by
    intro lines hlines
    exact (List.map_congr_left fun line hline =>
      (hlines line hline).compatible).trans (List.map_id lines)
  have hblocks : (providers.flatMap blockLines).map (compatibleIni true)
      = providers.flatMap writtenBlock := by
    rw [List.map_flatMap]
    refine List.flatMap_congr fun provider hprovider => ?_
    rw [blockLines, List.map_cons, compatibleIni_sectionLine, hplain _
      (valueLines_plain (hclean provider hprovider))]
    rfl
  have hheader : compatibleIni true headerLine = headerLine := by decide
  have hsave : saveMapProvidersToState providers = fileText
      (headerLine :: (providers.flatMap blockLines ++ trailerLines)) := by
    rw [saveMapProvidersToState_eq, fileText_cons]
    rfl
  rw [hsave, compatibleIni_fileText, List.map_cons, List.map_append, hblocks,
    hplain _ trailerLines_plain, hheader]
  rfl

/-- A place in a file is between two lines, or behind the first character
of one. -/
theorem fileText_split {before ds : Text} {lines : List Text}
    (h : before ++ ds = fileText lines) :
    (∃ front back, lines = front ++ back ∧ before = fileText front ∧
      ds = fileText back) ∨
    ∃ front line back cs es, lines = front ++ line :: back ∧
      line = cs ++ es ∧ cs ≠ [] ∧ before = fileText front ++ cs ∧
      ds = es ++ '\n' :: fileText back := by
  induction lines generalizing before with
  | nil =>
      obtain ⟨rfl, rfl⟩ := List.append_eq_nil_iff.1 h
      exact Or.inl ⟨[], [], rfl, rfl, rfl⟩
  | cons line lines ih =>
      have hwhole := h
      rw [fileText_cons] at h
      rcases List.append_eq_append_iff.1 h with
        ⟨es, hline, hds⟩ | ⟨cs, hbefore, hrest⟩
      · by_cases hnil : before = []
        · subst hnil
          exact Or.inl ⟨[], line :: lines, rfl, rfl, hwhole⟩
        · exact Or.inr ⟨[], line, lines, before, es, rfl, hline, hnil, rfl, hds⟩
      · cases cs with
        | nil =>
            rw [List.append_nil] at hbefore
            subst hbefore
            by_cases hnil : before = []
            · subst hnil
              exact Or.inl ⟨[], [] :: lines, rfl, rfl, hwhole⟩
            · exact Or.inr ⟨[], before, lines, before, [], rfl,
                (List.append_nil _).symm, hnil, rfl, hrest.symm⟩
        | cons c cs =>
            rw [List.cons_append] at hrest
            obtain ⟨rfl, htail⟩ := List.cons.inj hrest
            rcases ih htail.symm with
              ⟨front, back, rfl, rfl, rfl⟩
              | ⟨front, other, back, ds', es, rfl, rfl, hne, rfl, rfl⟩
            · refine Or.inl ⟨line :: front, back, rfl, ?_, rfl⟩
              rw [hbefore, fileText_cons]
            · refine Or.inr ⟨line :: front, _, back, ds', es, rfl, rfl, hne,
                ?_, rfl⟩
              rw [hbefore, fileText_cons, List.append_assoc, List.cons_append]

/-- A line among those of several lists is in one of them. -/
theorem flatMap_split {ps : List MapProvider} {f : MapProvider → List Text}
    {tail front back : List Text} {line : Text}
    (h : ps.flatMap f ++ tail = front ++ line :: back) :
    (∃ qs p rs lines later, ps = qs ++ p :: rs ∧ f p = lines ++ line :: later ∧
      front = qs.flatMap f ++ lines ∧
      back = later ++ (rs.flatMap f ++ tail)) ∨
    ∃ lines, tail = lines ++ line :: back ∧ front = ps.flatMap f ++ lines := by
  induction ps generalizing front with
  | nil => exact Or.inr ⟨front, h, rfl⟩
  | cons p ps ih =>
      rw [List.flatMap_cons, List.append_assoc] at h
      rcases List.append_eq_append_iff.1 h with
        ⟨lines, hfront, hrest⟩ | ⟨lines, hp, hrest⟩
      · rcases ih hrest with
          ⟨qs, q, rs, ls, later, rfl, hq, rfl, hback⟩ | ⟨ls, htail, rfl⟩
        · refine Or.inl ⟨p :: qs, q, rs, ls, later, rfl, hq, ?_, hback⟩
          rw [hfront, List.flatMap_cons, List.append_assoc]
        · refine Or.inr ⟨ls, htail, ?_⟩
          rw [hfront, List.flatMap_cons, List.append_assoc]
      · cases lines with
        | nil =>
            rw [List.append_nil] at hp
            rcases @ih [] hrest.symm with
              ⟨qs, q, rs, ls, later, rfl, hq, hnil, hback⟩ | ⟨ls, htail, hnil⟩
            · refine Or.inl ⟨p :: qs, q, rs, ls, later, rfl, hq, ?_, hback⟩
              rw [← hp, List.flatMap_cons, List.append_assoc, ← hnil,
                List.append_nil]
            · refine Or.inr ⟨ls, htail, ?_⟩
              rw [← hp, List.flatMap_cons, List.append_assoc, ← hnil,
                List.append_nil]
        | cons first lines =>
            rw [List.cons_append] at hrest
            obtain ⟨rfl, hback⟩ := List.cons.inj hrest
            exact Or.inl ⟨[], p, ps, front, lines, rfl, hp, rfl, hback⟩

-- ============================================================== places

/-- The file before the section line of the provider behind `ps`. -/
def openingText (ps : List MapProvider) : Text :=
  fileText (headerLine :: ps.flatMap writtenBlock)

/-- Where a line can begin: what is before it in the file, and behind. -/
inductive Place (providers : List MapProvider) : Text → Text → Prop
  | header : Place providers [] (fileText (written providers))
  | opening {ps qs : List MapProvider} {p : MapProvider} (rest : Text) :
      providers = ps ++ p :: qs → Place providers (openingText ps)
        (sectionLine (compatibleIni false p.id) ++ '\n' :: rest)
  | inside {ps qs : List MapProvider} {p : MapProvider} {cs es : Text}
      (rest : Text) : providers = ps ++ p :: qs →
      compatibleIni false p.id = cs ++ es → cs ≠ [] → Place providers
        (openingText ps ++ '[' :: (providerPrefix ++ cs))
        (es ++ ']' :: '\n' :: rest)
  | value {ps qs : List MapProvider} {p : MapProvider} {lines later : List Text}
      {line : Text} (rest : Text) : providers = ps ++ p :: qs →
      valueLines p = lines ++ line :: later → Place providers
        (openingText ps ++ fileText
          (sectionLine (compatibleIni false p.id) :: lines))
        (line ++ '\n' :: rest)
  | trailer {lines later : List Text} {line : Text} :
      trailerLines = lines ++ line :: later → Place providers
        (openingText providers ++ fileText lines)
        (line ++ '\n' :: fileText later)
  | finish : Place providers (fileText (written providers)) []

/-- A text without line ends. -/
def NoEnd (cs : Text) : Prop := ∀ c ∈ cs, c ≠ '\n' ∧ c ≠ '\r'

/-- A text without line ends behind another one. -/
theorem NoEnd.append {cs ds : Text} (hcs : NoEnd cs) (hds : NoEnd ds) :
    NoEnd (cs ++ ds) := by
  intro c hc
  rcases List.mem_append.1 hc with hc | hc
  · exact hcs c hc
  · exact hds c hc

/-- The test, character by character. -/
theorem NoEnd.of_all {cs : Text}
    (h : cs.all (fun c => c != '\n' && c != '\r') = true) : NoEnd cs := by
  intro c hc
  simpa using List.all_eq_true.1 h c hc

/-- Quoting puts no line end into a text. -/
theorem noEnd_quoted {value : Text} (h : NoEnd value) :
    NoEnd (iniQuotedValue value) := by
  have hcharacter : ∀ c ∈ value, NoEnd (iniQuotedCharacter c) := by
    intro c hc
    unfold iniQuotedCharacter
    split
    · intro d hd
      rcases List.mem_cons.1 hd with rfl | hd
      · exact ⟨by decide, by decide⟩
      · rw [List.mem_singleton.1 hd]
        exact h c hc
    · split
      · exact NoEnd.of_all (by decide)
      · intro d hd
        rw [List.mem_singleton.1 hd]
        exact h c hc
  have hat : NoEnd (if value.head? = some '@' then ['@'] else []) := by
    split
    · exact NoEnd.of_all (by decide)
    · exact NoEnd.of_all rfl
  have hbody : NoEnd (value.flatMap iniQuotedCharacter) := by
    intro c hc
    obtain ⟨d, hd, hc⟩ := List.mem_flatMap.1 hc
    exact hcharacter d hd c hc
  have hquote : NoEnd ['"'] := NoEnd.of_all (by decide)
  exact (hquote.append (hat.append hbody)).append hquote

/-- A word has none. -/
theorem IsWord.noEnd {cs : Text} (h : IsWord cs) : NoEnd cs :=
  fun c hc => ⟨wordChar_ne (h c hc) rfl, wordChar_ne (h c hc) rfl⟩

/-- Nor has the line of a key with such a value. -/
theorem IsKey.noEnd {key : String} (h : IsKey key) {value : Text}
    (hvalue : NoEnd value) : NoEnd (keyLine key value) := by
  have hequals : NoEnd ['='] := NoEnd.of_all (by decide)
  have happend := h.word.noEnd.append (hequals.append hvalue)
  exact happend

/-- A provider whose texts have no line ends. -/
structure OneLine (provider : MapProvider) : Prop where
  name : NoEnd provider.name
  urlTemplate : NoEnd provider.urlTemplate
  coverage : NoEnd provider.coverage

/-- The settings of a sound provider stand in one line each. -/
theorem Sound.oneLine {provider : MapProvider}
    (h : Sound qt profiles provider) (hreturn : '\r' ∉ provider.coverage) :
    OneLine provider := by
  have hboth : ∀ {cs : Text}, '\n' ∉ cs → '\r' ∉ cs → NoEnd cs := by
    intro cs hfeed hreturn c hc
    exact ⟨fun heq => hfeed (heq ▸ hc), fun heq => hreturn (heq ▸ hc)⟩
  exact
    { name := hboth h.clean.name h.noReturn.1
      urlTemplate := hboth h.clean.urlTemplate h.noReturn.2
      coverage := hboth h.clean.coverage hreturn }

/-- The lines of the values hold no line ends. -/
theorem valueLines_noEnd {provider : MapProvider} (h : OneLine provider) :
    ∀ line ∈ valueLines provider, NoEnd line := by
  intro line hline
  simp only [valueLines, List.mem_append, List.mem_cons, List.not_mem_nil,
    or_false] at hline
  rcases hline with (hline | hline) | rfl
  · rcases hline with rfl | rfl | rfl | rfl | rfl | rfl
    · exact isKey_name.noEnd (noEnd_quoted h.name)
    · exact isKey_url.noEnd (noEnd_quoted h.urlTemplate)
    · exact isKey_minZoom.noEnd (isWord_number _).noEnd
    · exact isKey_maxZoom.noEnd (isWord_number _).noEnd
    · exact isKey_enabled.noEnd (isWord_boolText _).noEnd
    · exact isKey_remote.noEnd (isWord_boolText _).noEnd
  · split at hline
    · cases hline
    · rw [List.mem_singleton.1 hline]
      exact isKey_coverage.noEnd (noEnd_quoted h.coverage)
  · exact NoEnd.of_all rfl

/-- A part of a section line that ends at a line end goes into the id. -/
theorem inside_sectionLine {id cs es : Text}
    (h : sectionLine id = cs ++ es) {c : Char} (hlast : cs.getLast? = some c)
    (hend : c = '\n' ∨ c = '\r') :
    ∃ ds fs, id = ds ++ fs ∧ ds ≠ [] ∧
      cs = '[' :: (providerPrefix ++ ds) ∧ es = fs ++ [']'] := by
  have hnot : ∀ {ds : Text}, NoEnd ds → c ∉ ds := by
    intro ds hds hc
    obtain ⟨hfeed, hreturn⟩ := hds c hc
    rcases hend with heq | heq
    · exact hfeed heq
    · exact hreturn heq
  have hopen : NoEnd ('[' :: providerPrefix) := NoEnd.of_all (by decide)
  have hmem : c ∈ cs := List.mem_of_getLast? hlast
  rw [sectionLine_eq, ← List.cons_append] at h
  rcases List.append_eq_append_iff.1 h with
    ⟨ds, rfl, hrest⟩ | ⟨ds, hcs, -⟩
  · have hne : ds ≠ [] := by
      rintro rfl
      rw [List.append_nil] at hmem
      exact hnot hopen hmem
    rw [List.getLast?_append_of_ne_nil _ hne] at hlast
    rcases List.append_eq_append_iff.1 hrest with
      ⟨fs, rfl, hfs⟩ | ⟨fs, rfl, rfl⟩
    · cases fs with
      | nil =>
          refine ⟨id, [], (List.append_nil id).symm, by simpa using hne, ?_,
            hfs.symm⟩
          rw [List.append_nil]
          rfl
      | cons f fs =>
          -- the closing bracket is no line end
          obtain ⟨rfl, hnil⟩ := List.cons.inj hfs
          obtain ⟨rfl, -⟩ := List.append_eq_nil_iff.1 hnil.symm
          rw [List.getLast?_concat, Option.some.injEq] at hlast
          rcases hend with rfl | rfl
          · cases hlast
          · cases hlast
    · exact ⟨ds, fs, rfl, hne, rfl, rfl⟩
  · rw [hcs] at hopen
    exact absurd hmem (hnot fun d hd => hopen d (List.mem_append_left _ hd))

/-- The text of the providers in front, and what follows them. -/
theorem openingText_append (ps : List MapProvider) (lines : List Text) :
    fileText (headerLine :: (ps.flatMap writtenBlock ++ lines))
      = openingText ps ++ fileText lines := by
  rw [openingText, ← List.cons_append, fileText_append]

/-- Lines begin at places. -/
theorem place_of_start (hline : ∀ provider ∈ providers, OneLine provider)
    {before ds : Text} (hstart : Ini.IsStart before)
    (h : before ++ ds = fileText (written providers)) :
    Place providers before ds := by
  rcases fileText_split h with
    ⟨front, back, hwritten, rfl, rfl⟩
    | ⟨front, line, back, cs, es, hwritten, hsplit, hne, rfl, rfl⟩
  · cases back with
    | nil =>
        rw [List.append_nil] at hwritten
        rw [← hwritten]
        exact .finish
    | cons line back =>
        cases front with
        | nil =>
            rw [List.nil_append] at hwritten
            rw [← hwritten]
            exact .header
        | cons first front =>
            obtain ⟨rfl, htail⟩ := List.cons.inj hwritten
            rw [fileText_cons line back]
            rcases flatMap_split htail with
              ⟨qs, p, rs, lines, later, hps, hblock, rfl, rfl⟩
              | ⟨lines, htrailer, rfl⟩
            · rw [openingText_append]
              cases lines with
              | nil =>
                  obtain ⟨rfl, rfl⟩ := List.cons.inj hblock
                  have hopening := Place.opening (fileText
                    (valueLines p ++ (rs.flatMap writtenBlock
                      ++ trailerLines))) hps
                  simpa [fileText] using hopening
              | cons first lines =>
                  obtain ⟨rfl, hvalues⟩ := List.cons.inj hblock
                  exact .value _ hps hvalues
            · rw [openingText_append]
              exact .trailer htrailer
  · -- a line end inside a line is one inside an id
    obtain ⟨c, hlast⟩ : ∃ c, cs.getLast? = some c :=
      ⟨_, List.getLast?_eq_some_getLast hne⟩
    have hend := hstart.last (c := c) (by
      rw [List.getLast?_append_of_ne_nil _ hne, hlast])
    have hmem : c ∈ line := by
      rw [hsplit]
      exact List.mem_append_left _ (List.mem_of_getLast? hlast)
    have hnot : ¬ NoEnd line := by
      intro hnoEnd
      obtain ⟨hfeed, hreturn⟩ := hnoEnd c hmem
      rcases hend with heq | heq
      · exact hfeed heq
      · exact hreturn heq
    cases front with
    | nil =>
        obtain ⟨rfl, -⟩ := List.cons.inj hwritten
        exact absurd (NoEnd.of_all (by decide)) hnot
    | cons first front =>
        obtain ⟨rfl, htail⟩ := List.cons.inj hwritten
        rcases flatMap_split htail with
          ⟨qs, p, rs, lines, later, hps, hblock, rfl, rfl⟩
          | ⟨lines, htrailer, rfl⟩
        · cases lines with
          | nil =>
              obtain ⟨rfl, rfl⟩ := List.cons.inj hblock
              obtain ⟨us, vs, hid, hus, rfl, rfl⟩ :=
                inside_sectionLine hsplit hlast hend
              rw [List.append_nil, ← openingText, List.append_assoc]
              exact .inside _ hps hid hus
          | cons first lines =>
              obtain ⟨rfl, hvalues⟩ := List.cons.inj hblock
              have hp : p ∈ providers := by simp [hps]
              have hin : line ∈ valueLines p := by simp [hvalues]
              exact absurd (valueLines_noEnd (hline p hp) line hin) hnot
        · have hin : line ∈ trailerLines := by simp [htrailer]
          have htrailerEnd : ∀ line ∈ trailerLines, NoEnd line := by
            intro other hother
            have hall : ∀ line ∈ trailerLines, line.all
                (fun c => c != '\n' && c != '\r') = true := by decide
            exact NoEnd.of_all (hall other hother)
          exact absurd (htrailerEnd line hin) hnot

-- ============================================================ sections

/-- What stands before the first closing bracket. -/
def rawName (cs : Text) : Text := cs.takeWhile fun c => c != ']'

/-- What stands behind the closing bracket is not part of the name. -/
theorem rawName_append {cs : Text} (h : ']' ∈ cs) (more : Text) :
    rawName (cs ++ more) = rawName cs := by
  induction cs with
  | nil => cases h
  | cons c cs ih =>
      unfold rawName at ih ⊢
      rw [List.cons_append, List.takeWhile_cons, List.takeWhile_cons]
      by_cases hc : c = ']'
      · rw [if_neg (by simp [hc]), if_neg (by simp [hc])]
      · rw [if_pos (by simp [hc]), if_pos (by simp [hc]), ih
          ((List.mem_cons.1 h).resolve_left (Ne.symm hc))]

/-- The bracket that is written ends the name at the latest. -/
theorem rawName_bracket (cs more : Text) :
    rawName (cs ++ ']' :: more) = rawName cs := by
  induction cs with
  | nil => simp [rawName]
  | cons c cs ih =>
      unfold rawName at ih ⊢
      rw [List.cons_append, List.takeWhile_cons, List.takeWhile_cons, ih]

/-- A text without a bracket is all name. -/
theorem rawName_front {cs : Text} (h : ']' ∉ cs) (more : Text) :
    rawName (cs ++ more) = cs ++ rawName more := by
  refine List.takeWhile_append_of_pos fun c hc => ?_
  rw [bne_iff_ne]
  rintro rfl
  exact h hc

/-- A name ends at the first bracket. -/
theorem rawName_split {cs : Text} (h : ']' ∈ cs) :
    ∃ tail, cs = rawName cs ++ ']' :: tail := by
  induction cs with
  | nil => cases h
  | cons c cs ih =>
      by_cases hc : c = ']'
      · exact ⟨cs, by simp [rawName, hc]⟩
      · obtain ⟨tail, htail⟩ := ih
          ((List.mem_cons.1 h).resolve_left (Ne.symm hc))
        refine ⟨tail, ?_⟩
        have hraw : rawName (c :: cs) = c :: rawName cs := by
          unfold rawName
          rw [List.takeWhile_cons, if_pos (by simp [hc])]
        rw [hraw, List.cons_append, ← htail]

/-- Without a bracket the name is the whole text. -/
theorem rawName_eq_self {cs : Text} (h : ']' ∉ cs) : rawName cs = cs := by
  have hraw := rawName_front h []
  simpa [rawName] using hraw

/-- A name is no longer than the text it is taken from. -/
theorem length_rawName_le (cs : Text) : (rawName cs).length ≤ cs.length :=
  (List.takeWhile_prefix _).length_le

/-- A line that opens a section begins with a bracket, after blanks. -/
theorem head_of_section {line cs ds : Text} {d : Char}
    (hdrop : line.dropWhile Ini.isBlank = '[' :: cs) (hline : line <+: d :: ds)
    (hd : Ini.isBlank d = false) : d = '[' ∧ line = '[' :: cs := by
  cases line with
  | nil => cases hdrop
  | cons c line =>
      obtain ⟨rfl, -⟩ := List.cons_prefix_cons.1 hline
      rw [List.dropWhile_cons, hd] at hdrop
      have hwhole : c :: line = '[' :: cs := hdrop
      exact ⟨(List.cons.inj hwhole).1, hwhole⟩

/-- Where a section is read from. -/
inductive Section (providers : List MapProvider) (before line raw : Text) : Prop
  | marker : raw = "map_providers".toList → Section providers before line raw
  | opening {ps qs : List MapProvider} {p : MapProvider} :
      providers = ps ++ p :: qs → before = openingText ps →
      raw = providerPrefix ++ rawName (compatibleIni false p.id) →
      (']' ∉ compatibleIni false p.id →
        sectionLine (compatibleIni false p.id) <+: line) →
      Section providers before line raw
  | inside {ps qs : List MapProvider} {p : MapProvider} {cs : Text} :
      providers = ps ++ p :: qs →
      before = openingText ps ++ '[' :: (providerPrefix ++ cs) → cs ≠ [] →
      cs <+: compatibleIni false p.id →
      raw.length < (compatibleIni false p.id).length →
      Section providers before line raw

/-- The names of the sections begin without one. -/
theorem prefix_bracket : ']' ∉ providerPrefix := by decide

/-- A section is read from a section line, or from inside an id. -/
theorem section_of_place {before ds line cs : Text}
    (hplace : Place providers before ds) (hline : line <+: ds)
    (hdrop : line.dropWhile Ini.isBlank = '[' :: cs) (hbracket : ']' ∈ cs) :
    Section providers before line (rawName cs) := by
  cases hplace with
  | header =>
      have hhead : fileText (written providers) = ';' ::
          (headerLine.tail ++ '\n' :: fileText
            (providers.flatMap writtenBlock ++ trailerLines)) :=
        fileText_cons _ _
      rw [hhead] at hline
      exact absurd (head_of_section hdrop hline rfl).1 (by decide)
  | @opening ps qs p rest hps =>
      have hds : sectionLine (compatibleIni false p.id) ++ '\n' :: rest
          = '[' :: (providerPrefix ++ (compatibleIni false p.id
            ++ ']' :: '\n' :: rest)) := by
        rw [sectionLine_eq]
        simp only [List.cons_append, List.append_assoc, List.nil_append]
      rw [hds] at hline
      obtain ⟨-, rfl⟩ := head_of_section hdrop hline rfl
      obtain ⟨more, hmore⟩ := (List.cons_prefix_cons.1 hline).2
      have hraw := rawName_append hbracket more
      rw [hmore, rawName_front prefix_bracket, rawName_bracket] at hraw
      refine .opening hps rfl hraw.symm fun hnone => ?_
      -- the line goes on to its first bracket, the last of the section line
      obtain ⟨tail, htail⟩ := rawName_split hbracket
      rw [← hraw, rawName_eq_self hnone] at htail
      refine ⟨tail, ?_⟩
      rw [sectionLine_eq, htail]
      simp only [List.cons_append, List.append_assoc, List.nil_append]
  | @inside ps qs p us es rest hps hid hne =>
      refine .inside hps rfl hne ⟨es, hid.symm⟩ ?_
      obtain ⟨more, hmore⟩ := hline
      have hblank : ']' ∉ line.takeWhile Ini.isBlank := by
        intro hmem
        exact absurd (List.mem_takeWhile_imp hmem) (by decide)
      have hsplit : line = line.takeWhile Ini.isBlank ++ '[' :: cs := by
        rw [← hdrop, List.takeWhile_append_dropWhile]
      have hraw := rawName_bracket es ('\n' :: rest)
      have hname : rawName ('[' :: cs ++ more) = '[' :: rawName cs := by
        have hfirst := @rawName_front ['['] (by decide) (cs ++ more)
        rwa [rawName_append hbracket] at hfirst
      rw [← hmore, hsplit, List.append_assoc, rawName_front hblank,
        hname] at hraw
      have hlength := congrArg List.length hraw
      have hle := length_rawName_le es
      have hpos := List.length_pos_of_ne_nil hne
      rw [List.length_append, List.length_cons] at hlength
      rw [hid, List.length_append]
      omega
  | @value ps qs p lines later line' rest hps hvalues =>
      rcases @mem_valueLines p line'
          (by rw [hvalues]; simp) with rfl | ⟨key, value, hkey, rfl, -⟩
      · exact absurd (head_of_section hdrop hline rfl).1 (by decide)
      · obtain ⟨c, ds, hwhole, hblank, hsection⟩ := hkey.first value
        rw [hwhole, List.cons_append] at hline
        exact absurd (head_of_section hdrop hline hblank).1 hsection
  | @trailer lines later line' htrailer =>
      have hmem : line' ∈ trailerLines := by rw [htrailer]; simp
      simp only [trailerLines, List.mem_cons, List.not_mem_nil, or_false]
        at hmem
      rcases hmem with rfl | rfl
      · have hmarker : "[map_providers]".toList
            = '[' :: ("map_providers".toList ++ [']']) := by decide
        have hnone : ']' ∉ "map_providers".toList := by decide
        rw [hmarker, List.cons_append, List.append_assoc] at hline
        obtain ⟨-, rfl⟩ := head_of_section hdrop hline rfl
        obtain ⟨more, hmore⟩ := (List.cons_prefix_cons.1 hline).2
        have hraw := rawName_append hbracket more
        rw [hmore, List.singleton_append, rawName_bracket,
          rawName_eq_self hnone] at hraw
        exact .marker hraw.symm
      · have hmarker : "configured=true".toList
            = 'c' :: "onfigured=true".toList := by decide
        rw [hmarker, List.cons_append] at hline
        exact absurd (head_of_section hdrop hline rfl).1 (by decide)
  | finish =>
      rw [List.prefix_nil.1 hline] at hdrop
      cases hdrop

end AowisMap.Server.Catalogue
