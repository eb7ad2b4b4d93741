/-
Which catalogues survive a restart.

# What survival needs

Every provider is loaded, so its group was opened by a section of the file
(`opened_of_survives`). Take a longest id that is not read from its own
section line: its section is no part of a shorter id, and the longer ids
are read from theirs, so its group is opened nowhere
(`presented_of_opened`). Hence every id is read from its section line, and
then its quotes are closed there: otherwise the line swallows the next
one, which is that of the name (`carried_of_presented`).

The last two steps need that no text of a value ends a line. The route
checks this of names and URLs, but of a coverage only that it has no line
feed.
-/
import AowisMap.Server.Proofs.Sections

namespace AowisMap.Server.Catalogue

open Lib

variable {qt : Qt} {profiles : List Text} {providers : List MapProvider}

-- ============================================================= loaded

/-- What is read comes from one of the groups. -/
theorem readProviders_mem {settings : Ini.Settings} {groups : List Text}
    {read loaded : List MapProvider}
    (h : readProviders qt profiles settings read groups = .ok loaded)
    {provider : MapProvider} (hprovider : provider ∈ loaded) :
    provider ∈ read ∨ ∃ group ∈ groups,
      readProvider qt profiles settings group = .ok provider := by
  induction groups generalizing read with
  | nil =>
      cases h
      exact Or.inl hprovider
  | cons group groups ih =>
      rw [readProviders] at h
      cases hread : readProvider qt profiles settings group with
      | error message =>
          rw [hread] at h
          cases h
      | ok first =>
          rw [hread] at h
          change (if (read.map MapProvider.id).contains first.id = true
            then Except.error _ else readProviders qt profiles settings
              (read ++ [first]) groups) = Except.ok loaded at h
          split at h
          · cases h
          rcases ih h with hold | ⟨other, hother, hok⟩
          · rcases List.mem_append.1 hold with hold | hlast
            · exact Or.inl hold
            · rw [List.mem_singleton.1 hlast]
              exact Or.inr ⟨group, List.mem_cons_self, hread⟩
          · exact Or.inr ⟨other, List.mem_cons_of_mem _ hother, hok⟩

theorem bind_ok {α β : Type} {x : Except Text α} {f : α → Except Text β}
    {b : β} (h : (x >>= f) = .ok b) : ∃ a, x = .ok a ∧ f a = .ok b := by
  cases x with
  | error message => cases h
  | ok a => exact ⟨a, rfl, h⟩

/-- The id and the name of a provider that was read. -/
theorem readProvider_ok {settings : Ini.Settings} {group : Text}
    {provider : MapProvider}
    (h : readProvider qt profiles settings group = .ok provider) :
    provider.id = storedId (group.drop 13) ∧
      readSingleString settings group "name"
        (knownProvider provider.id).name = .ok provider.name := by
  unfold readProvider at h
  simp only at h
  split at h
  · cases h
  obtain ⟨name, hname, h⟩ := bind_ok h
  obtain ⟨url, -, h⟩ := bind_ok h
  obtain ⟨coverage, -, h⟩ := bind_ok h
  obtain ⟨zooms, -, h⟩ := bind_ok h
  obtain ⟨enabled, -, h⟩ := bind_ok h
  obtain ⟨remote, -, h⟩ := bind_ok h
  split at h
  · cases h
    exact ⟨rfl, hname⟩
  · cases h

/-- A file that loads is well formed, and what it loads was read from its
groups. -/
theorem load_ok {path text : Text} {configured loaded : List MapProvider}
    (h : loadProviderStateFile qt profiles path (some text) configured
      = .ok loaded) :
    (stateSettings text).wellFormed = true ∧
      ∀ provider ∈ loaded, ∃ group ∈ (stateSettings text).childGroups,
        providerPrefix <+: group ∧
        readProvider qt profiles (stateSettings text) group = .ok provider := by
  unfold loadProviderStateFile at h
  simp only at h
  split at h
  · cases h
  split at h
  · cases h
  rename_i hformed
  split at h
  · cases h
  rename_i hconfigured
  rw [Bool.not_eq_false] at hformed hconfigured
  refine ⟨hformed, fun provider hprovider => ?_⟩
  rw [readMapProviderCatalog, if_pos (Or.inr hconfigured)] at h
  rcases readProviders_mem h hprovider with hnil | ⟨group, hgroup, hread⟩
  · cases hnil
  · obtain ⟨hchild, hpre⟩ := List.mem_filter.1 hgroup
    exact ⟨group, hchild, List.isPrefixOf_iff_prefix.1 hpre, hread⟩

-- ============================================================= groups

/-- The first 36 characters of an id are those of a UUID. -/
theorem uuid_noSlash {id : Text} (h : isNullUuid id = false)
    (hbrace : '{' ∉ id) : 36 ≤ id.length ∧ '/' ∉ id.take 36 := by
  have hhead : id.head? ≠ some '{' := by
    intro heq
    exact hbrace (List.mem_of_head? heq)
  unfold isNullUuid uuidDigits at h
  rw [if_neg hhead] at h
  simp only at h
  split at h
  · rename_i hdigits
    obtain ⟨hlength, hall⟩ := hdigits
    refine ⟨by rw [List.length_take] at hlength; omega, fun hmem => ?_⟩
    obtain ⟨i, hi, hslash⟩ := List.mem_iff_getElem.1 hmem
    have hin := List.all_eq_true.1 hall ('/', i) (by
      rw [List.mk_mem_zipIdx_iff_getElem?, ← hslash]
      exact List.getElem?_eq_getElem hi)
    simp only at hin
    split at hin
    · cases hin
    · cases hin
  · cases h

/-- What stands before the first slash of an id is no old name. -/
theorem storedId_takeWhile {id : Text} (h : isNullUuid id = false)
    (hbrace : '{' ∉ id) : storedId (id.takeWhile fun c => c != '/')
      = id.takeWhile fun c => c != '/' := by
  obtain ⟨hlength, hslash⟩ := uuid_noSlash h hbrace
  have hlong : 36 ≤ (id.takeWhile fun c => c != '/').length := by
    have hkeep : ∀ c ∈ id.take 36, (c != '/') = true := by
      intro c hc
      rw [bne_iff_ne]
      rintro rfl
      exact hslash hc
    have hsplit := congrArg (List.takeWhile fun c => c != '/')
      (List.take_append_drop 36 id)
    rw [List.takeWhile_append_of_pos hkeep] at hsplit
    rw [← hsplit, List.length_append, List.length_take]
    omega
  have hshort : ∀ name : Text, name.length < 36 →
      (id.takeWhile fun c => c != '/') ≠ name := by
    rintro name hname rfl
    omega
  unfold storedId
  rw [if_neg (hshort _ (by decide)), if_neg (hshort _ (by decide)),
    if_neg (hshort _ (by decide)), if_neg (hshort _ (by decide))]

/-- The group of a key of a provider, whatever its id holds. -/
theorem groupOf_any (id rest : Text) :
    Ini.groupOf (groupOfId id ++ '/' :: rest)
      = some (groupOfId (id.takeWhile fun c => c != '/')) := by
  have hend : ∀ cs : Text, (cs ++ '/' :: rest).takeWhile (fun c => c != '/')
      = cs.takeWhile fun c => c != '/' := by
    intro cs
    induction cs with
    | nil => simp
    | cons c cs ih => simp only [List.cons_append, List.takeWhile_cons, ih]
  rw [Ini.groupOf, if_pos (by simp), hend, groupOfId,
    List.takeWhile_append_of_pos prefix_noSlash]
  rfl

/-- The first line that is read behind the header opens a section. -/
theorem first_section (providers : List MapProvider) :
    ∃ first others group, Ini.scan .plain [] (compatibleIni true
        (saveMapProvidersToState providers)) = [] :: first :: others ∧
      Ini.openedGroup first = some group := by
  obtain ⟨cs, hcs⟩ : ∃ cs, fileText (providers.flatMap blockLines
      ++ trailerLines) = '[' :: cs := by
    cases providers with
    | nil => exact ⟨_, rfl⟩
    | cons p ps => exact ⟨_, rfl⟩
  have hopen : compatibleIni true ('[' :: cs)
      = '[' :: compatibleIni false cs := rfl
  obtain ⟨kept, others, hscan⟩ := Ini.scan_text .plain ['[']
    (compatibleIni false cs)
  refine ⟨'[' :: kept, others, _, ?_, rfl⟩
  have hkeep : Ini.advance .plain '[' = .keep .plain := rfl
  rw [saveMapProvidersToState_eq, scan_header, hcs, hopen,
    Ini.scan_keep hkeep]
  exact congrArg _ hscan

section Survives

variable (hsound : ∀ provider ∈ providers, Sound qt profiles provider)
  (h : Survives qt profiles providers)

include hsound h

/-- A provider was read from the part of an id before its first slash. -/
theorem read_of_survives {provider : MapProvider}
    (hprovider : provider ∈ providers) :
    ∃ other ∈ providers, ∃ rest,
      provider.id = other.id.takeWhile (fun c => c != '/') ∧
      (∃ entry ∈ (stateSettings (saveMapProvidersToState providers)).entries,
        entry.1 = groupOfId other.id ++ '/' :: rest) ∧
      readSingleString (stateSettings (saveMapProvidersToState providers))
        (groupOfId provider.id) "name" (knownProvider provider.id).name
          = .ok provider.name := by
  obtain ⟨loaded, hload, hmem⟩ := h.loads [] []
  obtain ⟨group, hchild, hpre, hread⟩ := (load_ok hload).2 provider
    ((hmem provider).2 hprovider)
  obtain ⟨entry, hentry, hgroup⟩ := Ini.mem_childGroups.1 hchild
  obtain ⟨hid, hname⟩ := readProvider_ok hread
  rcases h.keys entry hentry with hmarker | ⟨other, hother, key, -, hkey⟩
  · obtain ⟨rest, hrest⟩ := marker_group
    rw [hmarker, hrest, Ini.groupOf_append (by decide),
      Option.some.injEq] at hgroup
    rw [← hgroup] at hpre
    exact absurd hpre (by decide)
  · rw [hkey, groupOf_any, Option.some.injEq] at hgroup
    have hdrop : group.drop 13 = other.id.takeWhile fun c => c != '/' := by
      rw [← hgroup]
      exact List.drop_left' prefix_length
    have hotherSound := hsound other hother
    rw [hdrop, storedId_takeWhile hotherSound.uuid hotherSound.noBrace] at hid
    refine ⟨other, hother, key.toList, hid, ⟨entry, hentry, hkey⟩, ?_⟩
    rw [← hgroup, ← hid] at hname
    exact hname

/-- No id holds a slash. -/
theorem noSlash_of_survives {provider : MapProvider}
    (hprovider : provider ∈ providers) : '/' ∉ provider.id := by
  obtain ⟨other, -, -, hid, -⟩ := read_of_survives hsound h hprovider
  intro hmem
  rw [hid] at hmem
  exact absurd (List.mem_takeWhile_imp hmem) (by decide)

/-- A provider that is read has an entry in its group. -/
theorem entry_of_survives {provider : MapProvider}
    (hprovider : provider ∈ providers) :
    ∃ entry ∈ (stateSettings (saveMapProvidersToState providers)).entries,
      ∃ rest, entry.1 = groupOfId provider.id ++ '/' :: rest := by
  obtain ⟨other, hother, rest, hid, ⟨entry, hentry, hkey⟩, -⟩ :=
    read_of_survives hsound h hprovider
  have hwhole : other.id.takeWhile (fun c => c != '/') = other.id := by
    refine List.takeWhile_eq_self_iff.2 fun c hc => ?_
    rw [bne_iff_ne]
    rintro rfl
    exact noSlash_of_survives hsound h hother hc
  rw [hwhole] at hid
  exact ⟨entry, hentry, rest, hid ▸ hkey⟩

/-- An entry in the group of a provider was read while that group was
open. -/
theorem group_of_survives {provider : MapProvider}
    (hprovider : provider ∈ providers) {entry : Text × Ini.Value}
    (hentry : entry ∈ (stateSettings
      (saveMapProvidersToState providers)).entries) {rest : Text}
    (hkey : entry.1 = groupOfId provider.id ++ '/' :: rest) :
    ∃ before line later key value, Ini.scan .plain [] (compatibleIni true
        (saveMapProvidersToState providers)) = before ++ line :: later ∧
      (before.foldl Ini.readLine {}).group = groupOfId provider.id ++ ['/'] ∧
      Ini.openedGroup line = none ∧
      Ini.splitAtEquals .plain [] (line.dropWhile Ini.isBlank)
        = some (key, value) ∧
      Ini.unescapedKey 0 (Ini.trimmed key) = rest ∧
      groupOfId provider.id ++ ['/'] ∈ Ini.openedGroups (compatibleIni true
        (saveMapProvidersToState providers)) := by
  rcases Ini.foldl_entries hentry with
    hnil | ⟨before, line, later, key, value, hlines, hnone, hsplit, hfound⟩
  · cases hnil
  obtain ⟨opener, hopener, hopened⟩ : ∃ opener ∈ before,
      Ini.openedGroup opener
        = some (before.foldl Ini.readLine {}).group := by
    rcases Ini.foldl_group before {} with hopened | ⟨-, hnever⟩
    · exact hopened
    -- the line is not one of those before the first section
    exfalso
    obtain ⟨first, others, group, hfirst, hsection⟩ := first_section providers
    rw [hfirst] at hlines
    cases before with
    | nil =>
        obtain ⟨rfl, -⟩ := List.cons.inj hlines
        cases hsplit
    | cons header before =>
        have hrest := (List.cons.inj hlines).2
        cases before with
        | nil =>
            obtain ⟨rfl, -⟩ := List.cons.inj hrest
            rw [hsection] at hnone
            cases hnone
        | cons opener before =>
            obtain ⟨rfl, -⟩ := List.cons.inj hrest
            have hfirstNone := hnever first (by simp)
            rw [hsection] at hfirstNone
            cases hfirstNone
  have hin : (before.foldl Ini.readLine {}).group
      ∈ Ini.openedGroups (compatibleIni true
        (saveMapProvidersToState providers)) := by
    rw [Ini.openedGroups, List.mem_filterMap, hlines]
    exact ⟨opener, List.mem_append_left _ hopener, hopened⟩
  have hwhole := hkey.symm.trans hfound
  rcases h.groups _ hin with hmarker | ⟨other, hother, hgroup⟩
  · rw [hmarker] at hwhole
    have hdrop := congrArg (fun cs => cs[12]?) hwhole
    have hleft : (groupOfId provider.id ++ '/' :: rest)[12]? = some '.' := rfl
    have hright : ("map_providers/".toList ++ Ini.unescapedKey 0
        (Ini.trimmed key))[12]? = some 's' := by
      rw [List.getElem?_append_left (by decide)]
      decide
    rw [hleft, hright] at hdrop
    exact absurd hdrop (by decide)
  · rw [hgroup, List.append_assoc, List.singleton_append] at hwhole
    obtain ⟨hid, hrest⟩ := groupKey_inj
      (noSlash_of_survives hsound h hprovider)
      (noSlash_of_survives hsound h hother) hwhole
    rw [← hid] at hgroup
    exact ⟨before, line, later, key, value, hlines, hgroup, hnone, hsplit,
      hrest.symm, hgroup ▸ hin⟩

end Survives

-- ========================================================= presented ids

/-- The name of a section that opens the group of a provider. -/
theorem rawName_of_group {id cs : Text}
    (h : Ini.sectionGroup cs = groupOfId id ++ ['/']) :
    Ini.unescapedKey 0 (Ini.trimmed (rawName cs)) = groupOfId id := by
  have hlong : 13 ≤ (groupOfId id).length := by
    rw [groupOfId, List.length_append, prefix_length]
    omega
  unfold Ini.sectionGroup at h
  simp only at h
  split at h
  · have hlength := congrArg List.length h
    simp at hlength
  split at h
  · rename_i hname
    have hlength := congrArg List.length hname
    have htail := congrArg List.length (List.append_cancel_right h)
    have height : "%general".toList.length = 8 := by decide
    rw [List.length_map, height] at hlength
    rw [List.length_tail, hlength] at htail
    omega
  · exact List.append_cancel_right h

/-- It was written with at least as many characters. -/
theorem length_rawName {id cs : Text}
    (h : Ini.unescapedKey 0 (Ini.trimmed (rawName cs)) = groupOfId id) :
    13 + id.length ≤ (Ini.trimmed (rawName cs)).length ∧
      (Ini.trimmed (rawName cs)).length ≤ (rawName cs).length := by
  have hle := Ini.length_unescapedKey_le 0 (Ini.trimmed (rawName cs))
  rw [h, groupOfId, List.length_append, prefix_length] at hle
  exact ⟨hle, (QString.trimmedBy_sublist _).length_le⟩

/-- An id whose section is read from its own section line, on which it
stands in full. -/
structure Presented (providers : List MapProvider) (p : MapProvider) :
    Prop where
  noBracket : ']' ∉ p.id
  noBackslash : '\\' ∉ p.id
  noEscape : Ini.unescapedKey 0 p.id = p.id
  noComment : compatibleIni false p.id = p.id
  start : ∃ ps qs, providers = ps ++ p :: qs ∧ Ini.IsStart (openingText ps)
  run : ∃ mode, Ini.run .plain (sectionLine p.id) = some mode

/-- Ids tell where a provider stands in the list. -/
theorem split_unique {ps ps' qs qs' : List MapProvider} {p : MapProvider}
    (hids : ((ps ++ p :: qs).map MapProvider.id).Nodup)
    (h : ps ++ p :: qs = ps' ++ p :: qs') : ps = ps' := by
  have hnodup := hids.of_map
  have hnot : p ∉ ps := by
    intro hmem
    exact (List.nodup_append'.1 hnodup).2.2 hmem List.mem_cons_self
  have hnot' : p ∉ ps' := by
    intro hmem
    rw [h] at hnodup
    exact (List.nodup_append'.1 hnodup).2.2 hmem List.mem_cons_self
  rcases List.append_eq_append_iff.1 h with
    ⟨more, rfl, hrest⟩ | ⟨more, rfl, hrest⟩
  · cases more with
    | nil => exact (List.append_nil ps).symm
    | cons q more =>
        obtain ⟨rfl, -⟩ := List.cons.inj hrest
        exact absurd (List.mem_append_right ps List.mem_cons_self) hnot'
  · cases more with
    | nil => exact List.append_nil ps'
    | cons q more =>
        obtain ⟨rfl, -⟩ := List.cons.inj hrest
        exact absurd (List.mem_append_right ps' List.mem_cons_self) hnot

/-- Twice is once. -/
theorem compatibleIni_idem (start : Bool) (cs : Text) :
    compatibleIni start (compatibleIni start cs) = compatibleIni start cs := by
  induction cs generalizing start with
  | nil => rfl
  | cons c cs ih =>
      by_cases hfeed : c = '\n'
      · simp [compatibleIni, hfeed, ih]
      by_cases hblank : start = true ∧ (c = ' ' ∨ c = '\t')
      · simp [compatibleIni, hfeed, hblank, ih]
      by_cases hhash : start = true ∧ c = '#'
      · obtain ⟨rfl, rfl⟩ := hhash
        simp [compatibleIni, ih]
      · simp [compatibleIni, hfeed, hblank, hhash, ih]

theorem length_compatibleIni (start : Bool) (cs : Text) :
    (compatibleIni start cs).length = cs.length := by
  induction cs generalizing start with
  | nil => rfl
  | cons c cs ih =>
      unfold compatibleIni
      split
      · rw [List.length_cons, List.length_cons, ih]
      split
      · rw [List.length_cons, List.length_cons, ih]
      split
      · rw [List.length_cons, List.length_cons, ih]
      · rw [List.length_cons, List.length_cons, ih]

theorem ids_bounded (ps : List MapProvider) :
    ∃ bound, ∀ p ∈ ps, p.id.length ≤ bound := by
  induction ps with
  | nil => exact ⟨0, by simp⟩
  | cons p ps ih =>
      obtain ⟨bound, hbound⟩ := ih
      refine ⟨max p.id.length bound, fun q hq => ?_⟩
      rcases List.mem_cons.1 hq with rfl | hq
      · exact Nat.le_max_left _ _
      · exact Nat.le_trans (hbound q hq) (Nat.le_max_right _ _)

/-- A text that trimming leaves its length is trimmed. -/
theorem trimmed_of_length {cs : Text}
    (h : cs.length ≤ (Ini.trimmed cs).length) : Ini.trimmed cs = cs :=
  (QString.trimmedBy_sublist cs).eq_of_length_le h

/-- No line begins inside the id of a presented provider. -/
theorem Presented.not_inside {ps qs : List MapProvider} {q : MapProvider}
    (hids : (providers.map MapProvider.id).Nodup)
    (hpresented : Presented providers q) (hps : providers = ps ++ q :: qs)
    {us vs : Text} (hid : compatibleIni false q.id = us ++ vs) :
    ¬ Ini.IsStart (openingText ps ++ '[' :: (providerPrefix ++ us)) := by
  obtain ⟨ps', qs', hps', hopening⟩ := hpresented.start
  obtain ⟨mode, hfull⟩ := hpresented.run
  have hsame : ps = ps' := split_unique (hps ▸ hids) (hps.symm.trans hps')
  rw [hpresented.noComment] at hid
  have hsplit : sectionLine q.id
      = '[' :: (providerPrefix ++ us) ++ (vs ++ [']']) := by
    rw [sectionLine_eq, hid]
    simp only [List.cons_append, List.append_assoc]
  rw [hsplit, Ini.run_append] at hfull
  obtain ⟨mode₁, hfront, -⟩ := hfull
  have hlast := List.dropLast_append_getLast
    (List.cons_ne_nil '[' (providerPrefix ++ us))
  rw [← hlast] at hfront ⊢
  rw [hsame]
  exact hopening.not_inside hfront

section Presented

variable (hline : ∀ provider ∈ providers, OneLine provider)
  (hsound : ∀ provider ∈ providers, Sound qt profiles provider)
  (hids : (providers.map MapProvider.id).Nodup)
  (hslash : ∀ provider ∈ providers, '/' ∉ provider.id)
  (hformed : ∀ line ∈ Ini.scan .plain [] (fileText (written providers)),
    ∀ cs, line.dropWhile Ini.isBlank = '[' :: cs → ']' ∈ cs)

include hline hsound hids hslash hformed

/-- The section of an id is read from the section line of an id that was
written as it, if all longer ones are presented. -/
theorem section_of_opened {p : MapProvider} (hp : p ∈ providers)
    (hopened : groupOfId p.id ++ ['/']
      ∈ Ini.openedGroups (fileText (written providers)))
    (hlonger : ∀ q ∈ providers, p.id.length < q.id.length →
      Presented providers q) :
    ∃ ps q qs, providers = ps ++ q :: qs ∧ Ini.IsStart (openingText ps) ∧
      p.id = compatibleIni false q.id ∧ ']' ∉ p.id ∧ '\\' ∉ p.id ∧
      Ini.unescapedKey 0 p.id = p.id ∧
      ∃ mode, Ini.run .plain (sectionLine p.id) = some mode := by
  rw [Ini.openedGroups, List.mem_filterMap] at hopened
  obtain ⟨line, hmem, hgroup⟩ := hopened
  obtain ⟨lines, later, hlines⟩ := List.append_of_mem hmem
  obtain ⟨before, ds, hfile, hstart, hscan⟩ := Ini.scan_line hlines
  obtain ⟨hpre, mode, hrun⟩ := Ini.scan_first hscan
  obtain ⟨cs, hdrop, hsection⟩ : ∃ cs,
      line.dropWhile Ini.isBlank = '[' :: cs ∧
        Ini.sectionGroup cs = groupOfId p.id ++ ['/'] := by
    unfold Ini.openedGroup at hgroup
    split at hgroup
    · rename_i cs hdrop
      exact ⟨cs, hdrop, Option.some.inj hgroup⟩
    · cases hgroup
  have hname := rawName_of_group hsection
  obtain ⟨hlong, htrim⟩ := length_rawName hname
  have hplace := place_of_start hline hstart hfile.symm
  generalize hraw : rawName cs = raw at hname hlong htrim
  have hread := section_of_place hplace hpre hdrop (hformed line hmem cs hdrop)
  rw [hraw] at hread
  cases hread with
  | marker hmarker =>
      -- the name of the marker is not that of a provider
      have hwhole : Ini.unescapedKey 0 (Ini.trimmed raw)
          = "map_providers".toList := by
        rw [hmarker]
        decide
      rw [hname] at hwhole
      have hchar := congrArg (fun cs => cs[12]?) hwhole
      have hleft : (groupOfId p.id)[12]? = some '.' := rfl
      have hright : "map_providers".toList[12]? = some 's' := by decide
      rw [hleft, hright] at hchar
      exact absurd hchar (by decide)
  | @inside ps qs q us hps hbefore hne hus hshort =>
      -- a longer id is presented, so no line begins inside it
      rw [length_compatibleIni] at hshort
      have hq : q ∈ providers := by rw [hps]; simp
      obtain ⟨vs, hvs⟩ := hus
      rw [hbefore] at hstart
      exact absurd hstart ((hlonger q hq (by omega)).not_inside hids hps
        hvs.symm)
  | @opening ps qs q hps hbefore hrawEq hsectionLine =>
      have hq : q ∈ providers := by rw [hps]; simp
      have hle := length_rawName_le (compatibleIni false q.id)
      have hrawLength := congrArg List.length hrawEq
      rw [List.length_append, prefix_length] at hrawLength
      rw [length_compatibleIni] at hle
      by_cases hlt : p.id.length < q.id.length
      · -- a longer id that is presented opens its own group
        exfalso
        have hpresented := hlonger q hq hlt
        rw [hpresented.noComment, rawName_eq_self hpresented.noBracket]
          at hrawEq
        rw [hrawEq, trimmed_section (hsound q hq).trimmed,
          Ini.unescapedKey_append prefix_unescaped,
          hpresented.noEscape] at hname
        have hid := List.append_cancel_left hname
        rw [hid] at hlt
        omega
      · have hfull : (compatibleIni false q.id).length
            ≤ (rawName (compatibleIni false q.id)).length := by
          rw [length_compatibleIni]
          omega
        have hself : rawName (compatibleIni false q.id)
            = compatibleIni false q.id :=
          (List.takeWhile_prefix _).eq_of_length_le hfull
        have hnone : ']' ∉ compatibleIni false q.id := by
          intro hin
          rw [← hself] at hin
          exact absurd (List.mem_takeWhile_imp hin) (by decide)
        have hwhole := @trimmed_of_length raw (by omega)
        rw [hwhole] at hname
        have hmap := @Ini.unescapedKey_eq_map raw (by
          rw [hname, groupOfId, List.length_append, prefix_length]
          omega)
        have hpreMap : providerPrefix.map (fun c => if c = '\\' then '/' else c)
            = providerPrefix := by decide
        rw [hself] at hrawEq
        rw [hname, hrawEq, List.map_append, hpreMap, groupOfId] at hmap
        have hid := List.append_cancel_left hmap
        have hnoBackslash : '\\' ∉ compatibleIni false q.id := by
          intro hin
          refine hslash p hp ?_
          rw [hid]
          exact List.mem_map.2 ⟨'\\', hin, rfl⟩
        have hplain : (compatibleIni false q.id).map
            (fun c => if c = '\\' then '/' else c)
              = compatibleIni false q.id := by
          refine (List.map_congr_left fun c hc => ?_).trans (List.map_id _)
          exact if_neg fun heq : c = '\\' => hnoBackslash (heq ▸ hc)
        rw [hplain] at hid
        rw [hrawEq, Ini.unescapedKey_append prefix_unescaped, groupOfId,
          hid] at hname
        obtain ⟨more, hmore⟩ := hsectionLine hnone
        rw [← hmore, Ini.run_append] at hrun
        obtain ⟨mode₁, hfront, -⟩ := hrun
        refine ⟨ps, q, qs, hps, hbefore ▸ hstart, hid, ?_⟩
        rw [hid]
        exact ⟨hnone, hnoBackslash, List.append_cancel_left hname, mode₁,
          hfront⟩

/-- If every group is opened, every id is presented. -/
theorem presented_of_opened
    (hopened : ∀ provider ∈ providers, groupOfId provider.id ++ ['/']
      ∈ Ini.openedGroups (fileText (written providers))) :
    ∀ p ∈ providers, Presented providers p := by
  obtain ⟨bound, hbound⟩ := ids_bounded providers
  -- on how far the id is from the longest
  have hstep : ∀ gap, ∀ p ∈ providers, bound - p.id.length = gap →
      Presented providers p := by
    intro gap
    induction gap using Nat.strong_induction_on with
    | _ gap ih =>
        intro p hp hgap
        have hlonger : ∀ q ∈ providers, p.id.length < q.id.length →
            Presented providers q := by
          intro q hq hlt
          have hle := hbound q hq
          exact ih _ (by omega) q hq rfl
        have hsection := fun q hq hall => @section_of_opened _ _ _ hline hsound
          hids hslash hformed q hq (hopened q hq) hall
        obtain ⟨ps, q, qs, hps, hstart, hid, hnone, hback, hescape, hrun⟩ :=
          hsection p hp hlonger
        have hq : q ∈ providers := by rw [hps]; simp
        have hlength := congrArg List.length hid
        rw [length_compatibleIni] at hlength
        -- the id of that line is read from one as well
        obtain ⟨-, r, -, -, -, hidr, -⟩ := hsection q hq fun t ht hlt =>
          hlonger t ht (by omega)
        have hsame : compatibleIni false q.id = q.id := by
          rw [hidr, compatibleIni_idem]
        rw [hsame] at hid
        obtain rfl := List.inj_on_of_nodup_map hids hp hq hid
        exact
          { noBracket := hnone
            noBackslash := hback
            noEscape := hescape
            noComment := hsame
            start := ⟨ps, qs, hps, hstart⟩
            run := hrun }
  exact fun p hp => hstep _ p hp rfl

end Presented

-- =========================================================== quotes

/-- A presented id is carried, unless its quotes are open at the end of
its section line. -/
theorem Presented.carried_or_quoted {p : MapProvider}
    (h : Presented providers p) (hslash : '/' ∉ p.id) :
    Carried p.id ∨ Ini.run .plain (sectionLine p.id) = some .quoted := by
  obtain ⟨mode, hrun⟩ := h.run
  have hwhole := hrun
  rw [sectionLine_eq, Ini.run_cons] at hrun
  obtain ⟨mode₀, hopen, hrun⟩ := hrun
  cases hopen
  obtain ⟨mode₁, hfront, hrun⟩ := Ini.run_append.1 hrun
  rw [Ini.run_ordinary prefix_isOrdinary, Option.some.injEq] at hfront
  subst hfront
  obtain ⟨mode₂, hid, hlast⟩ := Ini.run_append.1 hrun
  cases mode₂ with
  | plain =>
      exact Or.inl
        { noBracket := h.noBracket
          noSlash := hslash
          noBackslash := h.noBackslash
          noEscape := h.noEscape
          noComment := h.noComment
          oneLine := hid }
  | quoted =>
      refine Or.inr ?_
      rw [hwhole, ← hlast]
      rfl
  | comment => cases hlast
  | escaped inside =>
      exact absurd rfl (Ini.run_noEscape hid (by simp) h.noBackslash inside)

/-- A key that is read from the head of a text stands before its equals
sign. -/
theorem splitAtEquals_of_prefix {word rest line key value acc : Text}
    (hword : IsWord word) (hline : line <+: word ++ '=' :: rest)
    (h : Ini.splitAtEquals .plain acc line = some (key, value)) :
    key = acc ++ word := by
  induction word generalizing acc line with
  | nil =>
      cases line with
      | nil => cases h
      | cons c line =>
          obtain ⟨rfl, -⟩ := List.cons_prefix_cons.1 hline
          rw [Ini.splitAtEquals, if_pos ⟨rfl, rfl⟩] at h
          cases h
          exact (List.append_nil _).symm
  | cons d word ih =>
      cases line with
      | nil => cases h
      | cons c line =>
          obtain ⟨rfl, htail⟩ := List.cons_prefix_cons.1 hline
          have hc := hword c List.mem_cons_self
          have hordinary := wordChar_ordinary hc
          simp only [Ini.isOrdinary, Bool.and_eq_true, bne_iff_ne]
            at hordinary
          have hadvance : Ini.advance .plain c = .keep .plain := by
            simp [Ini.advance, hordinary]
          have hequals : c ≠ '=' := wordChar_ne hc rfl
          rw [Ini.splitAtEquals, if_neg (by simp [hequals]), hadvance] at h
          rw [ih (fun e he => hword e (List.mem_cons_of_mem c he)) htail h,
            List.append_assoc]
          rfl

/-- The same at the head of the line of a key. -/
theorem key_of_keyLine {key' : String} (hkey : IsKey key')
    {value' rest line key value : Text}
    (hline : line <+: keyLine key' value' ++ rest)
    (h : Ini.splitAtEquals .plain [] (line.dropWhile Ini.isBlank)
      = some (key, value)) : key = key'.toList := by
  obtain ⟨c, cs, hwhole, hblank, -⟩ := hkey.first value'
  have hsame : line.dropWhile Ini.isBlank = line := by
    cases line with
    | nil => rfl
    | cons d line =>
        rw [hwhole, List.cons_append] at hline
        obtain ⟨rfl, -⟩ := List.cons_prefix_cons.1 hline
        rw [List.dropWhile_cons, hblank]
        rfl
  rw [hsame] at h
  rw [keyLine, List.append_assoc, List.cons_append] at hline
  exact splitAtEquals_of_prefix hkey.word hline h

/-- Only the first line of a provider gives its name. -/
theorem name_first {provider : MapProvider} {lines later : List Text}
    {value : Text} (h : valueLines provider
      = lines ++ keyLine "name" value :: later) : lines = [] := by
  cases lines with
  | nil => rfl
  | cons first lines =>
      exfalso
      have hmem : keyLine "name" value ∈ (valueLines provider).tail := by
        rw [h]
        exact List.mem_append_right _ List.mem_cons_self
      have hother : ∀ {line : Text} {c : Char}, line.head? = some c →
          c ≠ 'n' → keyLine "name" value ≠ line := by
        rintro line c hhead hc rfl
        exact hc (Option.some.inj hhead).symm
      simp only [valueLines, List.cons_append, List.nil_append, List.tail_cons,
        List.mem_cons, List.mem_append, List.not_mem_nil, or_false] at hmem
      rcases hmem with heq | heq | heq | heq | heq | hmem | heq
      · exact hother (c := 'u') rfl (by decide) heq
      · exact hother (c := 'm') rfl (by decide) heq
      · exact hother (c := 'm') rfl (by decide) heq
      · exact hother (c := 'e') rfl (by decide) heq
      · exact hother (c := 'r') rfl (by decide) heq
      · split at hmem
        · cases hmem
        · exact hother (c := 'c') rfl (by decide) (List.mem_singleton.1 hmem)
      · cases heq

/-- The ids of built-in providers hold no quotes, so no other id with an
open quote is known. -/
theorem knownProvider_quoted {id : Text}
    (h : Ini.run .plain (sectionLine id) = some .quoted) :
    (knownProvider id).name = [] := by
  have hplain : ∀ known ∈ defaultMapProviders,
      Ini.run .plain (sectionLine known.id) = some .plain := by
    decide +kernel
  have hnone : defaultMapProviders.find? (fun known => known.id == id)
      = none := by
    rw [List.find?_eq_none]
    intro known hknown heq
    rw [beq_iff_eq] at heq
    have hrun := hplain known hknown
    rw [heq, h] at hrun
    cases hrun
  rw [knownProvider, hnone]
  rfl

/-- A name that was read has an entry. -/
theorem entry_of_name {settings : Ini.Settings} {group name : Text}
    (h : readSingleString settings group "name" [] = .ok name)
    (hname : name ≠ []) :
    ∃ value, (group ++ '/' :: "name".toList, value) ∈ settings.entries := by
  unfold readSingleString at h
  cases hvalue : settings.value (group ++ '/' :: "name".toList) with
  | none =>
      rw [hvalue] at h
      cases h
      exact absurd rfl hname
  | some value =>
      obtain ⟨front, back, hsplit, -⟩ := List.lookup_eq_some_iff.1 hvalue
      exact ⟨value, by rw [hsplit]; simp⟩

/-- Where every id is presented, a name is read behind a section line. -/
theorem place_of_name (hids : (providers.map MapProvider.id).Nodup)
    (hpresented : ∀ p ∈ providers, Presented providers p)
    {front ds line key rest : Text} (hplace : Place providers front ds)
    (hstart : Ini.IsStart front) (hpre : line <+: ds)
    (hrun : ∃ mode, Ini.run .plain line = some mode)
    (hnone : Ini.openedGroup line = none)
    (hsplit : Ini.splitAtEquals .plain [] (line.dropWhile Ini.isBlank)
      = some (key, rest))
    (hkey : Ini.unescapedKey 0 (Ini.trimmed key) = "name".toList) :
    ∃ ps q qs, providers = ps ++ q :: qs ∧
      front = openingText ps ++ (sectionLine q.id ++ ['\n']) := by
  have hne : line ≠ [] := by
    rintro rfl
    cases hsplit
  have hhead : ∀ {d : Char} {es : Text}, ds = d :: es →
      ∃ cs, line = d :: cs := by
    rintro d es rfl
    cases line with
    | nil => exact absurd rfl hne
    | cons c line =>
        rw [(List.cons_prefix_cons.1 hpre).1]
        exact ⟨line, rfl⟩
  have hbracket : ∀ {es : Text}, ds ≠ '[' :: es := by
    rintro es rfl
    obtain ⟨cs, rfl⟩ := hhead rfl
    cases hnone
  have hother : ∀ {key' : String} {value' more : Text}, IsKey key' →
      ds = keyLine key' value' ++ more → key'.toList = "name".toList := by
    intro key' value' more hkey' hds
    rw [hds] at hpre
    rw [key_of_keyLine hkey' hpre hsplit, hkey'.unescapedKey] at hkey
    exact hkey
  cases hplace with
  | header =>
      obtain ⟨mode, hrun⟩ := hrun
      obtain ⟨cs, rfl⟩ := hhead (fileText_cons headerLine _)
      cases hrun
  | @opening ps qs q rest hps =>
      rw [sectionLine_eq] at hbracket
      exact absurd rfl hbracket
  | @inside ps qs q us es rest hps hid hus =>
      have hq : q ∈ providers := by rw [hps]; simp
      exact absurd hstart ((hpresented q hq).not_inside hids hps hid)
  | @value ps qs q lines later line' rest' hps hvalues =>
      have hq : q ∈ providers := by rw [hps]; simp
      rcases @mem_valueLines q line' (by rw [hvalues]; simp) with
        rfl | ⟨key', value', hkey', rfl, -⟩
      · obtain ⟨mode, hrun⟩ := hrun
        obtain ⟨cs, rfl⟩ := hhead rfl
        cases hrun
      · have hname := hother hkey' rfl
        have hsame : keyLine key' value' = keyLine "name" value' := by
          rw [keyLine, keyLine, hname]
        rw [hsame] at hvalues
        refine ⟨ps, q, qs, hps, ?_⟩
        rw [name_first hvalues, (hpresented q hq).noComment, fileText_cons]
        rfl
  | @trailer lines later line' htrailer =>
      have hmem : line' ∈ trailerLines := by rw [htrailer]; simp
      simp only [trailerLines, List.mem_cons, List.not_mem_nil, or_false]
        at hmem
      rcases hmem with rfl | rfl
      · have hmarker : "[map_providers]".toList
            = '[' :: "map_providers]".toList := by decide
        rw [hmarker] at hbracket
        exact absurd rfl hbracket
      · have hmarker : "configured=true".toList
            = keyLine "configured" "true".toList := by decide
        have hname := hother isKey_configured (congrArg (· ++ _) hmarker)
        exact absurd hname (by decide)
  | finish =>
      exact absurd (List.prefix_nil.1 hpre) hne

/-- Where every id is presented, the name of a provider is read behind its
own section line, so its quotes are closed there. -/
theorem carried_of_presented
    (hline : ∀ provider ∈ providers, OneLine provider)
    (hsound : ∀ provider ∈ providers, Sound qt profiles provider)
    (hids : (providers.map MapProvider.id).Nodup)
    (h : Survives qt profiles providers)
    (hpresented : ∀ p ∈ providers, Presented providers p) :
    ∀ p ∈ providers, Carried p.id := by
  intro p hp
  have hslash := fun (q : MapProvider) (hq : q ∈ providers) =>
    noSlash_of_survives hsound h hq
  refine ((hpresented p hp).carried_or_quoted (hslash p hp)).resolve_right ?_
  intro hquoted
  have hclean := fun (q : MapProvider) (hq : q ∈ providers) =>
    (hsound q hq).clean
  obtain ⟨-, -, -, -, -, hname⟩ := read_of_survives hsound h hp
  rw [knownProvider_quoted hquoted] at hname
  obtain ⟨value, hentry⟩ := entry_of_name hname (hsound p hp).named
  obtain ⟨before, line, later, key, rest, hlines, hgroup, hnone, hsplit, hkey,
    -⟩ := group_of_survives hsound h hp hentry rfl
  rw [compatible_file hclean] at hlines
  obtain ⟨front, ds, hfile, hstart, hscan⟩ := Ini.scan_line hlines
  obtain ⟨hpre, hrun⟩ := Ini.scan_first hscan
  obtain ⟨ps, q, qs, hps, rfl⟩ := place_of_name hids hpresented
    (place_of_start hline hstart hfile.symm) hstart hpre hrun hnone hsplit hkey
  have hq : q ∈ providers := by rw [hps]; simp
  obtain ⟨ps', qs', hps', hopening⟩ := (hpresented q hq).start
  have hsame : ps = ps' := split_unique (hps ▸ hids) (hps.symm.trans hps')
  rcases (hpresented q hq).carried_or_quoted (hslash q hq) with
    hcarried | hopen
  · -- the section line of `q` is the line before, so `q` is `p`
    obtain ⟨front, hfront⟩ := Ini.scan_start hopening
      (sectionLine q.id ++ '\n' :: ds)
    have hread := (sectionLine_plain hcarried).scan ds
    rw [hread, hscan, ← hsame] at hfront
    have hagain : Ini.scan .plain [] (fileText (written providers))
        = front ++ [sectionLine q.id] ++ line :: later := by
      rw [hfile, List.append_assoc, List.append_assoc, List.append_assoc,
        List.singleton_append, List.singleton_append, hfront]
    have hbefore := List.append_cancel_right (hlines.symm.trans hagain)
    rw [hbefore, List.foldl_append, List.foldl_cons, List.foldl_nil,
      readLine_section hcarried (hsound q hq).trimmed] at hgroup
    have hid := List.append_cancel_left (List.append_cancel_right hgroup)
    have hclosed := (sectionLine_plain hcarried).run
    rw [hid, hquoted] at hclosed
    cases hclosed
  · -- a line does not end inside quotes
    have hinside : Ini.run .plain (sectionLine q.id ++ ['\n'])
        = some .quoted := Ini.run_append.2 ⟨.quoted, hopen, rfl⟩
    rw [hsame] at hstart
    exact hopening.not_inside hinside hstart

/-- A catalogue that survives has carried ids, if no coverage holds a
carriage return. -/
theorem carried_of_survives
    (hsound : ∀ provider ∈ providers, Sound qt profiles provider)
    (hids : (providers.map MapProvider.id).Nodup)
    (hreturn : ∀ provider ∈ providers, '\r' ∉ provider.coverage)
    (h : Survives qt profiles providers) : ∀ p ∈ providers, Carried p.id := by
  have hclean := fun (q : MapProvider) (hq : q ∈ providers) =>
    (hsound q hq).clean
  have hline := fun (q : MapProvider) (hq : q ∈ providers) =>
    (hsound q hq).oneLine (hreturn q hq)
  have hslash := fun (q : MapProvider) (hq : q ∈ providers) =>
    noSlash_of_survives hsound h hq
  have hopened : ∀ p ∈ providers, groupOfId p.id ++ ['/']
      ∈ Ini.openedGroups (fileText (written providers)) := by
    intro p hp
    obtain ⟨entry, hentry, rest, hkey⟩ := entry_of_survives hsound h hp
    obtain ⟨-, -, -, -, -, -, -, -, -, -, hin⟩ :=
      group_of_survives hsound h hp hentry hkey
    rwa [compatible_file hclean] at hin
  have hformed : ∀ line ∈ Ini.scan .plain [] (fileText (written providers)),
      ∀ cs, line.dropWhile Ini.isBlank = '[' :: cs → ']' ∈ cs := by
    obtain ⟨loaded, hload, -⟩ := h.loads [] []
    have hwell := (load_ok hload).1
    rw [stateSettings, compatible_file hclean] at hwell
    exact (Ini.foldl_wellFormed hwell).2
  exact carried_of_presented hline hsound hids h
    (presented_of_opened hline hsound hids hslash hformed hopened)

-- =========================================================== restarts

/-- An accepted catalogue survives a restart if all its ids are carried,
and only then, if no coverage holds a carriage return. -/
theorem accepted_survives_iff {document : JsonValue}
    (h : putProviders qt profiles document = .ok providers) :
    ((∀ provider ∈ providers, Carried provider.id) →
      Survives qt profiles providers) ∧
    ((∀ provider ∈ providers, '\r' ∉ provider.coverage) →
      Survives qt profiles providers →
        ∀ provider ∈ providers, Carried provider.id) := by
  obtain ⟨hsound, hids⟩ := putProviders_spec h
  exact ⟨survives_of_carried hsound hids,
    carried_of_survives hsound hids⟩

theorem isSpace_toLower {c : Char} (h : QString.isSpace c = false) :
    QString.isSpace c.toLower = false := by
  unfold Char.toLower
  split
  · rename_i hupper
    have hfirst : 65 ≤ c.val.toNat := UInt32.le_iff_toNat_le.1 hupper.1
    have hlast : c.val.toNat ≤ 90 := UInt32.le_iff_toNat_le.1 hupper.2
    have hval : (c.val + ('a'.val - 'A'.val)).toNat
        = (c.val.toNat + 32) % 4294967296 := UInt32.toNat_add _ _
    rw [Nat.mod_eq_of_lt (by omega)] at hval
    refine QString.isSpace_of_visible ?_ ?_
    · exact Nat.lt_of_lt_of_eq (by omega) hval.symm
    · exact hval.trans_lt (by omega)
  · exact h

/-- Lower-casing and URLs, on ASCII texts. -/
def asciiQt : Qt where
  toLower text := text.map Char.toLower
  parseUrl text :=
    { scheme := text.takeWhile fun c => c != ':'
      host := ((text.dropWhile fun c => c != ':').drop 3).takeWhile
        fun c => c != '/' }
  trimmed_toLower text := by
    apply QString.trimmedBy_eq_self
    · intro c hc
      rw [List.head?_map, Option.map_eq_some_iff] at hc
      obtain ⟨d, hd, rfl⟩ := hc
      exact isSpace_toLower (QString.trimmedBy_head hd)
    · intro c hc
      rw [List.getLast?_map, Option.map_eq_some_iff] at hc
      obtain ⟨d, hd, rfl⟩ := hc
      exact isSpace_toLower (QString.trimmedBy_last hd)

/-- The URL of the examples. -/
def exampleUrl : Text :=
  "https://tiles/".toList ++ ['{', 'z', '}', '/', '{', 'x', '}', '/', '{', 'y',
    '}']

/-- The entry of a provider, without a coverage. -/
def exampleEntry (id : Text) : JsonValue :=
  .object
    [ ("id".toList, .string id),
      ("name".toList, .string "Relief".toList),
      ("url".toList, .string exampleUrl),
      ("minimum_zoom".toList, .number 0),
      ("maximum_zoom".toList, .number 17) ]

/-- A body with one provider. -/
def exampleBody (id : Text) : JsonValue :=
  .object [("providers".toList, .array [exampleEntry id])]

/-- What the route makes of it. -/
def exampleProvider (id : Text) : MapProvider where
  id := id
  name := "Relief".toList
  urlTemplate := exampleUrl
  maximumZoom := 17

theorem putProviders_example {id : Text}
    (hid : asciiQt.toLower (QString.trimmed id) = id)
    (haccepted : refuses asciiQt [] [] (exampleProvider id) = false) :
    putProviders asciiQt [] (exampleBody id) = .ok [exampleProvider id] := by
  have hname : QString.trimmed "Relief".toList = "Relief".toList := by decide
  have hurl : QString.trimmed exampleUrl = exampleUrl := by decide +kernel
  have hlow : (JsonValue.number 0).toInt (-1) = 0 := by decide +kernel
  have hhigh : (JsonValue.number 17).toInt (-1) = 17 := by decide +kernel
  have hproposed : proposedProvider asciiQt (exampleEntry id)
      = exampleProvider id := by
    have hmember : (exampleEntry id).member "id" = .string id ∧
        (exampleEntry id).member "name" = .string "Relief".toList ∧
        (exampleEntry id).member "url" = .string exampleUrl ∧
        (exampleEntry id).member "coverage" = .null ∧
        (exampleEntry id).member "minimum_zoom" = .number 0 ∧
        (exampleEntry id).member "maximum_zoom" = .number 17 ∧
        (exampleEntry id).member "enabled" = .null ∧
        (exampleEntry id).member "remote_fetch_enabled" = .null :=
      ⟨rfl, rfl, rfl, rfl, rfl, rfl, rfl, rfl⟩
    obtain ⟨hid', hname', hurl', hcoverage, hmin, hmax, henabled, hremote⟩ :=
      hmember
    unfold proposedProvider
    rw [hid', hname', hurl', hcoverage, hmin, hmax, henabled, hremote, hlow,
      hhigh]
    simp only [JsonValue.toText, hid, hname, hurl]
    rfl
  have hentries : (exampleBody id).member "providers"
      = .array [exampleEntry id] := rfl
  have hall : proposeAll asciiQt [] [] [exampleEntry id]
      = .ok [exampleProvider id] := by
    unfold exampleEntry
    rw [proposeAll, ← exampleEntry, hproposed]
    simp only [List.map_nil, haccepted]
    rfl
  unfold putProviders
  rw [hentries]
  exact hall

/-- A UUID alone survives. -/
theorem uuid_survives : Survives asciiQt []
    [exampleProvider "0381bc44-67e9-5af9-aeb0-023ccba36658".toList] :=
  (@accepted_survives_iff asciiQt [] _ (exampleBody
    "0381bc44-67e9-5af9-aeb0-023ccba36658".toList) (putProviders_example
      (by decide +kernel) (by decide +kernel))).1 (by
      intro provider hprovider
      rw [List.mem_singleton.1 hprovider]
      exact ⟨by decide, by decide, by decide, by decide, by decide,
        by decide⟩)

/-- A closing bracket behind the UUID loses the provider. -/
theorem bracket_lost :
    ∃ providers, putProviders asciiQt [] (exampleBody
        "0381bc44-67e9-5af9-aeb0-023ccba36658]x".toList) = .ok providers ∧
      ¬ Survives asciiQt [] providers := by
  have haccepted := @putProviders_example
    "0381bc44-67e9-5af9-aeb0-023ccba36658]x".toList (by decide +kernel)
    (by decide +kernel)
  refine ⟨_, haccepted, fun hsurvives => ?_⟩
  obtain ⟨hsound, hids⟩ := putProviders_spec haccepted
  have hreturn : ∀ provider ∈ [exampleProvider
      "0381bc44-67e9-5af9-aeb0-023ccba36658]x".toList],
      '\r' ∉ provider.coverage := by
    intro provider hprovider
    rw [List.mem_singleton.1 hprovider]
    exact List.not_mem_nil
  have hcarried := carried_of_survives hsound hids hreturn hsurvives _
    List.mem_cons_self
  exact absurd hcarried.noBracket (by decide)

end AowisMap.Server.Catalogue
