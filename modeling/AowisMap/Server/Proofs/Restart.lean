/-
A restart from the file of a catalogue the route accepted.

# Accepted catalogues

`putProviders_spec` collects what the route checks of the providers of a
body (`Sound`), and that their ids differ.

# Reading back

When the ids of a catalogue are carried, its settings hold the fields of
its providers under their groups and nothing else (`value_field`,
`mem_childGroups_carried`), so each provider reads back from its group
(`readProvider_carried`), in whatever order the groups come.
-/
import AowisMap.Server.Proofs.Catalogue
import Mathlib.Data.List.Nodup

namespace AowisMap.Server.Catalogue

open Lib

variable {qt : Qt} {profiles : List Text} {providers : List MapProvider}

-- ==================================================== accepted catalogues

/-- What the route checks of a provider. -/
structure Sound (qt : Qt) (profiles : List Text) (provider : MapProvider) :
    Prop where
  uuid : isNullUuid provider.id = false
  noBrace : '{' ∉ provider.id
  trimmed : Trimmed provider.id
  clean : Clean provider
  noReturn : '\r' ∉ provider.name ∧ '\r' ∉ provider.urlTemplate
  coverage : QString.trimmed provider.coverage = provider.coverage
  named : provider.name ≠ []
  zooms : 0 ≤ provider.minimumZoom ∧
    provider.minimumZoom ≤ provider.maximumZoom ∧ provider.maximumZoom ≤ 30
  profile : hasProfile profiles provider.coverage = true
  http : isHttp (qt.parseUrl provider.urlTemplate) = true
  placeholders : hasPlaceholders provider.urlTemplate = true

/-- What is not refused is sound, and its id is a new one. -/
theorem sound_of_not_refused {ids : List Text} {entry : JsonValue}
    (h : refuses qt profiles ids (proposedProvider qt entry) = false) :
    Sound qt profiles (proposedProvider qt entry) ∧
      (proposedProvider qt entry).id ∉ ids := by
  simp only [refuses, Bool.or_eq_false_iff, Bool.not_eq_false',
    decide_eq_false_iff_not, Int.not_lt, List.contains_eq_mem,
    List.isEmpty_eq_false_iff] at h
  obtain ⟨⟨⟨⟨⟨⟨⟨⟨⟨⟨⟨⟨⟨⟨⟨huuid, hbrace⟩,
    hnew⟩, hnamed⟩, hname⟩, hnameReturn⟩,
    hurl⟩, hurlReturn⟩, hcoverage⟩, hlow⟩, hhigh⟩, horder⟩, hprofile⟩, hhttp⟩, -⟩,
    hplaceholders⟩ := h
  refine ⟨?_, hnew⟩
  exact
    { uuid := huuid
      noBrace := hbrace
      trimmed := by
        refine ⟨?_, qt.trimmed_toLower _⟩
        intro hnil
        rw [hnil] at huuid
        exact absurd huuid (by decide)
      clean := ⟨hname, hurl, hcoverage⟩
      noReturn := ⟨hnameReturn, hurlReturn⟩
      coverage := QString.trimmedBy_trimmedBy _
      named := hnamed
      zooms := ⟨hlow, horder, hhigh⟩
      profile := hprofile
      http := hhttp
      placeholders := hplaceholders }

theorem proposeAll_spec {proposed : List MapProvider}
    {entries : List JsonValue}
    (h : proposeAll qt profiles proposed entries = .ok providers)
    (hsound : ∀ provider ∈ proposed, Sound qt profiles provider)
    (hids : (proposed.map MapProvider.id).Nodup) :
    (∀ provider ∈ providers, Sound qt profiles provider) ∧
      (providers.map MapProvider.id).Nodup := by
  induction entries generalizing proposed with
  | nil =>
      cases h
      exact ⟨hsound, hids⟩
  | cons entry entries ih =>
      cases entry with
      | object members =>
          rw [proposeAll] at h
          cases hrefuses : refuses qt profiles (proposed.map MapProvider.id)
              (proposedProvider qt (.object members)) with
          | true =>
              rw [if_pos hrefuses] at h
              cases h
          | false =>
              rw [if_neg (by simp [hrefuses])] at h
              obtain ⟨hnew, hid⟩ := sound_of_not_refused hrefuses
              refine ih h ?_ ?_
              · intro provider hprovider
                rcases List.mem_append.1 hprovider with hold | hlast
                · exact hsound provider hold
                · rw [List.mem_singleton.1 hlast]
                  exact hnew
              · rw [List.map_append, List.map_singleton]
                exact List.nodup_append'.2 ⟨hids, List.nodup_singleton _,
                  List.disjoint_singleton.2 hid⟩
      | null | bool | number | string | array => cases h

/-- The providers of an accepted body are sound and have different ids. -/
theorem putProviders_spec {document : JsonValue}
    (h : putProviders qt profiles document = .ok providers) :
    (∀ provider ∈ providers, Sound qt profiles provider) ∧
      (providers.map MapProvider.id).Nodup := by
  unfold putProviders at h
  split at h
  · split at h
    · cases h
    · exact proposeAll_spec h (by simp) (by simp)
  · cases h

-- ============================================================= entries

theorem mem_blockEntries {provider : MapProvider} {entry : Text × Ini.Value} :
    entry ∈ blockEntries provider ↔ ∃ field ∈ fields provider,
      entry = (groupOfId provider.id ++ '/' :: field.1.toList,
        .text field.2) := by
  rw [blockEntries, List.mem_map]
  exact exists_congr fun field => and_congr_right fun _ => eq_comm

/-- The keys of a provider differ. -/
theorem fields_nodup (provider : MapProvider) :
    ((fields provider).map fun field => field.1.toList).Nodup := by
  unfold fields
  split
  · simp only [List.append_nil, List.map_cons, List.map_nil]
    decide
  · simp only [List.cons_append, List.nil_append, List.map_cons, List.map_nil]
    decide

/-- The settings of a catalogue whose ids are carried. -/
def carriedSettings (providers : List MapProvider) : Ini.Settings where
  group := "map_providers/".toList
  entries := ("map_providers/configured".toList, .text "true".toList)
    :: (providers.flatMap blockEntries).reverse
  wellFormed := true

/-- An entry is the marker, or a field of a provider. -/
theorem mem_carriedSettings {entry : Text × Ini.Value} :
    entry ∈ (carriedSettings providers).entries ↔
      entry = ("map_providers/configured".toList, .text "true".toList) ∨
      ∃ provider ∈ providers, ∃ field ∈ fields provider,
        entry = (groupOfId provider.id ++ '/' :: field.1.toList,
          .text field.2) := by
  unfold carriedSettings
  rw [List.mem_cons, List.mem_reverse, List.mem_flatMap]
  refine or_congr_right (exists_congr fun provider => and_congr_right fun _ => ?_)
  exact mem_blockEntries

/-- A key whose entries all have one value has it. -/
theorem lookup_of_unique {key : Text} {value : Ini.Value}
    {entries : List (Text × Ini.Value)} (h : (key, value) ∈ entries)
    (hunique : ∀ other, (key, other) ∈ entries → other = value) :
    entries.lookup key = some value := by
  induction entries with
  | nil => cases h
  | cons entry entries ih =>
      obtain ⟨key', value'⟩ := entry
      by_cases heq : key = key'
      · subst heq
        rw [List.lookup_cons_self, hunique value' List.mem_cons_self]
      · have hne : (key == key') = false := by simp [heq]
        rw [List.lookup_cons, hne]
        refine ih ?_ fun other hother =>
          hunique other (List.mem_cons_of_mem _ hother)
        rcases List.mem_cons.1 h with hhead | htail
        · exact absurd (congrArg Prod.fst hhead) heq
        · exact htail

theorem marker_group : ∃ rest, "map_providers/configured".toList
    = "map_providers".toList ++ '/' :: rest :=
  ⟨"configured".toList, by decide⟩

/-- The marker lies in no group of a provider. -/
theorem marker_ne (id rest : Text) :
    "map_providers/configured".toList ≠ groupOfId id ++ '/' :: rest := by
  intro heq
  have hdrop := congrArg (fun cs => cs[12]?) heq
  have hleft : "map_providers/configured".toList[12]? = some 's' := by decide
  have hright : (groupOfId id ++ '/' :: rest)[12]? = some '.' := rfl
  rw [hleft, hright] at hdrop
  exact absurd hdrop (by decide)

/-- The group of a key of a provider. -/
theorem groupOf_provider {id : Text} (hid : '/' ∉ id) (rest : Text) :
    Ini.groupOf (groupOfId id ++ '/' :: rest) = some (groupOfId id) := by
  apply Ini.groupOf_append
  intro hmem
  rcases List.mem_append.1 hmem with hpre | hmem
  · exact absurd hpre (by decide)
  · exact hid hmem

/-- Groups without a separator and what stands behind it are told apart. -/
theorem groupKey_inj {id id' rest rest' : Text} (hid : '/' ∉ id)
    (hid' : '/' ∉ id')
    (h : groupOfId id ++ '/' :: rest = groupOfId id' ++ '/' :: rest') :
    id = id' ∧ rest = rest' := by
  have hgroup := congrArg Ini.groupOf h
  rw [groupOf_provider hid, groupOf_provider hid', Option.some.injEq] at hgroup
  rw [hgroup] at h
  exact ⟨List.append_cancel_left hgroup,
    (List.cons.inj (List.append_cancel_left h)).2⟩

section Carried

variable (hcarried : ∀ provider ∈ providers, Carried provider.id)
  (hids : (providers.map MapProvider.id).Nodup)

include hcarried hids

/-- A key in the group of a provider is one of its fields. -/
theorem mem_group {provider : MapProvider} (hprovider : provider ∈ providers)
    {key : Text} {value : Ini.Value}
    (h : (groupOfId provider.id ++ '/' :: key, value)
      ∈ (carriedSettings providers).entries) :
    ∃ field ∈ fields provider, key = field.1.toList ∧ value = .text field.2 := by
  rcases mem_carriedSettings.1 h with heq | ⟨other, hother, field, hfield, heq⟩
  · exact absurd (congrArg Prod.fst heq).symm (marker_ne _ _)
  · obtain ⟨hid, hkey⟩ := groupKey_inj (hcarried provider hprovider).noSlash
      (hcarried other hother).noSlash (congrArg Prod.fst heq)
    obtain rfl := List.inj_on_of_nodup_map hids hprovider hother hid
    exact ⟨field, hfield, hkey, congrArg Prod.snd heq⟩

/-- Each field of a provider is the value of its key. -/
theorem value_field {provider : MapProvider} (hprovider : provider ∈ providers)
    {field : String × Text} (hfield : field ∈ fields provider) :
    (carriedSettings providers).value
        (groupOfId provider.id ++ '/' :: field.1.toList)
      = some (.text field.2) := by
  refine lookup_of_unique (mem_carriedSettings.2 (Or.inr
    ⟨provider, hprovider, field, hfield, rfl⟩)) ?_
  intro value hvalue
  obtain ⟨other, hother, hkey, rfl⟩ := mem_group hcarried hids hprovider hvalue
  rw [List.inj_on_of_nodup_map (fields_nodup provider) hfield hother hkey]

/-- A provider without a coverage has no key for one. -/
theorem value_coverage {provider : MapProvider}
    (hprovider : provider ∈ providers) (hnone : provider.coverage = []) :
    (carriedSettings providers).value
      (groupOfId provider.id ++ '/' :: "coverage".toList) = none := by
  rw [Ini.Settings.value, List.lookup_eq_none_iff]
  rintro ⟨key, value⟩ hentry
  rw [bne_iff_ne]
  rintro rfl
  obtain ⟨field, hfield, hkey, -⟩ := mem_group hcarried hids hprovider hentry
  simp only [fields, hnone, if_true, List.append_nil, List.mem_cons,
    List.not_mem_nil, or_false] at hfield
  rcases hfield with rfl | rfl | rfl | rfl | rfl | rfl <;>
    exact absurd hkey (by simp only; decide)

end Carried

-- ======================================================== reading back

theorem readText_of_value {settings : Ini.Settings} {key text : Text}
    (h : settings.value key = some (.text text)) (fallback : Text) :
    readText settings key fallback = text := by
  rw [readText, h]

theorem readSingleString_of_value {settings : Ini.Settings} {group text : Text}
    {key : String}
    (h : settings.value (group ++ '/' :: key.toList) = some (.text text))
    (fallback : Text) :
    readSingleString settings group key fallback = .ok text := by
  rw [readSingleString, h]

/-- A flag reads back. -/
theorem readBoolean_of_value {settings : Ini.Settings} {group : Text}
    {key : String} {value : Bool}
    (h : settings.value (group ++ '/' :: key.toList)
      = some (.text (boolText value))) (fallback : Bool) :
    readBoolean settings group key fallback = .ok value := by
  have htext := readText_of_value h []
  have hword := (isWord_boolText value).trimmed
  have htrue : (["true", "1", "yes", "on"].any fun word =>
      word.toList == (boolText value).map Char.toLower) = value := by
    cases value <;> decide
  have hfalse : (["false", "0", "no", "off"].any fun word =>
      word.toList == (boolText value).map Char.toLower) = !value := by
    cases value <;> decide
  unfold readBoolean
  simp only [h, htext, hword, htrue, hfalse]
  cases value
  · rfl
  · rfl

/-- The old names of built-in providers are no UUIDs. -/
theorem storedId_uuid {id : Text} (h : isNullUuid id = false) :
    storedId id = id := by
  have hlegacy : ∀ name : Text, isNullUuid name = true → id ≠ name := by
    rintro name hname rfl
    rw [hname] at h
    cases h
  unfold storedId
  rw [if_neg (hlegacy _ (by decide)), if_neg (hlegacy _ (by decide)),
    if_neg (hlegacy _ (by decide)), if_neg (hlegacy _ (by decide))]

/-- The loader's checks are among those of the route. -/
theorem Sound.acceptable {provider : MapProvider}
    (h : Sound qt profiles provider) :
    acceptable qt profiles provider = true := by
  have hnonempty : provider.urlTemplate.isEmpty = false := by
    rw [List.isEmpty_eq_false_iff]
    intro hnil
    have hplaceholders := h.placeholders
    rw [hnil] at hplaceholders
    exact absurd hplaceholders (by decide)
  simp [Catalogue.acceptable, hnonempty, h.http, h.placeholders, h.profile,
    h.zooms]

theorem Sound.fitsInt {provider : MapProvider}
    (h : Sound qt profiles provider) :
    QString.fitsInt provider.minimumZoom ∧
      QString.fitsInt provider.maximumZoom := by
  obtain ⟨hlow, horder, hhigh⟩ := h.zooms
  simp only [QString.fitsInt, Bool.and_eq_true, decide_eq_true_eq]
  omega

section Carried

variable (hcarried : ∀ provider ∈ providers, Carried provider.id)
  (hids : (providers.map MapProvider.id).Nodup)
  (hsound : ∀ provider ∈ providers, Sound qt profiles provider)

include hcarried hids hsound

/-- A provider reads back from its group. -/
theorem readProvider_carried {provider : MapProvider}
    (hprovider : provider ∈ providers) :
    readProvider qt profiles (carriedSettings providers)
      (groupOfId provider.id) = .ok provider := by
  have hsettings := fun field => @value_field _ hcarried hids _ hprovider field
  have hname := hsettings ("name", provider.name) (by simp [fields])
  have hurl := hsettings ("url", provider.urlTemplate)
    (by simp [fields])
  have hmin := hsettings ("min_zoom",
    QString.number provider.minimumZoom) (by simp [fields])
  have hmax := hsettings ("max_zoom",
    QString.number provider.maximumZoom) (by simp [fields])
  have henabled := hsettings ("enabled", boolText provider.enabled)
    (by simp [fields])
  have hremote := hsettings ("remote_fetch_enabled",
    boolText provider.remoteFetchEnabled) (by simp [fields])
  have hprovided := hsound provider hprovider
  have hcoverage : readSingleString (carriedSettings providers)
      (groupOfId provider.id) "coverage" [] = .ok provider.coverage := by
    by_cases hnone : provider.coverage = []
    · rw [readSingleString, value_coverage hcarried hids hprovider hnone,
        hnone]
    · exact readSingleString_of_value (hsettings ("coverage",
        provider.coverage) (by simp [fields, hnone])) _
  have hzooms : ∀ known, readZooms (carriedSettings providers)
      (groupOfId provider.id) known
        = .ok (provider.minimumZoom, provider.maximumZoom) := by
    intro known
    have hminKey : "/min_zoom".toList = '/' :: "min_zoom".toList := by decide
    have hmaxKey : "/max_zoom".toList = '/' :: "max_zoom".toList := by decide
    unfold readZooms
    simp only [hminKey, hmaxKey, readText_of_value hmin,
      readText_of_value hmax, QString.toInt_number hprovided.fitsInt.1,
      QString.toInt_number hprovided.fitsInt.2]
  have hdrop : (groupOfId provider.id).drop 13 = provider.id :=
    List.drop_left' prefix_length
  unfold readProvider
  simp only [hdrop, storedId_uuid hprovided.uuid, hprovided.uuid,
    readSingleString_of_value hname, readSingleString_of_value hurl,
    hcoverage, hzooms, readBoolean_of_value henabled,
    readBoolean_of_value hremote]
  have hread : ({ provider with
      coverage := QString.trimmed provider.coverage } : MapProvider)
        = provider := by
    rw [hprovided.coverage]
  change (if acceptable qt profiles { provider with
      coverage := QString.trimmed provider.coverage } = true
    then pure { provider with
      coverage := QString.trimmed provider.coverage }
    else Except.error _) = Except.ok provider
  rw [hread, if_pos hprovided.acceptable]
  rfl

/-- Groups of providers read back, in any order. -/
theorem readProviders_carried {groups : List Text}
    (hgroups : ∀ group ∈ groups, ∃ provider ∈ providers,
      group = groupOfId provider.id) (hnodup : groups.Nodup)
    {read : List MapProvider}
    (hread : ∀ provider ∈ read, groupOfId provider.id ∉ groups) :
    ∃ more, readProviders qt profiles (carriedSettings providers) read groups
        = .ok (read ++ more) ∧
      ∀ provider, provider ∈ more ↔
        provider ∈ providers ∧ groupOfId provider.id ∈ groups := by
  induction groups generalizing read with
  | nil => exact ⟨[], by rw [List.append_nil]; rfl, by simp⟩
  | cons group groups ih =>
      rw [List.nodup_cons] at hnodup
      obtain ⟨provider, hprovider, rfl⟩ := hgroups group List.mem_cons_self
      have hnew : (read.map MapProvider.id).contains provider.id = false := by
        rw [List.contains_eq_mem, decide_eq_false_iff_not, List.mem_map]
        rintro ⟨other, hother, hid⟩
        exact hread other hother (hid ▸ List.mem_cons_self)
      have hrest : ∀ other ∈ read ++ [provider],
          groupOfId other.id ∉ groups := by
        intro other hother hin
        rcases List.mem_append.1 hother with hold | hlast
        · exact hread other hold (List.mem_cons_of_mem _ hin)
        · rw [List.mem_singleton.1 hlast] at hin
          exact hnodup.1 hin
      obtain ⟨more, hmore, hmem⟩ := ih (fun other hother =>
        hgroups other (List.mem_cons_of_mem _ hother)) hnodup.2 hrest
      refine ⟨provider :: more, ?_, ?_⟩
      · have hstep : readProviders qt profiles (carriedSettings providers) read
            (groupOfId provider.id :: groups)
              = readProviders qt profiles (carriedSettings providers)
                (read ++ [provider]) groups := by
          rw [readProviders, readProvider_carried hcarried hids hsound hprovider]
          change (if (read.map MapProvider.id).contains provider.id = true
            then Except.error _ else _) = _
          rw [hnew, if_neg (by simp)]
        rw [hstep, hmore, List.append_assoc]
        rfl
      · intro other
        rw [List.mem_cons, hmem, List.mem_cons]
        constructor
        · rintro (rfl | ⟨hother, hin⟩)
          · exact ⟨hprovider, Or.inl rfl⟩
          · exact ⟨hother, Or.inr hin⟩
        · rintro ⟨hother, heq | hin⟩
          · have hid := List.append_cancel_left heq
            exact Or.inl (List.inj_on_of_nodup_map hids hother hprovider hid)
          · exact Or.inr ⟨hother, hin⟩

end Carried

/-- The groups of the settings. -/
theorem mem_childGroups_carried
    (hcarried : ∀ provider ∈ providers, Carried provider.id) {group : Text} :
    group ∈ (carriedSettings providers).childGroups ↔
      group = "map_providers".toList ∨
        ∃ provider ∈ providers, group = groupOfId provider.id := by
  obtain ⟨rest, hmarker⟩ := marker_group
  have hnamed : Ini.groupOf "map_providers/configured".toList
      = some "map_providers".toList := by
    rw [hmarker]
    exact Ini.groupOf_append (by decide) rest
  rw [Ini.mem_childGroups]
  constructor
  · rintro ⟨entry, hentry, hgroup⟩
    rcases mem_carriedSettings.1 hentry with
      rfl | ⟨provider, hprovider, field, -, rfl⟩
    · rw [hnamed, Option.some.injEq] at hgroup
      exact Or.inl hgroup.symm
    · rw [groupOf_provider (hcarried provider hprovider).noSlash,
        Option.some.injEq] at hgroup
      exact Or.inr ⟨provider, hprovider, hgroup.symm⟩
  · rintro (rfl | ⟨provider, hprovider, rfl⟩)
    · exact ⟨_, mem_carriedSettings.2 (Or.inl rfl), hnamed⟩
    · refine ⟨_, mem_carriedSettings.2 (Or.inr ⟨provider, hprovider,
        ("name", provider.name), by simp [fields], rfl⟩), ?_⟩
      exact groupOf_provider (hcarried provider hprovider).noSlash _

theorem isConfigured_carried (providers : List MapProvider) :
    isConfigured (carriedSettings providers) = true := by
  have hvalue : (carriedSettings providers).value
      "map_providers/configured".toList = some (.text "true".toList) :=
    List.lookup_cons_self
  rw [isConfigured, readText_of_value hvalue]
  decide

-- ============================================================ survival

/-- The keys of a provider in the file. -/
def providerKeys : List String :=
  ["name", "url", "min_zoom", "max_zoom", "enabled", "remote_fetch_enabled",
    "coverage"]

/-- A catalogue survives a restart: its file loads to the same providers,
opens the groups of the providers and of the marker, and no others, and
gives no other keys. -/
structure Survives (qt : Qt) (profiles : List Text)
    (providers : List MapProvider) : Prop where
  loads : ∀ path configured, ∃ loaded, loadProviderStateFile qt profiles path
      (some (saveMapProvidersToState providers)) configured = .ok loaded ∧
    ∀ provider, provider ∈ loaded ↔ provider ∈ providers
  groups : ∀ group ∈ Ini.openedGroups (compatibleIni true
      (saveMapProvidersToState providers)),
    group = "map_providers/".toList ∨
      ∃ provider ∈ providers, group = groupOfId provider.id ++ ['/']
  keys : ∀ entry ∈ (stateSettings
      (saveMapProvidersToState providers)).entries,
    entry.1 = "map_providers/configured".toList ∨
      ∃ provider ∈ providers, ∃ key ∈ providerKeys,
        entry.1 = groupOfId provider.id ++ '/' :: key.toList

theorem fields_keys {provider : MapProvider} {field : String × Text}
    (h : field ∈ fields provider) : field.1 ∈ providerKeys := by
  simp only [fields, List.mem_append, List.mem_cons, List.not_mem_nil,
    or_false] at h
  rcases h with (rfl | rfl | rfl | rfl | rfl | rfl) | h
  any_goals simp [providerKeys]
  split at h
  · cases h
  · rw [List.mem_singleton.1 h]
    simp

theorem isPrefixOf_group (id : Text) :
    providerPrefix.isPrefixOf (groupOfId id) = true :=
  List.isPrefixOf_iff_prefix.2 (List.prefix_append _ _)

/-- Sound providers with different, carried ids survive. -/
theorem survives_of_carried
    (hsound : ∀ provider ∈ providers, Sound qt profiles provider)
    (hids : (providers.map MapProvider.id).Nodup)
    (hcarried : ∀ provider ∈ providers, Carried provider.id) :
    Survives qt profiles providers := by
  have hclean := fun (provider : MapProvider) (hprovider : provider ∈ providers)
    => (hsound provider hprovider).clean
  have htrim := fun (provider : MapProvider) (hprovider : provider ∈ providers)
    => (hsound provider hprovider).trimmed
  have hsettings : stateSettings (saveMapProvidersToState providers)
      = carriedSettings providers :=
    stateSettings_carried hclean hcarried htrim
  have hchild := fun group =>
    @mem_childGroups_carried _ hcarried group
  refine ⟨?_, ?_, ?_⟩
  · intro path configured
    have hexpected : (carriedSettings providers).childGroups.find? (fun group =>
        group != "map_providers".toList && !providerPrefix.isPrefixOf group)
          = none := by
      rw [List.find?_eq_none]
      intro group hgroup
      rcases (hchild group).1 hgroup with rfl | ⟨provider, -, rfl⟩
      · simp
      · simp [isPrefixOf_group provider.id]
    let groups := (carriedSettings providers).childGroups.filter
      fun group => providerPrefix.isPrefixOf group
    have hgroups : ∀ group, group ∈ groups ↔
        ∃ provider ∈ providers, group = groupOfId provider.id := by
      intro group
      rw [List.mem_filter, hchild]
      constructor
      · rintro ⟨rfl | hprovider, hpre⟩
        · exact absurd hpre (by decide)
        · exact hprovider
      · rintro ⟨provider, hprovider, rfl⟩
        exact ⟨Or.inr ⟨provider, hprovider, rfl⟩, isPrefixOf_group _⟩
    have hnodup : groups.Nodup := (List.nodup_dedup _).filter _
    obtain ⟨loaded, hloaded, hmem⟩ := @readProviders_carried qt profiles _
      hcarried hids hsound groups (fun group => (hgroups group).1) hnodup []
      (by simp)
    refine ⟨loaded, ?_, fun provider => (hmem provider).trans
      (and_iff_left_of_imp fun hprovider =>
        (hgroups _).2 ⟨provider, hprovider, rfl⟩)⟩
    unfold loadProviderStateFile
    simp only [hsettings, hexpected, isConfigured_carried]
    rw [readMapProviderCatalog, if_pos (Or.inr (isConfigured_carried _))]
    exact hloaded
  · intro group hgroup
    rw [Ini.openedGroups, scan_file hclean hcarried, List.mem_filterMap]
      at hgroup
    obtain ⟨line, hline, hopened⟩ := hgroup
    simp only [List.mem_cons, List.mem_append, List.mem_flatMap, blockLines,
      trailerLines, List.not_mem_nil, or_false] at hline
    rcases hline with rfl | (⟨provider, hprovider, rfl | hline⟩ | rfl | rfl)
      | rfl
    · cases hopened
    · have hsection := openedGroup_section (hcarried provider hprovider)
        (htrim provider hprovider)
      rw [hsection, Option.some.injEq] at hopened
      exact Or.inr ⟨provider, hprovider, hopened.symm⟩
    · rw [valueLines_openedGroup line hline] at hopened
      cases hopened
    · have hmarker : Ini.openedGroup "[map_providers]".toList
          = some "map_providers/".toList := by decide
      rw [hmarker, Option.some.injEq] at hopened
      exact Or.inl hopened.symm
    · have hmarker : Ini.openedGroup "configured=true".toList = none := by
        decide
      rw [hmarker] at hopened
      cases hopened
    · cases hopened
  · intro entry hentry
    rw [hsettings] at hentry
    rcases mem_carriedSettings.1 hentry with
      rfl | ⟨provider, hprovider, field, hfield, rfl⟩
    · exact Or.inl rfl
    · exact Or.inr ⟨provider, hprovider, field.1, fields_keys hfield, rfl⟩

end AowisMap.Server.Catalogue
