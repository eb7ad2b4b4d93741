/-
The provider catalogue over HTTP and over restarts: the checks of `PUT
/map/v1/providers` (`server.cpp`), the INI text that
`saveMapProvidersToState` writes, and what `loadProviderStateFile` makes
of it (`configuration.cpp`).

# What is Qt's

The body is a parsed JSON value, a URL is what `QUrl` makes of a text,
and the INI reader is `Lib.Ini`. Lower-casing and `QUrl` are parameters
(`Qt`): the route and the loader use the same ones.
-/
import Mathlib.Data.List.Infix
import AowisMap.Lib.Ini
import AowisMap.Maps.Types

namespace AowisMap.Server.Catalogue

open Lib

/-- A `QString`. -/
abbrev Text := List Char

-- ================================================================= Qt

/-- What is read of a URL. -/
structure QUrl where
  scheme : Text
  host : Text

/-- The text operations of Qt that are used as they are; lower-casing
leaves nothing to trim where there was nothing. -/
structure Qt where
  toLower : Text → Text
  parseUrl : Text → QUrl
  trimmed_toLower : ∀ text, QString.trimmed (toLower (QString.trimmed text))
    = toLower (QString.trimmed text)

/-- The 32 digits of a UUID with or without an opening brace; what comes
after them is ignored. -/
def uuidDigits (text : Text) : Option Text :=
  let digits := (if text.head? = some '{' then text.tail else text).take 36
  let isDash := fun i => i == 8 || i == 13 || i == 18 || i == 23
  if digits.length = 36 ∧ digits.zipIdx.all (fun c =>
      if isDash c.2 then c.1 == '-' else (Ini.hex? [c.1]).isSome) then
    some (digits.filter fun c => c != '-')
  else none

/-- `QUuid(text).isNull()`. -/
def isNullUuid (text : Text) : Bool :=
  (uuidDigits text).all fun digits => digits.all fun c => c == '0'

/-- A JSON value. -/
inductive JsonValue
  | null
  | bool (value : Bool)
  | number (value : Rat)
  | string (value : Text)
  | array (values : List JsonValue)
  | object (members : List (Text × JsonValue))

namespace JsonValue

/-- `QJsonObject::value`; the absent member is no value of any type. -/
def member (key : String) : JsonValue → JsonValue
  | object members => (members.lookup key.toList).getD null
  | _ => null

/-- `QJsonValue::toString`. -/
def toText : JsonValue → Text
  | string value => value
  | _ => []

/-- `QJsonValue::toInt`: the number if it is an `int`. -/
def toInt (fallback : Int) : JsonValue → Int
  | number value =>
      if value.den = 1 ∧ QString.fitsInt value.num then value.num else fallback
  | _ => fallback

/-- `QJsonValue::toBool`. -/
def toBool (fallback : Bool) : JsonValue → Bool
  | bool value => value
  | _ => fallback

end JsonValue

-- =========================================================== providers

/-- `Aowis::Map::MapProvider`. -/
structure MapProvider where
  id : Text := []
  name : Text := []
  urlTemplate : Text := []
  coverage : Text := []
  enabled : Bool := true
  remoteFetchEnabled : Bool := true
  minimumZoom : Int := 0
  maximumZoom : Int := 19
deriving DecidableEq

/-- `defaultMapProviders`: those of the tile store, with their names. -/
def defaultMapProviders : List MapProvider :=
  (Maps.defaultMapProviders.zip
    ["OpenStreetMap", "CyclOSM", "OpenTopoMap", "ArcGIS World Imagery"]).map
    fun (provider, name) =>
      { id := provider.id.toList
        name := name.toList
        urlTemplate := provider.urlTemplate.toList
        coverage := provider.coverage.toList
        enabled := provider.enabled
        remoteFetchEnabled := provider.remoteFetchEnabled
        minimumZoom := provider.minimumZoom
        maximumZoom := provider.maximumZoom }

/-- `DownloadCoverage::hasProfile`. -/
def hasProfile (profiles : List Text) (name : Text) : Bool :=
  name.isEmpty || profiles.contains name

/-- Whether a URL template has its three placeholders. -/
def hasPlaceholders (template : Text) : Bool :=
  decide (['{', 'z', '}'] <:+: template) &&
    decide (['{', 'x', '}'] <:+: template) &&
    decide (['{', 'y', '}'] <:+: template)

/-- Whether a scheme is `http` or `https`. -/
def isHttp (url : QUrl) : Bool :=
  url.scheme == "http".toList || url.scheme == "https".toList

-- =========================================================== the route

variable (qt : Qt) (profiles : List Text)

/-- What the route makes of an entry. -/
def proposedProvider (entry : JsonValue) : MapProvider where
  id := qt.toLower (QString.trimmed (entry.member "id").toText)
  name := QString.trimmed (entry.member "name").toText
  urlTemplate := QString.trimmed (entry.member "url").toText
  coverage := QString.trimmed (entry.member "coverage").toText
  minimumZoom := (entry.member "minimum_zoom").toInt (-1)
  maximumZoom := (entry.member "maximum_zoom").toInt (-1)
  enabled := (entry.member "enabled").toBool true
  remoteFetchEnabled := (entry.member "remote_fetch_enabled").toBool true

/-- Whether the route refuses a provider, `ids` being those before it. -/
def refuses (ids : List Text) (provider : MapProvider) : Bool :=
  isNullUuid provider.id || provider.id.contains '{' ||
    ids.contains provider.id || provider.name.isEmpty ||
    provider.name.contains '\n' || provider.name.contains '\r' ||
    provider.urlTemplate.contains '\n' ||
    provider.urlTemplate.contains '\r' || provider.coverage.contains '\n' ||
    decide (provider.minimumZoom < 0) || decide (30 < provider.maximumZoom) ||
    decide (provider.maximumZoom < provider.minimumZoom) ||
    !hasProfile profiles provider.coverage ||
    !isHttp (qt.parseUrl provider.urlTemplate) ||
    (qt.parseUrl provider.urlTemplate).host.isEmpty ||
    !hasPlaceholders provider.urlTemplate

/-- The loop over the entries. -/
def proposeAll : (proposed : List MapProvider) → List JsonValue →
    Except String (List MapProvider)
  | proposed, [] => .ok proposed
  | proposed, .object members :: entries =>
      let provider := proposedProvider qt (.object members)
      if refuses qt profiles (proposed.map MapProvider.id) provider then
        .error "Invalid provider UUID, name, URL, coverage or zoom range"
      else proposeAll (proposed ++ [provider]) entries
  | _, _ :: _ => .error "Provider must be an object"

/-- `PUT /map/v1/providers`, up to the catalogue it saves and applies. -/
def putProviders (document : JsonValue) : Except String (List MapProvider) :=
  match document, document.member "providers" with
  | .object _, .array entries =>
      if 100 < entries.length then .error "Too many map providers"
      else proposeAll qt profiles [] entries
  | _, _ => .error "Expected \x7b\"providers\": [...]\x7d"

-- ========================================================== the writer

/-- `iniQuotedValue`, a character. -/
def iniQuotedCharacter (c : Char) : Text :=
  if c = '\\' ∨ c = '"' then ['\\', c]
  else if c = '\t' then ['\\', 't']
  else [c]

/-- `iniQuotedValue`. -/
def iniQuotedValue (value : Text) : Text :=
  let at? : Text := if value.head? = some '@' then ['@'] else []
  '"' :: (at? ++ value.flatMap iniQuotedCharacter) ++ ['"']

/-- A key and its value, with the equals sign. -/
def keyLine (key : String) (value : Text) : Text := key.toList ++ '=' :: value

/-- `QVariant(bool)` as a text. -/
def boolText (value : Bool) : Text :=
  if value then "true".toList else "false".toList

/-- The lines behind the section line of a provider. -/
def valueLines (provider : MapProvider) : List Text :=
  [ keyLine "name" (iniQuotedValue provider.name),
    keyLine "url" (iniQuotedValue provider.urlTemplate),
    keyLine "min_zoom" (QString.number provider.minimumZoom),
    keyLine "max_zoom" (QString.number provider.maximumZoom),
    keyLine "enabled" (boolText provider.enabled),
    keyLine "remote_fetch_enabled" (boolText provider.remoteFetchEnabled) ]
  ++ (if provider.coverage = [] then []
    else [keyLine "coverage" (iniQuotedValue provider.coverage)])
  ++ [[]]

/-- The section line of a provider. -/
def sectionLine (id : Text) : Text :=
  "[map_provider.".toList ++ (id ++ [']'])

/-- The text of `saveMapProvidersToState`, line by line. -/
def stateLines (providers : List MapProvider) : List Text :=
  "; Map providers managed by the map server API.".toList ::
    (providers.flatMap fun provider =>
      sectionLine provider.id :: valueLines provider)
  ++ ["[map_providers]".toList, "configured=true".toList]

/-- `saveMapProvidersToState`, when every file operation succeeds: the
contents of the file. -/
def saveMapProvidersToState (providers : List MapProvider) : Text :=
  (stateLines providers).flatMap fun line => line ++ ['\n']

-- ========================================================== the loader

/-- `compatibleIniPath`: hash comments become semicolon comments.
`start` until something other than blanks was seen in a line. -/
def compatibleIni : (start : Bool) → Text → Text
  | _, [] => []
  | start, c :: cs =>
      if c = '\n' then c :: compatibleIni true cs
      else if start = true ∧ (c = ' ' ∨ c = '\t') then
        c :: compatibleIni true cs
      else if start = true ∧ c = '#' then ';' :: compatibleIni false cs
      else c :: compatibleIni false cs

/-- `readSingleString`. -/
def readSingleString (settings : Ini.Settings) (group : Text) (key : String)
    (fallback : Text) : Except Text Text :=
  match settings.value (group ++ '/' :: key.toList) with
  | none => .ok fallback
  | some (.text text) => .ok text
  | some .list => .error ("Value of '".toList ++ group ++ '/' :: key.toList
      ++ ("' contains an unquoted comma; enclose the value in double "
        ++ "quotes").toList)

/-- `settings->value(key, fallback).toString()`. -/
def readText (settings : Ini.Settings) (key : Text) (fallback : Text) : Text :=
  match settings.value key with
  | none => fallback
  | some (.text text) => text
  | some .list => []

/-- `readBoolean`. -/
def readBoolean (settings : Ini.Settings) (group : Text) (key : String)
    (value : Bool) : Except Text Bool :=
  let path := group ++ '/' :: key.toList
  match settings.value path with
  | none => .ok value
  | some _ =>
      let text := (QString.trimmed (readText settings path [])).map
        Char.toLower
      if ["true", "1", "yes", "on"].any fun word => word.toList == text then
        .ok true
      else if ["false", "0", "no", "off"].any fun word =>
          word.toList == text then
        .ok false
      else .error ("Invalid boolean for '".toList ++ key.toList
        ++ "': ".toList ++ readText settings path [])

/-- The id a section stands for: pre-UUID names are those of built-in
providers. -/
def storedId (text : Text) : Text :=
  if text = "openstreetmap".toList then
    "0381bc44-67e9-5af9-aeb0-023ccba36658".toList
  else if text = "osmcyclo".toList then
    "49bda1b9-15aa-55e6-8933-2172c785e775".toList
  else if text = "opentopomap".toList then
    "178a60e6-178a-507b-af86-f45427150986".toList
  else if text = "arcgis".toList then
    "a0d790c2-f231-55fd-b95e-23c9bd6cb3fc".toList
  else text

/-- What a section starts from: the built-in provider of its id, if there
is one. -/
def knownProvider (id : Text) : MapProvider :=
  { (defaultMapProviders.find? fun known => known.id == id).getD {} with
    id := id }

/-- The checks on what a section says. -/
def acceptable (provider : MapProvider) : Bool :=
  !provider.urlTemplate.isEmpty &&
    isHttp (qt.parseUrl provider.urlTemplate) &&
    hasPlaceholders provider.urlTemplate &&
    decide (0 ≤ provider.minimumZoom) && decide (provider.maximumZoom ≤ 30) &&
    decide (provider.minimumZoom ≤ provider.maximumZoom) &&
    hasProfile profiles provider.coverage

/-- The two zoom limits of a section. -/
def readZooms (settings : Ini.Settings) (group : Text)
    (known : MapProvider) : Except Text (Int × Int) :=
  let minText := readText settings (group ++ "/min_zoom".toList)
    (QString.number known.minimumZoom)
  let maxText := readText settings (group ++ "/max_zoom".toList)
    (QString.number known.maximumZoom)
  match QString.toInt minText, QString.toInt maxText with
  | some minimumZoom, some maximumZoom => .ok (minimumZoom, maximumZoom)
  | _, _ => .error ("Invalid zoom limits in ".toList ++ group)

/-- Reads the provider of a section. -/
def readProvider (settings : Ini.Settings) (group : Text) :
    Except Text MapProvider :=
  let stored := group.drop 13
  let id := storedId stored
  if isNullUuid id then
    .error ("Map provider id must be a UUID: ".toList ++ stored)
  else do
    let known := knownProvider id
    let name ← readSingleString settings group "name" known.name
    let url ← readSingleString settings group "url" known.urlTemplate
    let coverage ← readSingleString settings group "coverage" []
    let zooms ← readZooms settings group known
    let enabled ← readBoolean settings group "enabled" known.enabled
    let remote ← readBoolean settings group "remote_fetch_enabled"
      known.remoteFetchEnabled
    let provider : MapProvider :=
      { id := id
        name := name
        urlTemplate := url
        coverage := QString.trimmed coverage
        minimumZoom := zooms.1
        maximumZoom := zooms.2
        enabled := enabled
        remoteFetchEnabled := remote }
    if acceptable qt profiles provider then pure provider
    else .error ("Invalid URL, zoom limits or coverage for map ".toList
      ++ "provider '".toList ++ id ++ "'".toList)

/-- The loop over the sections. -/
def readProviders (settings : Ini.Settings) : (read : List MapProvider) →
    List Text → Except Text (List MapProvider)
  | read, [] => .ok read
  | read, group :: groups => do
      let provider ← readProvider qt profiles settings group
      if (read.map MapProvider.id).contains provider.id then
        .error ("Duplicate map provider UUID: ".toList ++ provider.id)
      else readProviders settings (read ++ [provider]) groups

/-- The prefix of the sections of providers. -/
def providerPrefix : Text := "map_provider.".toList

/-- Whether the file says that it is a catalogue: `toBool` of a text. -/
def isConfigured (settings : Ini.Settings) : Bool :=
  let text := (readText settings "map_providers/configured".toList
    "false".toList).map Char.toLower
  !(text.isEmpty || text == "0".toList || text == "false".toList)

/-- `readMapProviderCatalog`. -/
def readMapProviderCatalog (settings : Ini.Settings)
    (configured : List MapProvider) : Except Text (List MapProvider) :=
  let groups := settings.childGroups.filter fun group =>
    providerPrefix.isPrefixOf group
  if groups ≠ [] ∨ isConfigured settings = true then
    readProviders qt profiles settings [] groups
  else .ok configured

/-- The settings of a state file. -/
def stateSettings (file : Text) : Ini.Settings :=
  Ini.readText (compatibleIni true file)

/-- `loadProviderStateFile`, for a readable file at `path`, if there is
one: the providers that are configured then. -/
def loadProviderStateFile (path : Text) (file : Option Text)
    (configured : List MapProvider) : Except Text (List MapProvider) :=
  match file with
  | none => .ok configured
  | some text =>
      let settings := stateSettings text
      match settings.childGroups.find? fun group =>
          group != "map_providers".toList &&
            !providerPrefix.isPrefixOf group with
      | some group =>
          .error ("Unexpected group in provider state: ".toList ++ group)
      | none =>
          if settings.wellFormed = false then
            .error ("Invalid provider state file: ".toList ++ path)
          else if isConfigured settings = false then
            .error ("Provider state has no configured=true marker: ".toList
              ++ path)
          else readMapProviderCatalog qt profiles settings configured

end AowisMap.Server.Catalogue
